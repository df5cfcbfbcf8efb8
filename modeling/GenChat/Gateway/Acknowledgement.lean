import GenChat.Gateway.DirectIsolation

/-!
# Acknowledgements

An acknowledgement names a row: the one that `StoreMessage` has just inserted, or the one that
`client_dedup` gives for the client's message id. That table is keyed by the conversation and the
client's id alone, so the row may be of another sender or have another payload. It is the row of
the acknowledged frame as long as every record that a send finds is of the same sender and payload.
-/
namespace GenChat.Gateway
open Library Ledger Router

/-! ## What an acknowledgement says -/

def Frame.acknowledges : Frame → Prop
  | .ack _ _ _ => True
  | .protoActionAck _ _ _ _ success _ _ => success = true
  | _ => False

def Op.acknowledges : Op → Prop
  | .sendToUser _ frame | .connSend frame | .broadcastAll _ frame => frame.acknowledges
  | _ => False

/-- The frame is a JSON `send_message`. -/
def Inbound.JsonSends (t : Inbound) (frame : InboundFrame) : Prop :=
  ∃ j, Json.parse t.data = some j ∧ unmarshalAction j = some "send_message" ∧
    InboundFrame.unmarshal j = some frame

/-- The row is what the operation, issued for `t`, tells its receiver about. A protobuf
acknowledgement does not name the message id. -/
def Inbound.Acks (S : Platform) (t : Inbound) (m : StoredMessage) : Op → Prop
  | .sendToUser u (.ack clientMsgID messageID n) =>
    t.conn.userID = u ∧ m.senderID = u ∧ m.clientMsgID = clientMsgID ∧
      m.messageID.text = messageID ∧ m.sequenceNum = n ∧ ∃ frame, t.JsonSends frame ∧
        frame.clientMsgID = clientMsgID ∧ m.conversationID = getConversationID u frame.channelID ∧
        Base64.decodeString frame.ciphertextB64 = (m.encryptedPayload, true)
  | .sendToUser u (.protoActionAck _ _ n clientMsgID _ _ _) =>
    t.conn.userID = u ∧ m.senderID = u ∧ m.clientMsgID = clientMsgID ∧
      uint64 m.sequenceNum = n ∧ ∃ act, t.ProtoSends S act ∧ act.clientMsgId = clientMsgID ∧
        m.conversationID = act.conversationId ∧ m.encryptedPayload = act.encryptedPayload
  | _ => False

theorem Frame.announces.not_acknowledges {frame : Frame} (h : frame.announces) :
    ¬ frame.acknowledges := by
  cases frame <;> first | exact h.elim | exact id | skip
  case protoActionAck success _ _ =>
    rintro (rfl : success = true)
    cases h

theorem Annotates.not_acknowledges {u : String} {op : Op} (h : Annotates u op) :
    ¬ op.acknowledges := by
  cases op <;> first | exact id | exact Frame.announces.not_acknowledges h

/-! ## Runs in question -/

/-- A dedup query answers nothing, or with the record of a row of the same sender and payload; the
fallback query, which knows no sequence number, answers nothing. -/
def Op.FindsOwn (s : Server) : Op → Choice → Prop
  | .queryDedup msg, .ok =>
    ∀ record, s.db.selectDedup s.clock msg.conversationID msg.clientMsgID = some record →
      ∀ m, s.db.Holds m → m.messageID = record.messageID →
        m.senderID = msg.senderID ∧ m.encryptedPayload = msg.encryptedPayload
  | .queryDedupLegacy msg, .ok =>
    s.db.selectDedup s.clock msg.conversationID msg.clientMsgID = none
  | _, _ => True

section Runs
variable (S : Platform) (r : Router)

/-- Dedup queries find what the sender itself stored, no row runs out of its TTL before it is
acknowledged, and nothing is sent by protobuf while there is no ledger. -/
def KeepsAcks (p : Pool (gateway S r)) : PoolLabel (gateway S r) → Prop
  | .spawn t => r.ledger = true ∨ ∀ act, t.ProtoSends S act →
    act.conversationId = "" ∨ act.clientMsgId = "" ∨ act.encryptedPayload = []
  | .run i c => ∀ t op, p.next i = some (t, op) → op.FindsOwn p.shared c ∧
    ∀ m, p.shared.db.Holds m → t.Acks S m op → p.shared.db.HoldsLive p.shared.clock m
  | .env _ => True

end Runs

/-! ## The contract of a frame -/

/-- A record of `client_dedup` gives the ids of a row. -/
def Store.Deduped (db : Store) : Prop := ∀ k clientMsgID cell,
  db.clientDedup.lookup (k, clientMsgID) = some cell → ∃ m, db.Holds m ∧ m.conversationID = k ∧
    m.clientMsgID = clientMsgID ∧ m.messageID = cell.row.messageID ∧
    m.sequenceNum = cell.row.sequenceNum

def ackContract (S : Platform) (t : Inbound) : Contract (system S) where
  inv s := s.Recorded ∧ Store.Deduped s.db
  rely s s' := (∀ id m, s.issued.lookup id = some m → s'.issued.lookup id = some m) ∧
    ∀ m, s.db.Holds m → s'.db.Holds m
  rely_refl _ := ⟨fun _ _ => id, fun _ => id⟩
  rely_trans h h' := ⟨fun _ _ issued => h'.1 _ _ (h.1 _ _ issued), fun _ hm => h'.2 _ (h.2 _ hm)⟩
  admits s op c := op.FindsOwn s c
  req s
    | .insertRow row => s.issued.lookup row.messageID.text = some row
    | .insertDedup k clientMsgID messageID n _ => ∃ m, s.db.Holds m ∧ m.conversationID = k ∧
      m.clientMsgID = clientMsgID ∧ m.messageID = messageID ∧ m.sequenceNum = n
    | op => op.acknowledges → ∃ m, s.db.Holds m ∧ t.Acks S m op

section Contract
variable {S : Platform} {r : Router} {t : Inbound} {s s' : Server}

theorem ack_row {op : Op} (req : (ackContract S t).req s op) :
    ∀ m, op = .insertRow m → s.issued.lookup m.messageID.text = some m := by
  rintro m rfl
  exact req

theorem ack_exec {op : Op} {c : Choice} {res : Ret op} (inv : (ackContract S t).inv s)
    (req : (ackContract S t).req s op) (h : s.exec S op c = some (res, s')) :
    (ackContract S t).inv s' ∧ (ackContract S t).rely s s' := by
  have keeps (m : StoredMessage) (hm : s.db.Holds m) : s'.db.Holds m :=
    inv.1.keeps h (ack_row req) hm
  refine ⟨⟨inv.1.exec h (ack_row req), fun k clientMsgID cell found => ?_⟩,
    fun _ _ => Server.exec_issued h, keeps⟩
  have backed : ∃ m, s.db.Holds m ∧ m.conversationID = k ∧ m.clientMsgID = clientMsgID ∧
      m.messageID = cell.row.messageID ∧ m.sequenceNum = cell.row.sequenceNum := by
    rcases Server.exec_db h with same | applied
    · exact inv.2 _ _ _ (by rwa [same] at found)
    · rw [applied] at found
      cases op with
      | insertDedup =>
        rcases lookup_insert_cases found with old | ⟨same, rfl⟩
        · exact inv.2 _ _ _ old
        · cases same
          exact req
      | _ => exact inv.2 _ _ _ found
  obtain ⟨m, hm, fits⟩ := backed
  exact ⟨m, keeps m hm, fits⟩

theorem ack_of_annotates {u : String} {op : Op} (h : Annotates u op) (s : Server) :
    (ackContract S t).req s op := by
  cases op <;> first
    | exact h.elim
    | exact fun acks => absurd acks (Annotates.not_acknowledges h)

theorem meets_ack {p : Handled} (h : p.All (Annotates t.conn.userID)) (s : Server) :
    Meets (ackContract S t) (fun _ _ => True) p s :=
  Meets.of_free (h.mono fun _ => ack_of_annotates)

/-! ## Storing and acknowledging -/

/-- The ledger holds the message of the request under the ids of the answer. -/
def Backed (req : StoreMessageRequest) (stored : StoreMessageResult) (s : Server) : Prop :=
  ∃ m, s.db.Holds m ∧ m.conversationID = req.conversationId ∧ m.senderID = req.senderId ∧
    m.clientMsgID = req.clientMsgId ∧ m.encryptedPayload = req.encryptedPayload ∧
    m.messageID.text = stored.messageID ∧ m.sequenceNum = stored.sequenceNum

theorem Backed.stable {req : StoreMessageRequest} {stored : StoreMessageResult}
    (h : Backed req stored s) (rely : (ackContract S t).rely s s') : Backed req stored s' := by
  obtain ⟨m, hm, fits⟩ := h
  exact ⟨m, rely.2 m hm, fits⟩

theorem insertMessage_ack {row : StoredMessage}
    (issued : s.issued.lookup row.messageID.text = some row) :
    Meets (ackContract S t) (fun (stored : Except StoreError Unit) s => stored = .ok () →
      s.db.Holds row) (insertMessage row) s := by
  let Q (stored : Except StoreError Unit) (s : Server) : Prop := stored = .ok () → s.db.Holds row
  have insert (s : Server) (issued : s.issued.lookup row.messageID.text = some row) :
      Meets (ackContract S t) Q (.call (.insertRow row) .pure) s := by
    refine fun u hu hi => ⟨hu.1 _ _ issued, fun c stored v _ hr => ?_⟩
    refine Meets.pure fun w hw _ success => hw.2 row ?_
    subst success
    simp only [Server.exec] at hr
    split at hr
    · obtain ⟨-, -, rfl⟩ | ⟨-, ⟨⟩, -⟩ | ⟨-, ⟨⟩, -⟩ := Server.write_eq_some.mp hr
      exact ⟨_, AList.lookup_insert _, rfl⟩
    · cases hr
  have author (id : String) {f : Except StoreError Unit → Proc (Except StoreError Unit)}
      (rest : ∀ res s, s.issued.lookup row.messageID.text = some row →
        Meets (ackContract S t) Q (f res) s)
      (s : Server) (issued : s.issued.lookup row.messageID.text = some row) :
      Meets (ackContract S t) Q
        (.call (.recordAuthor row.conversationID id row.senderID) f) s :=
    fun u hu _ => ⟨by rintro ⟨⟩, fun c res v _ hr =>
      rest res v (@Server.exec_issued S u v (.recordAuthor _ _ _) c res hr _ _
        (hu.1 _ _ issued))⟩
  have server := author row.messageID.text fun _ => insert
  unfold insertMessage
  split
  · exact author _ (fun _ => server) s issued
  · exact server s issued

theorem storeNew_ack {row : StoredMessage}
    (issued : s.issued.lookup row.messageID.text = some row) :
    Meets (ackContract S t) (Succeeds fun m s => m = row ∧ s.db.Holds row)
      (LedgerHandler.storeNew row) s := by
  refine Meets.bind ((insertMessage_ack issued).mono fun stored u held => ?_)
  cases stored with
  | error err => exact Meets.pure fun _ _ _ => trivial
  | ok =>
    refine fun v hv hi => ⟨⟨row, hv.2 _ (held rfl), rfl, rfl, rfl, rfl⟩, fun c res w _ hr => ?_⟩
    have kept := @Server.Recorded.keeps S v w (.insertDedup _ _ _ _ _) c res hi.1 hr
      (fun _ h => nomatch h) row (hv.2 _ (held rfl))
    exact Meets.pure fun x hx _ => ⟨rfl, hx.2 row kept⟩

theorem storeMessage_ack {req : StoreMessageRequest} :
    Meets (ackContract S t) (Succeeds (Backed req)) (LedgerClient.storeMessage S req) s := by
  refine meets_storeMessage (fun op h s => ?free) (fun _ _ _ h rely => h.stable rely)
    (fun s c record inv admits hr => ?hit) (fun s c record inv admits hr => ?legacy)
    fun s seq now id => ?new
  case free => cases op <;> first | exact h.elim | exact nofun
  case hit =>
    obtain ⟨-, ⟨rfl, found⟩ | ⟨-, ⟨⟩⟩⟩ := Server.query_eq_some.mp hr
    have found := (Except.ok.inj found).symm
    obtain ⟨cell, live, rfl⟩ := Option.map_eq_some_iff.mp found
    obtain ⟨m, hm, hk, hc, hid, hn⟩ := inv.2 _ _ _ (Option.mem_filter_iff.mp live).1
    obtain ⟨sender, payload⟩ := admits _ found m hm hid
    exact ⟨m, hm, hk, sender, hc, payload, congrArg UUID.text hid, hn⟩
  case legacy =>
    obtain ⟨-, ⟨rfl, found⟩ | ⟨-, ⟨⟩⟩⟩ := Server.query_eq_some.mp hr
    have none : s.db.selectDedup s.clock _ _ = Option.none := admits
    rw [none] at found
    cases found
  case new =>
    intro row issued
    refine (storeNew_ack issued).mono fun answer u stored => ?_
    cases answer with
    | error err => trivial
    | ok m =>
      obtain ⟨rfl, held⟩ := stored
      exact ⟨row, held, rfl, rfl, rfl, rfl, rfl, rfl⟩

/-- A program that only acknowledges one row, which the ledger holds, keeps the contract. -/
theorem meets_acks {p : Handled} {m : StoredMessage} (hm : s.db.Holds m)
    (h : p.All fun op => op.plain ∨ op.silent ∧ t.Acks S m op) :
    Meets (ackContract S t) (fun _ _ => True) p s := by
  have kept : Meets (ackContract S t) (fun _ s => s.db.Holds m) p s := by
    refine Meets.of_all (fun _ _ hm rely => rely.2 m hm) (fun s op c res s' hm known _ hr => ?_)
      (fun s op _ hm known => ?_) hm h
    · have silent : op.silent := known.elim Op.plain.silent And.left
      rwa [@Server.exec_silent S _ _ _ _ _ silent hr]
    · rcases known with plain | ⟨silent, acks⟩
      · exact ack_of_annotates (Op.plain.annotates (u := t.conn.userID) plain) s
      · cases op <;> first | exact silent.elim | exact fun _ => ⟨m, hm, acks⟩
  exact kept.mono fun _ _ _ => trivial

theorem handleSendMessage_ack {j : Json} (parsed : Json.parse t.data = some j)
    (action : unmarshalAction j = some "send_message") (s : Server) :
    Meets (ackContract S t) (fun _ _ => True) (r.handleSendMessage S t.conn j) s := by
  have plain (p : Handled) (h : p.All Op.plain) (s : Server) :
      Meets (ackContract S t) (fun _ _ => True) p s :=
    meets_ack (h.mono fun _ => Op.plain.annotates) s
  refine handleSendMessage_cases
    (P := fun p => ∀ s, Meets (ackContract S t) (fun _ _ => True) p s) j
    (fun _ _ => plain _ (sendError_all _ _)) (fun frame payload read _ _ _ decodes _ s => ?_) s
  refine Meets.bind (storeMessage_ack.mono fun answer s stored => ?_)
  cases answer with
  | error err => exact plain _ (sendError_all _ _) s
  | ok stored' =>
    obtain ⟨m, hm, hk, sender, client, payload', id, n⟩ := stored
    refine meets_acks hm (acknowledge_all (.inr ⟨trivial, ?_⟩) fun _ => .inl)
    refine ⟨rfl, sender, client, id, n, frame, ⟨j, parsed, action, read⟩, rfl, hk, ?_⟩
    rw [decodes, payload']
    rfl

theorem handleProtoSendMessage_ack {act : SendMessageAction} (sends : t.ProtoSends S act)
    (durable : r.ledger = true ∨ act.conversationId = "" ∨ act.clientMsgId = "" ∨
      act.encryptedPayload = []) (reqID traceID : String) (s : Server) :
    Meets (ackContract S t) (fun _ _ => True)
      (r.handleProtoSendMessage S t.conn reqID traceID act) s := by
  have plain (p : Handled) (h : p.All Op.plain) (s : Server) :
      Meets (ackContract S t) (fun _ _ => True) p s :=
    meets_ack (h.mono fun _ => Op.plain.annotates) s
  refine handleProtoSendMessage_cases
    (P := fun p => ∀ s, Meets (ackContract S t) (fun _ _ => True) p s)
    reqID traceID act (fun _ _ => plain _ (sendProtoError_all _ _ _)) (fun _ _ _ _ s => ?_)
    (fun hk hc hp memory => ?_) s
  · refine Meets.bind (storeMessage_ack.mono fun answer s stored => ?_)
    cases answer with
    | error err => exact plain _ (sendProtoError_all _ _ _) s
    | ok stored' =>
      obtain ⟨m, hm, hk, sender, client, payload', id, n⟩ := stored
      refine meets_acks hm (protoAcknowledge_all (fun time => .inr ⟨trivial, ?_⟩) fun _ => .inl)
      exact ⟨rfl, sender, client, by rw [n], act, sends, rfl, hk, payload'⟩
  · rcases durable with ledger | none | none | none
    · rw [memory] at ledger
      cases ledger
    · exact absurd none hk
    · exact absurd none hc
    · exact absurd none hp

theorem handle_ack (durable : r.ledger = true ∨ ∀ act, t.ProtoSends S act →
      act.conversationId = "" ∨ act.clientMsgId = "" ∨ act.encryptedPayload = []) (s : Server) :
    Meets (ackContract S t) (fun _ _ => True) (r.Handle S t.conn t.data) s := by
  refine handle_cases _ (fun p h => meets_ack (h.mono fun _ => Routine.annotates))
    (fun j parsed action => handleSendMessage_ack parsed action)
    (fun j => meets_ack (handleDeleteMessage_all j)) (fun j => meets_ack (handleEditMessage_all j))
    (fun j s => ?_) (fun packet action act binary decoded payload sends => ?_) s
  · refine Meets.of_free ((handleFetchHistory_all j).mono fun op h s => ?_)
    rcases h with plain | ⟨ch, messages, rfl⟩
    · exact ack_of_annotates (Op.plain.annotates (u := t.conn.userID) plain) s
    · exact nofun
  · have named : t.ProtoSends S act := ⟨binary, packet, action, decoded, payload, sends⟩
    exact handleProtoSendMessage_ack named (durable.imp_right fun h => h act named) _ _

end Contract

/-! ## Runs -/

def ackProtocol (S : Platform) (r : Router) : Pool.Protocol (gateway S r) (KeepsAcks S r) where
  contract := ackContract S
  inv s := s.Recorded ∧ Store.Deduped s.db
  rely := (ackContract S ⟨⟨"", .json⟩, []⟩).rely
  contract_inv _ := rfl
  contract_rely _ := rfl
  admitted p i c t op k ok thread := (ok t op (Pool.next_call thread)).1
  init s hs := by
    obtain ⟨clock, rfl⟩ := hs
    exact ⟨Server.recorded_empty clock, nofun⟩
  exec t s op c res s' inv req _ hr := @ack_exec S t s s' op c res inv req hr
  env p e s' _ inv he := by
    refine ⟨⟨inv.1.change he, ?_⟩, fun id m issued => ?_, fun m hm => ?_⟩
    · rw [Server.change_db he]
      exact inv.2
    · rwa [Server.change_issued he]
    · rwa [Server.change_db he]
  body p t ok _ := handle_ack ok p.shared

/-- In a run that keeps to `KeepsAcks`, whenever a thread acknowledges a message, the ledger holds
the message it acknowledges. -/
theorem acknowledgement_sound {S : Platform} {r : Router} {p : Pool (gateway S r)}
    (hp : (Pool.machine (gateway S r)).Reach (KeepsAcks S r) p) {i : Nat} {c : Choice} {t : Inbound}
    {op : Op} (next : p.next i = some (t, op)) (step : KeepsAcks S r p (.run i c))
    (acks : op.acknowledges) :
    ∃ m, p.shared.db.HoldsLive p.shared.clock m ∧ t.Acks S m op := by
  obtain ⟨k, thread⟩ := Pool.call_of_next next
  have req := Pool.safe_next (ackProtocol S r) hp thread
  have named : ∃ m, p.shared.db.Holds m ∧ t.Acks S m op := by
    cases op <;> first | exact acks.elim | exact req acks
  obtain ⟨m, hm, fits⟩ := named
  exact ⟨m, (step t op next).2 m hm fits, fits⟩

/-! ## Samples -/

/-- No dedup query finds anything, and no row has expired. -/
def firstSends {S : Platform} {r : Router} (p : Pool (gateway S r)) :
    PoolLabel (gateway S r) → Bool
  | .spawn _ => r.ledger
  | .run i _ => p.shared.db.messages.entries.all (fun e => e.2.live p.shared.clock) &&
    (p.next i).all fun x => match x.2 with
      | .queryDedup msg | .queryDedupLegacy msg =>
        p.shared.db.selectDedup p.shared.clock msg.conversationID msg.clientMsgID = none
      | _ => true
  | .env _ => true

theorem firstSends_keepsAcks {S : Platform} {r : Router} {p : Pool (gateway S r)}
    {l : PoolLabel (gateway S r)} (h : firstSends p l) : KeepsAcks S r p l := by
  cases l with
  | spawn t => exact .inl h
  | env e => trivial
  | run i c =>
    obtain ⟨live, finds⟩ := Bool.and_eq_true_iff.mp h
    intro t op next
    rw [next] at finds
    refine ⟨?_, fun m ⟨cell, found, same⟩ _ => ⟨cell, found, same, ?_⟩⟩
    · cases op <;> try trivial
      all_goals
        have none := of_decide_eq_true finds
        cases c <;> try trivial
      exact fun record found => by rw [none] at found; cases found
    · exact List.all_eq_true.mp live _ (AList.mem_lookup_iff.mp found)

/-- Alice's message to Bob is stored, and she is about to be told. -/
def ackRun : Option (Pool (gateway samplePlatform sampleRouter)) :=
  runFrom samplePlatform sampleRouter (fun p l => firstSends p l) sampleClock
    (helloLabels ++ [.run 0 .ok, .run 0 (.answer true)])

theorem ackRun_isSome : ackRun.isSome := by rfl

def sampleAck : Op := .sendToUser "alice" (.ack "c1" sampleRow.messageID.text 1)

theorem ackRun_next :
    (ackRun.get ackRun_isSome).next 0 = some (⟨⟨"alice", .json⟩, helloFrame⟩, sampleAck) := by rfl

theorem acknowledgement_sound_sample :
    ∃ m, (ackRun.get ackRun_isSome).shared.db.HoldsLive sampleClock m ∧
      (⟨⟨"alice", .json⟩, helloFrame⟩ : Inbound).Acks samplePlatform m sampleAck :=
  acknowledgement_sound
    ((runFrom_reach (Option.some_get ackRun_isSome).symm).mono fun _ _ => firstSends_keepsAcks)
    ackRun_next (@firstSends_keepsAcks _ _ _ (.run 0 .ok) (by rfl)) trivial

/-- Bob answers Alice under the same client message id. -/
def answerFrame : Bytes :=
  ("\x7b\"action\":\"send_message\",\"channel_id\":\"alice\",\"client_msg_id\":\"c1\"," ++
    "\"ciphertext_base64\":\"CQkJ\"\x7d").toUTF8.data.toList

def answerRun : Option (Pool (gateway samplePlatform sampleRouter)) :=
  runFrom samplePlatform sampleRouter (fun _ _ => True) sampleClock (helloLabels ++ [
    .run 0 .ok, .spawn ⟨⟨"bob", .json⟩, answerFrame⟩, .run 1 (.answer true), .run 1 .ok,
    .run 1 (.answer true)])

theorem answerRun_isSome : answerRun.isSome := by rfl

/-- Bob's answer is acknowledged with the id of Alice's message, and not stored. -/
theorem unstored_acknowledged : ∃ p i t op,
    (Pool.machine (gateway samplePlatform sampleRouter)).Reachable p ∧ p.next i = some (t, op) ∧
    op.acknowledges ∧
    ¬ ∃ m, p.shared.db.HoldsLive p.shared.clock m ∧ t.Acks samplePlatform m op := by
  have next : (answerRun.get answerRun_isSome).next 1 = some (⟨⟨"bob", .json⟩, answerFrame⟩,
      .sendToUser "bob" (.ack "c1" sampleRow.messageID.text 1)) := by rfl
  refine ⟨_, 1, _, _, runFrom_reach (Option.some_get answerRun_isSome).symm, next, trivial, ?_⟩
  rintro ⟨m, ⟨cell, found, rfl, -⟩, -, sender, -⟩
  have rows : (answerRun.get answerRun_isSome).shared.db.messages.entries.all
      fun e => e.2.row.senderID = "alice" := by rfl
  have alice := List.all_eq_true.mp rows _ (AList.mem_lookup_iff.mp found)
  rw [of_decide_eq_true alice] at sender
  exact absurd sender (by decide)

end GenChat.Gateway
