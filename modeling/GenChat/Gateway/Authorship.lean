import GenChat.Gateway.History
import GenChat.Ledger.Storing

/-!
# Authorship

`InsertMessage` records the author of a row under its server id and under the client's id, and
overwrites whoever stood there. Editing and deleting for everyone trust that record. It is sound
as long as nobody sends a message under an id that is recorded for another user, and as long as
the record can be written.
-/
namespace GenChat.Gateway
open Library Ledger Router

/-! ## The recorded author -/

/-- The author `GetAuthor` returns. -/
def Server.authorOf (s : Server) (k id : String) : Option String :=
  (s.db.selectAuthor k id).map MessageAuthor.senderID

namespace Server
variable {S : Platform} {s s' : Server} {op : Op} {c : Choice} {r : Ret op}

/-- Recorded authors stay, unless one is recorded for an id of somebody else. -/
theorem exec_authorOf (h : s.exec S op c = some (r, s'))
    (own : ∀ k id u, op = .recordAuthor k id u → ∀ v, s.authorOf k id = some v → v = u)
    {k id u : String} (known : s.authorOf k id = some u) : s'.authorOf k id = some u := by
  rcases exec_db h with same | applied
  · rwa [authorOf, same]
  · rw [authorOf, applied]
    cases op with
    | recordAuthor k' id' u' =>
      by_cases key : (k, id) = (k', id')
      · cases key
        rw [own k id u' rfl u known]
        simp [Op.effect, Store.insertAuthor, Store.selectAuthor]
      · rw [authorOf] at known
        simpa [Op.effect, Store.insertAuthor, Store.selectAuthor, AList.lookup_insert_ne key]
          using known
    | _ => exact known

theorem recordAuthor_authorOf {k id u : String} {r : Except StoreError Unit}
    (h : s.exec S (.recordAuthor k id u) c = some (r, s')) (succeeds : c ≠ .fail) :
    s'.authorOf k id = some u := by
  rcases write_eq_some.mp h with ⟨-, -, rfl⟩ | ⟨rfl, -, -⟩ | ⟨-, -, rfl⟩
  · simp [authorOf, Store.insertAuthor, Store.selectAuthor]
  · exact absurd rfl succeeds
  · simp [authorOf, Store.insertAuthor, Store.selectAuthor]

end Server

/-- An author is recorded for an id of its own, and that works. -/
def Op.recordsOwn (s : Server) : Op → Choice → Bool
  | .recordAuthor k id u, c => (s.authorOf k id).all (· = u) && c ≠ .fail
  | _, _ => true

/-! ## Reports -/

/-- The channel and the id in a frame that tells of an edit or of a deletion for everyone. -/
def Frame.reports : Frame → Option (String × String)
  | .messageDeleted channelID messageID _ _ | .messageEdited channelID messageID _ _ _
  | .ackEdit messageID channelID _ => some (channelID, messageID)
  | .ackDelete messageID channelID scope =>
    if scope = "everyone" then some (channelID, messageID) else none
  | _ => none

def Op.reports : Op → Option (String × String)
  | .sendToUser _ frame | .connSend frame | .broadcastAll _ frame => frame.reports
  | _ => none

theorem Frame.plain.reports {frame : Frame} (h : frame.plain) : frame.reports = none := by
  cases frame <;> first | exact h.elim | rfl

theorem Op.plain.reports {op : Op} (h : op.plain) : op.reports = none := by
  cases op <;> first | exact Frame.plain.reports h | rfl

/-! ## The contract of a frame -/

/-- Both ids of every row, and the ids of edits and deletions, name the author. -/
structure Server.Authored (s : Server) : Prop where
  rows : ∀ key cell, s.db.messages.lookup key = some cell →
    ∀ id ∈ [cell.row.messageID.text, cell.row.clientMsgID],
      s.authorOf cell.row.conversationID id = some cell.row.senderID
  events : ∀ key columns, s.db.events.lookup key = some columns →
    key.eventType ∈ ["edited", "deleted"] →
      s.authorOf key.conversationID key.messageID = some columns.actorID

def authorContract (S : Platform) (t : Inbound) : Contract (system S) where
  inv := Server.Authored
  rely s s' := ∀ k id u, s.authorOf k id = some u → s'.authorOf k id = some u
  rely_refl _ _ _ _ h := h
  rely_trans h h' _ _ _ known := h' _ _ _ (h _ _ _ known)
  admits s op c := op.recordsOwn s c
  req s
    | .insertRow row => ∀ id ∈ [row.messageID.text, row.clientMsgID],
      s.authorOf row.conversationID id = some row.senderID
    | .insertEvent k id type actor _ => type ∈ ["edited", "deleted"] → s.authorOf k id = some actor
    | op => ∀ ch id, op.reports = some (ch, id) →
      s.authorOf (getConversationID t.conn.userID ch) id = some t.conn.userID

section Contract
variable {S : Platform} {r : Router} {t : Inbound}

theorem author_admitted {s s' : Server} {op : Op} {c : Choice} {res : Ret op}
    (admits : op.recordsOwn s c) (h : s.exec S op c = some (res, s')) {k id u : String}
    (known : s.authorOf k id = some u) : s'.authorOf k id = some u := by
  refine Server.exec_authorOf h (fun k id u same v known => ?_) known
  subst same
  simpa [known] using (Bool.and_eq_true_iff.mp admits).1

theorem author_recorded {s s' : Server} {k id u : String} {c : Choice}
    {res : Except StoreError Unit} (admits : Op.recordsOwn s (.recordAuthor k id u) c)
    (h : s.exec S (.recordAuthor k id u) c = some (res, s')) : s'.authorOf k id = some u :=
  Server.recordAuthor_authorOf h (of_decide_eq_true (Bool.and_eq_true_iff.mp admits).2)

/-- A step that an admitted thread may take keeps the invariant. -/
theorem Server.Authored.exec {s s' : Server} {op : Op} {c : Choice} {res : Ret op}
    (inv : s.Authored) (req : (authorContract S t).req s op)
    (rely : (authorContract S t).rely s s') (h : s.exec S op c = some (res, s')) :
    s'.Authored := by
  have rows (key : MessageKey) (cell : Cell StoredMessage)
      (found : s'.db.messages.lookup key = some cell) (id : String)
      (mem : id ∈ [cell.row.messageID.text, cell.row.clientMsgID]) :
      s.authorOf cell.row.conversationID id = some cell.row.senderID := by
    rcases Server.exec_db h with same | applied
    · exact inv.rows key cell (by rwa [same] at found) id mem
    · rw [applied] at found
      cases op with
      | insertRow row =>
        rcases lookup_insert_cases found with old | ⟨-, rfl⟩
        · exact inv.rows key cell old id mem
        · exact req id mem
      | _ => exact inv.rows key cell found id mem
  have events (key : EventKey) (columns : EventColumns)
      (found : s'.db.events.lookup key = some columns)
      (type : key.eventType ∈ ["edited", "deleted"]) :
      s.authorOf key.conversationID key.messageID = some columns.actorID := by
    rcases Server.exec_db h with same | applied
    · exact inv.events key columns (by rwa [same] at found) type
    · rw [applied] at found
      cases op with
      | insertEvent k id type' actor ct =>
        rcases lookup_insert_cases found with old | ⟨rfl, rfl⟩
        · exact inv.events key columns old type
        · exact req type
      | _ => exact inv.events key columns found type
  exact ⟨fun key cell found id mem => rely _ _ _ (rows key cell found id mem),
    fun key columns found type => rely _ _ _ (events key columns found type)⟩

theorem author_of_plain {op : Op} (h : op.plain) (s : Server) : (authorContract S t).req s op := by
  cases op <;> first
    | exact h.elim
    | exact fun ch id same => by rw [Op.plain.reports h] at same; cases same

theorem author_of_routine {op : Op} (h : Routine t.conn.userID op) (s : Server) :
    (authorContract S t).req s op := by
  cases op with
  | insertEvent k id type actor ct =>
    obtain ⟨-, pin, -⟩ := h
    intro edit
    simp only [List.mem_cons, List.not_mem_nil, or_false] at pin edit
    rcases pin with rfl | rfl <;> rcases edit with h | h <;> exact absurd h (by decide)
  | updateDelivered | updateRead => exact nofun
  | _ => exact author_of_plain (by exact h) s

theorem meets_author {p : Handled} (h : p.All (Routine t.conn.userID)) (s : Server) :
    Meets (authorContract S t) (fun _ _ => True) p s :=
  Meets.of_free (h.mono fun _ => author_of_routine)

/-! ## Storing -/

/-- The two author records stand before the row is written. -/
theorem storeNew_author {row : StoredMessage} (named : row.clientMsgID ≠ "") (s : Server) :
    Meets (authorContract S t) (fun _ _ => True) (LedgerHandler.storeNew row) s := by
  have insert : Meets (authorContract S t) (fun _ _ => True) (insertMessage row) s := by
    rw [insertMessage, if_pos named]
    refine fun u _ _ => ⟨nofun, fun c _ u' admits hr => ?_⟩
    have client := @author_recorded S _ _ _ _ _ _ _ admits hr
    refine fun v hv _ => ⟨nofun, fun c _ v' admits hr => ?_⟩
    have server := @author_recorded S _ _ _ _ _ _ _ admits hr
    have client := @author_admitted S _ _ _ _ _ admits hr _ _ _ (hv _ _ _ client)
    refine fun w hw _ => ⟨fun id mem => ?_, fun _ _ _ _ _ => Meets.pure fun _ _ _ => trivial⟩
    rcases List.mem_pair.mp mem with rfl | rfl
    · exact hw _ _ _ server
    · exact hw _ _ _ client
  refine Meets.bind (insert.mono fun stored s _ => ?_)
  cases stored with
  | error err => exact Meets.pure fun _ _ _ => trivial
  | ok => exact fun t _ _ => ⟨nofun, fun _ _ _ _ _ => Meets.pure fun _ _ _ => trivial⟩

theorem storeMessage_author {req : StoreMessageRequest} (named : req.clientMsgId ≠ "")
    (s : Server) : Meets (authorContract S t) (Succeeds fun _ _ => True)
      (LedgerClient.storeMessage S req) s := by
  refine meets_storeMessage (fun op h s => ?_) (fun _ _ _ _ _ => trivial)
    (fun _ _ _ _ _ _ => trivial) (fun _ _ _ _ _ _ => trivial) fun s seq now id => ?_
  · cases op <;> first | exact h.elim | exact nofun
  · intro row _
    exact (storeNew_author named s).mono fun answer s _ => by cases answer <;> trivial

/-! ## Editing and deleting -/

/-- What an edit or a deletion of the message `id` in the channel `ch` may do. -/
def Amends (u ch id : String) (op : Op) : Prop :=
  (∃ type ct, op = .insertEvent (getConversationID u ch) id type u ct) ∨
    op.silent ∧ (op.reports = none ∨ op.reports = some (ch, id))

theorem Op.plain.amends {u ch id : String} {op : Op} (h : op.plain) : Amends u ch id op :=
  .inr ⟨Op.plain.silent h, .inl (Op.plain.reports h)⟩

/-- Whoever is recorded as the author may amend the message. -/
theorem meets_amends {α : Type} {p : Proc α} {ch id : String}
    (h : p.All (Amends t.conn.userID ch id)) {s : Server}
    (author : s.authorOf (getConversationID t.conn.userID ch) id = some t.conn.userID) :
    Meets (authorContract S t) (fun _ _ => True) p s := by
  let P (s : Server) : Prop :=
    s.authorOf (getConversationID t.conn.userID ch) id = some t.conn.userID
  have kept : Meets (authorContract S t) (fun _ => P) p s := by
    refine Meets.of_all (fun _ _ h rely => rely _ _ _ h)
      (fun s op c res s' known amends _ hr => ?_) (fun s op _ known amends => ?_) author h
    · refine @Server.exec_authorOf S _ _ _ _ _ hr (fun k id u same => ?_) _ _ _ known
      subst same
      rcases amends with ⟨_, _, ⟨⟩⟩ | ⟨silent, -⟩
      exact silent.elim
    · rcases amends with ⟨type, ct, rfl⟩ | ⟨silent, reports⟩
      · exact fun _ => known
      · have req : ∀ ch id, op.reports = some (ch, id) →
            s.authorOf (getConversationID t.conn.userID ch) id = some t.conn.userID := by
          intro ch' id' same
          rcases reports with none | own
          · rw [none] at same
            cases same
          · rw [own] at same
            cases same
            exact known
        cases op <;> first | exact silent.elim | exact req
  exact kept.mono fun _ _ _ => trivial

theorem meets_getMessageAuthor {k id : String} (s : Server) :
    Meets (authorContract S t) (Succeeds fun author s => s.authorOf k id = some author)
      (LedgerClient.getMessageAuthor k id) s := by
  refine meets_rpc (fun _ => nofun) (fun _ => nofun) (fun _ _ _ h rely => rely _ _ _ h) ?_
  unfold LedgerHandler.getMessageAuthor
  split
  · exact Meets.pure fun _ _ _ => trivial
  · refine fun u _ _ => ⟨nofun, fun c found v _ hr => ?_⟩
    obtain ⟨rfl, ⟨-, rfl⟩ | ⟨-, rfl⟩⟩ := Server.query_eq_some.mp hr
    · dsimp only [Prog.pure_bind]
      split
      · exact Meets.pure fun _ _ _ => trivial
      · rename_i given
        refine Meets.pure fun w hw _ => hw _ _ _ ?_
        cases author : v.db.selectAuthor k id with
        | none => exact absurd (by rw [author]; rfl) given
        | some a => rw [Server.authorOf, author]; rfl
    · exact Meets.pure fun _ _ _ => trivial

theorem relayAndEcho_amends {u ch id : String} {frame : Frame}
    (report : frame.reports = some (ch, id)) (channelID : String) :
    (r.relayAndEcho t.conn channelID frame).All (Amends u ch id) :=
  relayAndEcho_all (fun _ => Op.plain.amends trivial) (fun _ => .inr ⟨trivial, .inr report⟩)
    (fun _ => .inr ⟨trivial, .inr report⟩) channelID

theorem handleEditMessage_author (j : Json) (s : Server) :
    Meets (authorContract S t) (fun _ _ => True) (r.handleEditMessage t.conn j) s := by
  have refuse (code msg : String) (s : Server) :
      Meets (authorContract S t) (fun _ _ => True) (sendError t.conn code msg) s :=
    meets_author ((sendError_all _ _).mono fun _ => Op.plain.routine) s
  unfold handleEditMessage
  split
  · exact refuse _ _ s
  · rename_i frame _
    dsimp only
    split
    · exact refuse _ _ s
    · split
      · exact refuse _ _ s
      · refine Meets.bind ((meets_getMessageAuthor s).mono fun answer s known => ?_)
        cases answer with
        | error err => exact refuse _ _ s
        | ok authorID =>
          dsimp only
          split
          · exact refuse _ _ s
          · split
            · exact refuse _ _ s
            · rename_i own
              have author : authorID = t.conn.userID := not_not.mp own
              refine meets_amends ?_ (known.trans (congrArg some author))
              refine (recordMessageEvent_all (.inl ⟨_, _, rfl⟩) fun _ => Op.plain.amends).bind
                fun _ => ⟨Op.plain.amends trivial, fun time => ?_⟩
              exact (relayAndEcho_amends rfl _).bind fun _ =>
                ⟨.inr ⟨trivial, .inr rfl⟩, fun _ => trivial⟩

theorem handleDeleteMessage_author (j : Json) (s : Server) :
    Meets (authorContract S t) (fun _ _ => True) (r.handleDeleteMessage t.conn j) s := by
  have refuse (code msg : String) (s : Server) :
      Meets (authorContract S t) (fun _ _ => True) (sendError t.conn code msg) s :=
    meets_author ((sendError_all _ _).mono fun _ => Op.plain.routine) s
  unfold handleDeleteMessage
  split
  · exact refuse _ _ s
  · rename_i frame _
    dsimp only
    split
    · exact refuse _ _ s
    · split
      · rename_i everyone
        split
        · exact refuse _ _ s
        · refine Meets.bind ((meets_getMessageAuthor s).mono fun answer s known => ?_)
          cases answer with
          | error err => exact refuse _ _ s
          | ok authorID =>
            dsimp only
            split
            · exact refuse _ _ s
            · split
              · exact refuse _ _ s
              · rename_i own
                have author : authorID = t.conn.userID := not_not.mp own
                refine meets_amends (Prog.All.bind ?_ fun _ => ?_)
                  (known.trans (congrArg some author))
                · exact (recordMessageEvent_all (.inl ⟨_, _, rfl⟩) fun _ => Op.plain.amends).bind
                    fun _ => ⟨Op.plain.amends trivial, fun time => relayAndEcho_amends rfl _⟩
                · exact ⟨.inr ⟨trivial, .inr (if_pos everyone)⟩, fun _ => trivial⟩
      · rename_i own
        refine Meets.of_free ⟨fun s ch id reports => ?_, fun _ => trivial⟩
        rw [Op.reports, Frame.reports, if_neg own] at reports
        cases reports

/-- Every handler keeps the contract. -/
theorem handle_author (s : Server) :
    Meets (authorContract S t) (fun _ _ => True) (r.Handle S t.conn t.data) s := by
  revert s
  have plain (p : Handled) (h : p.All Op.plain) (s : Server) :
      Meets (authorContract S t) (fun _ _ => True) p s :=
    meets_author (h.mono fun _ => Op.plain.routine) s
  have ack {op : Op} (h : op.plain) (s : Server) : (authorContract S t).req s op :=
    author_of_plain h s
  refine handle_cases _ (fun p => meets_author) (fun j _ _ => ?send)
    (fun j => handleDeleteMessage_author j) (fun j => handleEditMessage_author j)
    (fun j s => ?history) fun packet action act binary decoded payload sends => ?protoSend
  case send =>
    refine handleSendMessage_cases
      (P := fun p => ∀ s, Meets (authorContract S t) (fun _ _ => True) p s) j
      (fun _ _ => plain _ (sendError_all _ _)) fun frame payload _ _ named _ _ _ s => ?_
    refine Meets.bind ((storeMessage_author named s).mono fun answer s _ => ?_)
    cases answer with
    | error err => exact plain _ (sendError_all _ _) s
    | ok stored => exact Meets.of_free (acknowledge_all (fun _ => nofun) fun _ => ack)
  case history =>
    refine Meets.of_free ((handleFetchHistory_all j).mono fun op h s => ?_)
    rcases h with h | ⟨ch, messages, rfl⟩
    · exact ack h s
    · exact nofun
  case protoSend =>
    refine handleProtoSendMessage_cases
      (P := fun p => ∀ s, Meets (authorContract S t) (fun _ _ => True) p s)
      _ _ act (fun _ _ => plain _ (sendProtoError_all _ _ _))
      (fun _ named _ _ s => ?_) fun _ _ _ _ s => ?_
    · refine Meets.bind ((storeMessage_author named s).mono fun answer s _ => ?_)
      cases answer with
      | error err => exact plain _ (sendProtoError_all _ _ _) s
      | ok stored => exact Meets.of_free (protoAcknowledge_all (fun _ _ => nofun) fun _ => ack)
    · exact Meets.of_free ⟨fun _ => nofun, fun time =>
        protoAcknowledge_all (fun _ _ => nofun) fun _ => ack⟩

end Contract

/-! ## Runs -/

section Runs
variable (S : Platform) (r : Router)

/-- No author is recorded for an id that is recorded for somebody else, and recording works. -/
def KeepsAuthors (p : Pool (gateway S r)) : PoolLabel (gateway S r) → Prop
  | .run i c => ∀ x ∈ p.next i, x.2.recordsOwn p.shared c
  | _ => True

instance (p : Pool (gateway S r)) : ∀ l, Decidable (KeepsAuthors S r p l)
  | .run i c => inferInstanceAs (Decidable (∀ x ∈ p.next i, x.2.recordsOwn p.shared c = true))
  | .spawn _ | .env _ => inferInstanceAs (Decidable True)

/-- Both ids of every row name its sender as the author, and whoever edited a row, deleted it or
had an edit or a deletion of it accepted is its sender. -/
structure AuthorshipKept (p : Pool (gateway S r)) : Prop where
  author : ∀ m, p.shared.db.Holds m → ∀ id ∈ [m.messageID.text, m.clientMsgID],
    p.shared.authorOf m.conversationID id = some m.senderID
  event : ∀ key columns, p.shared.db.events.lookup key = some columns →
    key.eventType ∈ ["edited", "deleted"] → ∀ m, p.shared.db.Holds m →
      m.conversationID = key.conversationID → key.messageID ∈ [m.messageID.text, m.clientMsgID] →
        columns.actorID = m.senderID
  report : ∀ x ∈ p.log, ∀ ch id, x.2.reports = some (ch, id) → ∀ m, p.shared.db.Holds m →
    m.conversationID = getConversationID x.1.conn.userID ch →
      id ∈ [m.messageID.text, m.clientMsgID] → x.1.conn.userID = m.senderID

variable {S r}

def authorProtocol (S : Platform) (r : Router) :
    Pool.Protocol (gateway S r) (KeepsAuthors S r) where
  contract := authorContract S
  inv := Server.Authored
  rely := (authorContract S ⟨⟨"", .json⟩, []⟩).rely
  contract_inv _ := rfl
  contract_rely _ := rfl
  admitted p i c t op k ok thread := ok (t, op) (Pool.next_call thread)
  init s hs := by
    obtain ⟨clock, rfl⟩ := hs
    exact ⟨nofun, nofun⟩
  exec t s op c res s' inv req admits hr :=
    have rely (k id u : String) := @author_admitted S _ _ _ _ _ admits hr k id u
    ⟨inv.exec req rely hr, rely⟩
  env p e s' _ inv he := by
    have rely (k id u : String) (known : p.shared.authorOf k id = some u) :
        s'.authorOf k id = some u := by rwa [Server.authorOf, Server.change_db he]
    refine ⟨⟨fun key cell found id mem => rely _ _ _ (inv.rows key cell ?_ id mem),
      fun key columns found type => rely _ _ _ (inv.events key columns ?_ type)⟩, rely⟩
    · rwa [Server.change_db he] at found
    · rwa [Server.change_db he] at found
  body p t _ _ := handle_author p.shared

theorem authorship_kept {p : Pool (gateway S r)}
    (hp : (Pool.machine (gateway S r)).Reach (KeepsAuthors S r) p) : AuthorshipKept S r p := by
  have authored := (Pool.safe (authorProtocol S r) hp).1
  have author (m : StoredMessage) (hm : p.shared.db.Holds m) (id : String)
      (mem : id ∈ [m.messageID.text, m.clientMsgID]) :
      p.shared.authorOf m.conversationID id = some m.senderID := by
    obtain ⟨cell, found, rfl⟩ := hm
    exact authored.rows _ cell found id mem
  refine ⟨author, fun key columns found type m hm hk mem => ?_,
    fun x hx ch id reports m hm hk mem => ?_⟩
  · have actor := authored.events key columns found type
    rw [← hk, author m hm _ mem] at actor
    exact (Option.some.inj actor).symm
  · have noted := Pool.safe_log (authorProtocol S r) (fun t op s => ∀ ch id,
      op.reports = some (ch, id) →
        s.authorOf (getConversationID t.conn.userID ch) id = some t.conn.userID)
      (fun t s op c res s' _ req admits hr ch id reports => ?_)
      (fun t op s s' h rely ch id reports => rely _ _ _ (h ch id reports)) hp x hx ch id reports
    · rw [← hk, author m hm _ mem] at noted
      exact (Option.some.inj noted).symm
    · have known : s.authorOf (getConversationID t.conn.userID ch) id = some t.conn.userID := by
        cases op <;> first | exact req ch id reports | cases reports
      exact author_admitted admits hr known

end Runs

/-! ## Samples -/

def authoredRun : Option (Pool (gateway samplePlatform sampleRouter)) :=
  runFrom samplePlatform sampleRouter (KeepsAuthors samplePlatform sampleRouter) sampleClock
    helloLabels

theorem authorship_kept_sample :
    (authoredRun.get (by rfl)).shared.db.Holds sampleRow ∧
      AuthorshipKept samplePlatform sampleRouter (authoredRun.get (by rfl)) :=
  ⟨⟨⟨sampleRow, none⟩, by rfl, rfl⟩, authorship_kept (runFrom_reach (Option.some_get _).symm)⟩

/-- `send_message` of Alice to Mallory. -/
def takenFrame : Bytes :=
  ("\x7b\"action\":\"send_message\",\"channel_id\":\"mallory\",\"client_msg_id\":\"c1\"," ++
    "\"ciphertext_base64\":\"AQID\"\x7d").toUTF8.data.toList

/-- `send_message` of Mallory to Alice, with the id of the message above as `client_msg_id`. -/
def takingFrame : Bytes :=
  ("\x7b\"action\":\"send_message\",\"channel_id\":\"alice\"," ++
    "\"client_msg_id\":\"ceeb8000-0790-11ef-8000-00155d000001\"," ++
    "\"ciphertext_base64\":\"AQID\"\x7d").toUTF8.data.toList

/-- `edit_message` of Mallory for the message of Alice. -/
def forgedFrame : Bytes :=
  ("\x7b\"action\":\"edit_message\",\"channel_id\":\"alice\"," ++
    "\"message_id\":\"ceeb8000-0790-11ef-8000-00155d000001\"," ++
    "\"ciphertext_base64\":\"CQkJ\"\x7d").toUTF8.data.toList

def takenRow : StoredMessage := { sampleRow with conversationID := "dm:alice:mallory" }

def takeoverRun : Option (Pool (gateway samplePlatform sampleRouter)) :=
  runFrom samplePlatform sampleRouter (fun _ _ => True) sampleClock [
    .spawn ⟨⟨"alice", .json⟩, takenFrame⟩, .run 0 (.answer true), .run 0 .ok, .run 0 .ok,
    .run 0 .ok, .run 0 (.uuid takenRow.messageID), .run 0 .ok, .run 0 .ok, .run 0 .ok,
    .spawn ⟨⟨"mallory", .json⟩, takingFrame⟩, .run 1 (.answer true), .run 1 .ok, .run 1 .ok,
    .run 1 .ok, .run 1 (.uuid ⟨139338432010000000, "cf841680-0790-11ef-8000-00155d000002"⟩),
    .run 1 .ok,
    .spawn ⟨⟨"mallory", .json⟩, forgedFrame⟩, .run 2 (.answer true), .run 2 .ok,
    .run 2 (.answer true), .run 2 (.answer true), .run 2 .ok, .run 2 (.answer true), .run 2 .ok,
    .run 2 .ok]

set_option maxRecDepth 20000

theorem takeoverRun_isSome : takeoverRun.isSome := by rfl

/-- Mallory edits a message of Alice. -/
theorem authorship_taken_over :
    ∃ p, (Pool.machine (gateway samplePlatform sampleRouter)).Reachable p ∧
      ¬ AuthorshipKept samplePlatform sampleRouter p := by
  refine ⟨takeoverRun.get takeoverRun_isSome, runFrom_reach (Option.some_get _).symm,
    fun kept => ?_⟩
  have edit : (takeoverRun.get takeoverRun_isSome).log.any (fun x => x.1.conn.userID = "mallory" ∧
      x.2.reports = some ("alice", takenRow.messageID.text)) := by rfl
  obtain ⟨x, hx, told⟩ := List.any_eq_true.mp edit
  obtain ⟨mallory, reports⟩ := of_decide_eq_true told
  have stored : (takeoverRun.get takeoverRun_isSome).shared.db.Holds takenRow :=
    ⟨⟨takenRow, none⟩, by rfl, rfl⟩
  have own := kept.report x hx _ _ reports takenRow stored (by rw [mallory]; decide) (by simp)
  rw [mallory] at own
  exact absurd own (by decide)

end GenChat.Gateway
