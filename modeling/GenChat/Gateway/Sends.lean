import GenChat.Gateway.History
import GenChat.Ledger.Storing

/-!
# Sends and what is shown of them

A `send_message` that is stored under a new id is pushed with the text it came in; a history
response shows rows of the ledger, with the bytes encoded again. The contract below follows both to
the row that the id was handed out for.
-/
namespace GenChat.Gateway
open Library Ledger Router

/-! ## Pushes and entries -/

def Op.push : Op → Option PushFrame
  | .sendToUser _ (.push f) | .connSend (.push f) | .broadcastAll _ (.push f) => some f
  | _ => none

/-- The bytes are handled as the JSON of a `send_message`. -/
def Inbound.Sends (S : Platform) (t : Inbound) (j : Json) : Prop :=
  reading S t.conn t.data = .json "send_message" j

theorem Inbound.Sends.unique {S : Platform} {t : Inbound} {j j' : Json} (h : t.Sends S j)
    (h' : t.Sends S j') : j = j' := by
  have same := h.symm.trans h'
  cases same
  rfl

/-- The push tells of the row, which was stored for the frame. -/
structure PushFrame.TellsOf (f : PushFrame) (frame : InboundFrame) (m : StoredMessage) : Prop where
  text : f.ciphertextB64 = frame.ciphertextB64
  decodes : Base64.decodeString f.ciphertextB64 = (m.encryptedPayload, true)
  senderID : f.senderID = m.senderID
  clientMsgID : f.clientMsgID = m.clientMsgID
  named : f.clientMsgID ≠ ""
  conversationID : m.conversationID = getConversationID f.senderID f.channelID

/-- The entry shows the row. Its TTL is what is left of it. -/
def HistoryMessageDTO.Shows (dto : HistoryMessageDTO) (m : StoredMessage) : Prop :=
  ∃ events ttlSec, dto =
    overlay events ({ m with ephemeralTTLSec := ttlSec } : StoredMessage).response.ledgerMessage

/-- An entry that is neither deleted nor edited shows the row as it is. -/
theorem HistoryMessageDTO.Shows.fields {dto : HistoryMessageDTO} {m : StoredMessage}
    (h : dto.Shows m) (undeleted : dto.isDeleted = false) (unedited : dto.isEdited = false) :
    dto.serverID = m.messageID.text ∧ dto.sequenceNum = m.sequenceNum ∧
      dto.senderID = m.senderID ∧ dto.clientMsgID = m.clientMsgID ∧
      dto.ciphertextB64 = Base64.encodeToString m.encryptedPayload := by
  obtain ⟨events, ttlSec, rfl⟩ := h
  generalize entry : ({ m with ephemeralTTLSec := ttlSec } : StoredMessage).response.ledgerMessage =
    shown at undeleted unedited ⊢
  have pin (dto : HistoryMessageDTO) : ∃ pinned, applyPin events shown dto =
      { dto with isPinned := pinned } := by
    unfold applyPin
    split_ifs <;> exact ⟨_, rfl⟩
  rw [overlay_isDeleted] at undeleted
  have kept : applyDeletion events shown (historyDTO shown) = historyDTO shown :=
    if_neg (by rw [undeleted]; exact Bool.false_ne_true)
  obtain ⟨pinned, same⟩ := pin (applyEdit events shown (historyDTO shown))
  rw [overlay, kept, same] at unedited ⊢
  unfold applyEdit at unedited ⊢
  cases edit : editOf events shown with
  | some e =>
    rw [edit] at unedited
    cases unedited
  | none =>
    subst entry
    exact ⟨rfl, rfl, rfl, rfl, rfl⟩

/-! ## The contract of a frame -/

/-- The message has got its id. -/
def Server.Issued (s : Server) (id : String) (m : StoredMessage) : Prop :=
  s.issued.lookup id = some m

/-- A push for a send tells of the row that its id was given to. -/
abbrev Op.Told (S : Platform) (t : Inbound) (s : Server) (op : Op) : Prop :=
  ∀ f, op.push = some f → ∀ j, t.Sends S j → ∃ frame m,
    InboundFrame.unmarshal j = some frame ∧ s.Issued f.serverID m ∧ f.TellsOf frame m

def sendContract (S : Platform) (t : Inbound) : Contract (system S) where
  inv := Server.Recorded
  rely s s' := (∀ id m, s.Issued id m → s'.Issued id m) ∧ ∀ m, s.db.Holds m → s'.db.Holds m
  rely_refl _ := ⟨fun _ _ => id, fun _ => id⟩
  rely_trans h h' := ⟨fun _ _ issued => h'.1 _ _ (h.1 _ _ issued), fun _ hm => h'.2 _ (h.2 _ hm)⟩
  admits _ _ _ := True
  req s
    | .insertRow row => s.Issued row.messageID.text row ∧ ∀ j, t.Sends S j →
      ∃ frame, InboundFrame.unmarshal j = some frame ∧
        Base64.decodeString frame.ciphertextB64 = (row.encryptedPayload, true)
    | .sendToUser _ (.history _ messages) => ∀ dto ∈ messages, ∃ m, s.db.Holds m ∧ dto.Shows m
    | op => op.Told S t s

section Contract
variable {S : Platform} {r : Router} {t : Inbound} {s s' : Server}

theorem send_exec {op : Op} {c : Choice} {res : Ret op} (inv : s.Recorded)
    (req : (sendContract S t).req s op) (h : s.exec S op c = some (res, s')) :
    s'.Recorded ∧ (sendContract S t).rely s s' := by
  have row (m : StoredMessage) (inserts : op = .insertRow m) :
      s.issued.lookup m.messageID.text = some m := by
    subst inserts
    exact req.1
  exact ⟨inv.exec h row, fun _ _ => Server.exec_issued h, fun _ => inv.keeps h row⟩

/-- What neither inserts a row nor shows one is allowed as far as it pushes nothing. -/
theorem send_of_announces {u : String} {op : Op} (h : Annotates u op)
    (silent : op.push = none ∨ ∀ j, ¬ t.Sends S j) (s : Server) : (sendContract S t).req s op := by
  have free : op.Told S t s := by
    intro f pushes j sends
    rcases silent with none | idle
    · rw [none] at pushes
      cases pushes
    · exact absurd sends (idle j)
  cases op with
  | insertRow => exact h.elim
  | sendToUser u frame =>
    cases frame with
    | history => exact h.elim
    | _ => exact free
  | _ => exact free

theorem meets_send {p : Handled} (h : p.All fun op => Annotates t.conn.userID op ∧
    (op.push = none ∨ ∀ j, ¬ t.Sends S j)) (s : Server) :
    Meets (sendContract S t) (fun _ _ => True) p s :=
  Meets.of_free (h.mono fun _ quiet => send_of_announces quiet.1 quiet.2)

/-! ## Storing -/

/-- The ids of the answer were given to the message of the request. -/
def Named (req : StoreMessageRequest) (stored : StoreMessageResult) (s : Server) : Prop :=
  ∃ m, s.Issued stored.messageID m ∧ m.conversationID = req.conversationId ∧
    m.senderID = req.senderId ∧ m.clientMsgID = req.clientMsgId ∧
    m.encryptedPayload = req.encryptedPayload

theorem Named.stable {req : StoreMessageRequest} {stored : StoreMessageResult}
    (h : Named req stored s) (rely : (sendContract S t).rely s s') : Named req stored s' := by
  obtain ⟨m, issued, fits⟩ := h
  exact ⟨m, rely.1 _ _ issued, fits⟩

theorem storeNew_returns (row : StoredMessage) : (LedgerHandler.storeNew row).Returns
    fun answer => ∀ m, answer = .ok m → m = row := by
  refine (Prog.returns_true _).bind fun stored _ => ?_
  cases stored with
  | error err => exact fun _ => nofun
  | ok =>
    rintro - m ⟨⟩
    rfl

/-- A message that is not a duplicate is answered with the id it was given. -/
theorem storeMessage_send {req : StoreMessageRequest} (payload : ∀ j, t.Sends S j →
      ∃ frame, InboundFrame.unmarshal j = some frame ∧
        Base64.decodeString frame.ciphertextB64 = (req.encryptedPayload, true)) :
    Meets (sendContract S t) (Succeeds fun stored s =>
      stored.deduplicated = false → Named req stored s) (LedgerClient.storeMessage S req) s := by
  refine meets_storeMessage (fun op h s => ?free)
    (fun _ _ _ h rely fresh => (h fresh).stable rely) (fun _ _ _ _ _ _ => nofun)
    (fun _ _ _ _ _ _ => nofun) fun s seq now id => ?new
  case free => cases op <;> first | exact h.elim | exact nofun
  case new =>
    intro row issued
    have all : (LedgerHandler.storeNew row).All fun op =>
        op = .insertRow row ∨ ∀ s, (sendContract S t).req s op :=
      storeNew_all (fun _ => .inr fun _ => nofun) (.inl rfl) (.inr fun _ => nofun)
    have kept : Meets (sendContract S t) (fun _ s => s.Issued id.text row)
        (LedgerHandler.storeNew row) s := by
      refine Meets.of_all (fun _ _ h rely => rely.1 _ _ h)
        (fun _ _ _ _ _ h _ _ hr => @Server.exec_issued S _ _ _ _ _ hr _ _ h)
        (fun s op _ h free => ?_) issued all
      rcases free with rfl | free
      · exact ⟨h, payload⟩
      · exact free s
    refine (kept.returns (storeNew_returns row)).mono fun answer s known => ?_
    cases answer with
    | error err => trivial
    | ok m =>
      obtain rfl := known.2 m rfl
      exact fun _ => ⟨row, known.1, rfl, rfl, rfl, rfl⟩

/-! ## Pushing -/

/-- The operation changes nothing and pushes nothing but `f`. -/
def Op.Pushes (f : PushFrame) (op : Op) : Prop := op.plain ∧ ∀ f' ∈ op.push, f' = f

section Push
variable {f : PushFrame} {conn : Conn}

attribute [local simp] Op.Pushes Op.plain Op.silent Op.push Frame.plain Prog.ite_bind Prog.all_ite

theorem pushToMembers_pushes (ch : String) (n : Int) (memberIDs : List String) :
    (pushToMembers r conn ch n (.push f) memberIDs).All (Op.Pushes f) := by
  induction memberIDs with
  | nil => trivial
  | cons uid rest ih => simp [pushToMembers, ih]

theorem pushToChannel_pushes (ch : String) (n : Int) :
    (r.pushToChannel conn ch n (.push f)).All (Op.Pushes f) := by
  have deliver (memberIDs : List String) :
      ((pushToMembers r conn ch n (.push f) memberIDs).bind fun _ => .pure (.ok ()) :
        Handled).All (Op.Pushes f) := (pushToMembers_pushes _ _ _).bind fun _ => trivial
  simp [pushToChannel, sendError, deliver]

theorem pushToPeer_pushes (u : String) (n : Int) :
    (r.pushToPeer conn u n (.push f)).All (Op.Pushes f) := by
  simp [pushToPeer, blocks]

end Push

/-- A program that pushes nothing but what tells of a row keeps the contract. -/
theorem meets_pushes {f : PushFrame} {frame : InboundFrame} {p : Handled}
    (h : p.All (Op.Pushes f)) (read : ∀ j, t.Sends S j → InboundFrame.unmarshal j = some frame)
    (told : ∃ m, s.Issued f.serverID m ∧ f.TellsOf frame m) :
    Meets (sendContract S t) (fun _ _ => True) p s := by
  have kept : Meets (sendContract S t)
      (fun _ s => ∃ m, s.Issued f.serverID m ∧ f.TellsOf frame m) p s := by
    refine Meets.of_all (fun _ _ told rely => ?_) (fun s op c res s' told only _ hr => ?_)
      (fun s op _ told only => ?_) told h
    · obtain ⟨m, issued, tells⟩ := told
      exact ⟨m, rely.1 _ _ issued, tells⟩
    · rwa [@Server.exec_silent S _ _ _ _ _ (Op.plain.silent only.1) hr]
    · have free : op.Told S t s := by
        intro f' pushed j sends
        obtain rfl := only.2 f' pushed
        exact ⟨frame, told.choose, read j sends, told.choose_spec⟩
      obtain ⟨plain, -⟩ := only
      cases op with
      | insertRow => exact plain.elim
      | sendToUser u frame =>
        cases frame with
        | history => exact plain.elim
        | _ => exact free
      | _ => exact free
  exact kept.mono fun _ _ _ => trivial

/-- After an acknowledgement, what was not a duplicate is pushed as it came in. -/
theorem acknowledge_send {frame : InboundFrame} {payload : Bytes} {stored : StoreMessageResult}
    (named : frame.clientMsgID ≠ "")
    (decodes : Base64.decodeString frame.ciphertextB64 = (payload, true))
    (read : ∀ j, t.Sends S j → InboundFrame.unmarshal j = some frame)
    (fresh : stored.deduplicated = false → Named (storeRequest t.conn frame payload) stored s) :
    Meets (sendContract S t) (fun _ _ => True) (r.acknowledge t.conn frame stored) s := by
  refine fun u hu _ => ⟨nofun, fun c _ v _ hr => ?_⟩
  obtain ⟨-, rfl⟩ := Server.done_eq_some.mp hr
  dsimp only [Prog.pure_bind]
  split
  · exact Meets.pure fun _ _ _ => trivial
  · rename_i new
    have known := (fresh (Bool.eq_false_of_not_eq_true new)).stable hu
    refine fun w hw _ => ⟨nofun, fun c time x _ hr => ?_⟩
    obtain ⟨m, issued, hk, sender, client, bytes⟩ := known.stable hw
    obtain rfl := @Server.exec_silent S w x .now c time trivial hr
    have told : Base64.decodeString frame.ciphertextB64 = (m.encryptedPayload, true) := by
      rw [bytes]
      exact decodes
    dsimp only [Prog.pure_bind]
    split
    · exact meets_pushes (pushToChannel_pushes _ _) read
        ⟨m, issued, rfl, told, sender.symm, client.symm, named, hk⟩
    · exact meets_pushes (pushToPeer_pushes _ _) read
        ⟨m, issued, rfl, told, sender.symm, client.symm, named, hk⟩

/-! ## The handlers -/

theorem sendError_send (code msg : String) (s : Server) :
    Meets (sendContract S t) (fun _ _ => True) (sendError t.conn code msg) s :=
  meets_send (p := sendError t.conn code msg) ⟨⟨trivial, .inl rfl⟩, fun _ => trivial⟩ s

theorem handleSendMessage_send {j : Json} (only : ∀ j', t.Sends S j' → j' = j) (s : Server) :
    Meets (sendContract S t) (fun _ _ => True) (r.handleSendMessage S t.conn j) s := by
  refine handleSendMessage_cases
    (P := fun p => ∀ s, Meets (sendContract S t) (fun _ _ => True) p s) j
    (fun _ _ => sendError_send _ _) (fun frame payload read _ named _ decodes _ s => ?_) s
  have reads (j' : Json) (sends : t.Sends S j') : InboundFrame.unmarshal j' = some frame := by
    rwa [only j' sends]
  have payload' (j' : Json) (sends : t.Sends S j') : ∃ frame,
      InboundFrame.unmarshal j' = some frame ∧
        Base64.decodeString frame.ciphertextB64 = (payload, true) :=
    ⟨frame, reads j' sends, decodes⟩
  refine Meets.bind ((storeMessage_send payload').mono fun answer s stored => ?_)
  cases answer with
  | error err => exact sendError_send _ _ s
  | ok stored' => exact acknowledge_send named decodes reads stored

theorem handleProtoSendMessage_send {act : SendMessageAction} (idle : ∀ j, ¬ t.Sends S j)
    (reqID traceID : String) (s : Server) :
    Meets (sendContract S t) (fun _ _ => True)
      (r.handleProtoSendMessage S t.conn reqID traceID act) s := by
  have plain (op : Op) (h : op.plain) (s : Server) : (sendContract S t).req s op :=
    send_of_announces (u := t.conn.userID) (Op.plain.annotates h) (.inr idle) s
  have refuse (code msg : String) (s : Server) :
      Meets (sendContract S t) (fun _ _ => True) (sendProtoError reqID code msg) s :=
    Meets.of_free ((sendProtoError_all _ _ _).mono plain)
  refine handleProtoSendMessage_cases
    (P := fun p => ∀ s, Meets (sendContract S t) (fun _ _ => True) p s)
    reqID traceID act refuse (fun _ _ _ _ s => ?_) (fun _ _ _ _ s => ?_) s
  · refine Meets.bind ((storeMessage_send fun j sends => absurd sends (idle j)).mono
      fun answer s _ => ?_)
    cases answer with
    | error err => exact refuse _ _ s
    | ok stored => exact Meets.of_free (protoAcknowledge_all (fun _ _ => nofun) plain)
  · exact Meets.of_free ⟨fun _ => nofun, fun time => protoAcknowledge_all (fun _ _ => nofun) plain⟩

theorem fetchMessageEvents_quiet (k mid : String) :
    (LedgerClient.fetchMessageEvents k mid).All fun op => op.plain ∧ op.push = none := by
  refine all_rpc ⟨trivial, rfl⟩ ⟨trivial, rfl⟩ ?_
  unfold LedgerHandler.fetchMessageEvents
  split
  · trivial
  · exact ⟨⟨trivial, rfl⟩, fun found => by cases found <;> trivial⟩

theorem handleFetchHistory_send (j : Json) (s : Server) :
    Meets (sendContract S t) (fun _ _ => True) (r.handleFetchHistory S t.conn j) s := by
  have respond (frame : FetchHistoryFrame) (s : Server) :
      Meets (sendContract S t) (fun _ _ => True) (respondHistory S t.conn frame) s := by
    let Row (m : LedgerMessage) (s : Server) : Prop := ∃ row ttlSec, s.db.Holds row ∧
      m = ({ row with ephemeralTTLSec := ttlSec } : StoredMessage).response.ledgerMessage
    have stable (m : LedgerMessage) (s s' : Server) (h : Row m s)
        (rely : (sendContract S t).rely s s') : Row m s' := by
      obtain ⟨row, ttlSec, held, same⟩ := h
      exact ⟨row, ttlSec, rely.2 _ held, same⟩
    refine fun u _ _ => ⟨nofun, fun c time v _ _ => ?_⟩
    change Meets _ _ (Prog.bind (LedgerClient.fetchMessages S _ _ _ _) _) v
    have fetched (k bucket before : String) (limit : Int) : Meets (sendContract S t)
        (Succeeds fun msgs s => ∀ m ∈ msgs, Row m s)
        (LedgerClient.fetchMessages S k bucket limit before) v :=
      meets_fetchMessages (fun op h s => by cases op <;> first | exact h.elim | exact nofun) stable
        fun s key cell inv found _ ttlSec => by
          refine ⟨cell.row, ttlSec, ⟨cell, ?_, rfl⟩, rfl⟩
          rw [(inv key cell found).1]
          exact found
    refine Meets.bind ((fetched _ _ _ _).mono fun answer w known => ?_)
    cases answer with
    | error err => exact sendError_send _ _ w
    | ok msgs =>
      have looked (k : String) : Meets (sendContract S t) (fun _ s => ∀ m ∈ msgs, Row m s)
          (LedgerClient.fetchMessageEvents k "") w :=
        Meets.of_all (fun s s' h rely m mem => stable m s s' (h m mem) rely)
          (fun _ _ _ _ _ h quiet _ hr => by
            rwa [@Server.exec_silent S _ _ _ _ _ (Op.plain.silent quiet.1) hr])
          (fun s _ _ _ quiet => send_of_announces (u := "") (Op.plain.annotates quiet.1)
            (.inl quiet.2) s) known
          (fetchMessageEvents_quiet _ _)
      refine Meets.bind ((looked _).mono fun events x known => ?_)
      refine fun y hy _ =>
        ⟨fun dto mem => ?_, fun _ _ _ _ _ => Meets.pure fun _ _ _ => trivial⟩
      obtain ⟨m, hm, rfl⟩ := List.mem_map.mp mem
      obtain ⟨row, ttlSec, held, rfl⟩ := stable m x y (known m hm) hy
      exact ⟨row, held, _, ttlSec, rfl⟩
  unfold handleFetchHistory
  split
  · exact sendError_send _ _ s
  · dsimp only
    split
    · exact sendError_send _ _ s
    · split
      · exact sendError_send _ _ s
      · split
        · refine fun u _ _ => ⟨nofun, fun c found v _ _ => ?_⟩
          cases found with
          | error err => exact sendError_send _ _ v
          | ok memberIDs =>
            dsimp only [Prog.pure_bind]
            split
            · exact sendError_send _ _ v
            · exact respond _ v
        · exact respond _ s

theorem handle_send (t : Inbound) (s : Server) :
    Meets (sendContract S t) (fun _ _ => True) (r.Handle S t.conn t.data) s := by
  by_cases sends : ∃ j, t.Sends S j
  · obtain ⟨j, sends⟩ := sends
    rw [Handle_eq, show reading S t.conn t.data = _ from sends]
    exact handleSendMessage_send (fun j' sends' => sends'.unique sends) s
  · have idle (j : Json) : ¬ t.Sends S j := fun h => sends ⟨j, h⟩
    have quiet (p : Handled) (h : p.All (Annotates t.conn.userID)) (s : Server) :
        Meets (sendContract S t) (fun _ _ => True) p s :=
      meets_send (h.mono fun _ annotates => ⟨annotates, .inr idle⟩) s
    exact handle_cases (P := fun p => ∀ s, Meets (sendContract S t) (fun _ _ => True) p s) _
      (fun p h => quiet p (h.mono fun _ => Routine.annotates))
      (fun j _ _ => handleSendMessage_send fun j' sends => absurd sends (idle j'))
      (fun j => quiet _ (handleDeleteMessage_all j)) (fun j => quiet _ (handleEditMessage_all j))
      handleFetchHistory_send
      (fun _ _ _ _ _ _ _ => handleProtoSendMessage_send idle _ _) s

end Contract

/-! ## Runs -/

theorem recorded_init (s : Server) (hs : (gateway S r).init s) : s.Recorded := by
  obtain ⟨clock, rfl⟩ := hs
  exact Server.recorded_empty clock

def sendProtocol (S : Platform) (r : Router) (ok) : Pool.Protocol (gateway S r) ok where
  contract := sendContract S
  inv := Server.Recorded
  rely := (sendContract S ⟨⟨"", .json⟩, []⟩).rely
  contract_inv _ := rfl
  contract_rely _ := rfl
  admitted _ _ _ _ _ _ _ _ := trivial
  init := recorded_init
  exec t s op c res s' inv req _ hr := @send_exec S t s s' op c res inv req hr
  env p e s' _ inv he := by
    refine ⟨inv.change he, fun id m issued => ?_, fun m hm => ?_⟩
    · rwa [Server.Issued, Server.change_issued he]
    · rwa [Server.change_db he]
  body p t _ _ := handle_send t p.shared

section Log
variable {S : Platform} {r : Router} {ok : Pool (gateway S r) → PoolLabel (gateway S r) → Prop}
  {p : Pool (gateway S r)} (hp : (Pool.machine (gateway S r)).Reach ok p)
include hp

/-- What an operation was allowed for still holds. -/
theorem log_send : ∀ x ∈ p.log, (sendContract S x.1).req p.shared x.2 := by
  have keep (t : Inbound) (op : Op) (s s' : Server) (req : (sendContract S t).req s op)
      (rely : (sendContract S t).rely s s') : (sendContract S t).req s' op := by
    have told (h : op.Told S t s) : op.Told S t s' := by
      intro f pushed j sends
      obtain ⟨frame, m, read, issued, tells⟩ := h f pushed j sends
      exact ⟨frame, m, read, rely.1 _ _ issued, tells⟩
    cases op with
    | insertRow => exact ⟨rely.1 _ _ req.1, req.2⟩
    | sendToUser u frame =>
      cases frame with
      | history =>
        intro dto mem
        obtain ⟨m, held, shows⟩ := req dto mem
        exact ⟨m, rely.2 _ held, shows⟩
      | _ => exact told req
    | _ => exact told req
  exact Pool.safe_log (sendProtocol S r ok) (fun t op s => (sendContract S t).req s op)
    (fun t s op c res s' inv req _ hr => keep t op s s' req (send_exec inv req hr).2) keep hp

theorem push_told {t : Inbound} {op : Op} (issued : (t, op) ∈ p.log) :
    op.Told S t p.shared := by
  have req := log_send hp _ issued
  cases op with
  | insertRow => exact nofun
  | sendToUser u frame =>
    cases frame with
    | history => exact nofun
    | _ => exact req
  | _ => exact req

/-- An entry of a history response shows a row of the ledger, which has its id. -/
theorem history_shows {t : Inbound} {u ch : String} {messages : List HistoryMessageDTO}
    {dto : HistoryMessageDTO} (answered : (t, .sendToUser u (.history ch messages)) ∈ p.log)
    (mem : dto ∈ messages) : ∃ m, p.shared.db.Holds m ∧ dto.Shows m ∧
      p.shared.Issued m.messageID.text m := by
  obtain ⟨m, held, shows⟩ := log_send hp _ answered dto mem
  exact ⟨m, held, shows, (Pool.safe (sendProtocol S r ok) hp).1.holds held⟩

/-- The row of a send has the bytes of its text. -/
theorem row_decodes {t : Inbound} {j : Json} {row : StoredMessage} (sends : t.Sends S j)
    (inserted : (t, .insertRow row) ∈ p.log) : p.shared.Issued row.messageID.text row ∧
      ∃ frame, InboundFrame.unmarshal j = some frame ∧
        Base64.decodeString frame.ciphertextB64 = (row.encryptedPayload, true) := by
  obtain ⟨issued, decodes⟩ := log_send hp _ inserted
  exact ⟨issued, decodes j sends⟩

end Log
end GenChat.Gateway
