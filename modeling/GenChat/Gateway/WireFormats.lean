import GenChat.Gateway.Rejection

/-!
# The two wire formats

A logical action may arrive as a JSON frame or as a protobuf packet. `Outcome` is what its handling
comes to: under which conversations it files something in the ledger, whom its frames go to, and
whether the sender is turned away from a channel. The protobuf handlers take the conversation id
for the key and for the recipient as it stands, ask neither for members nor for blocks, and keep no
receipts, so the two formats agree only where none of this matters.
-/
namespace GenChat.Gateway
open Library Ledger Router

/-! ## Outcomes -/

inductive Recipient where
  | user (userID : String)
  | allBut (userID : String)

/-- Frames that carry a message, a typing indicator or a receipt. -/
def Frame.carries : Frame → Bool
  | .push _ | .typing _ _ _ | .receipt _ _ _ _ _ _ => true
  | .protoMessageDelivered _ _ _ _ | .protoTyping _ _ _ _ | .protoReceipt _ _ _ _ _ _ _ => true
  | _ => false

def Op.recipient : Op → Option Recipient
  | .sendToUser v frame => if frame.carries then some (.user v) else none
  | .broadcastAll u frame => if frame.carries then some (.allBut u) else none
  | _ => none

/-- The conversation under which the operation writes to the ledger. -/
def Op.filesUnder : Op → Option String
  | .recordAuthor k _ _ | .insertDedup k _ _ _ _ => some k
  | op => op.writesTo

/-- The sender learns that the channel is not one for it. -/
def Op.turnsAway : Op → Prop
  | .sendToUser _ (.error code _) => code = "FORBIDDEN" ∨ code = "CHANNEL_NOT_FOUND"
  | _ => False

@[ext]
structure Outcome where
  filed : Set String
  delivered : Set Recipient
  turnedAway : Prop

def outcome (trace : List (Op × Choice)) : Outcome where
  filed := {k | ∃ x ∈ trace, x.1.filesUnder = some k}
  delivered := {v | ∃ x ∈ trace, x.1.recipient = some v}
  turnedAway := ∃ x ∈ trace, x.1.turnsAway

/-- Nothing is filed, nobody gets anything, nobody is turned away. -/
def Outcome.nothing : Outcome := ⟨∅, ∅, False⟩

/-- `v` gets the action, and that is all. -/
def Outcome.only (v : String) : Outcome := ⟨∅, {.user v}, False⟩

section Agreement
variable (S : Platform) (blocked : String → String → Bool) (s : Server)

/-- The block checker answers as `blocked` says. -/
def Op.Follows : Op → Choice → Prop
  | .isBlocked u v, c => c = .answer (blocked u v)
  | _, _ => True

/-- Some run of the program comes to this outcome. -/
def Attains (p : Handled) (o : Outcome) : Prop := ∃ trace res t,
  Executes (system S) p s trace res t ∧ (∀ x ∈ trace, x.1.Follows blocked x.2) ∧ outcome trace = o

def Agree (p q : Handled) : Prop := ∀ o, Attains S blocked s p o ↔ Attains S blocked s q o

end Agreement

/-! ## Corresponding actions -/

def ReceiptType.name : ReceiptType → Option String
  | .delivered => some "delivered"
  | .read => some "read"
  | _ => none

/-- A JSON frame with its action, and the protobuf action that says the same. -/
inductive Corresponds : String → Json → ClientActionBody → Prop where
  | send {data : Json} {frame : InboundFrame} {act : SendMessageAction} :
    InboundFrame.unmarshal data = some frame → frame.channelID = act.conversationId →
    frame.clientMsgID = act.clientMsgId →
    frame.ciphertextB64 = Base64.encodeToString act.encryptedPayload →
    frame.replyToMessageID = act.replyToMessageId →
    Corresponds "send_message" data (.sendMessage act)
  | typing {data : Json} {frame : TypingFrame} {act : TypingIndicatorAction} :
    TypingFrame.unmarshal data = some frame → frame.channelID = act.conversationId →
    frame.isTyping = act.isTyping → Corresponds "typing" data (.typingIndicator act)
  | receipt {action : String} {data : Json} {frame : ReadReceiptFrame} {act : AckReceiptAction} :
    action = "read_receipt" ∨ action = "ack_receipt" →
    ReadReceiptFrame.unmarshal data = some frame → frame.channelID = act.conversationId →
    orElse frame.serverID frame.messageID = act.messageId →
    act.type.name = some (ReadReceiptFrame.type frame) →
    Corresponds action data (.ackReceipt act)

section Compatible
variable (S : Platform) (r : Router) (blocked : String → String → Bool) (s : Server) (conn : Conn)

/-- The ledger has a live dedup record for the message under the key `k`. -/
def SendMessageAction.Known (act : SendMessageAction) (k : String) : Prop :=
  s.db.selectDedup s.clock k act.clientMsgId ≠ none

/-- Where the two formats agree: on sends that neither stores, on typing indicators for a peer that
has not blocked the sender, and on receipts for a peer that are not kept. -/
def Compatible : ClientActionBody → Prop
  | .sendMessage act => act.conversationId = "" ∨ act.clientMsgId = "" ∨
    act.encryptedPayload = [] ∨ r.ledger = true ∧ act.Known s act.conversationId ∧
      act.Known s (getConversationID conn.userID act.conversationId)
  | .typingIndicator act => act.conversationId ≠ "" ∧
    hasPrefix act.conversationId "chan_" = false ∧ (act.conversationId = conn.userID ∨
      r.blockChecker = false ∨ blocked act.conversationId conn.userID = false)
  | .ackReceipt act => act.conversationId ≠ "" ∧ hasPrefix act.conversationId "chan_" = false ∧
    (r.ledger = false ∨ act.messageId = "" ∨ S.parseUUID act.messageId = none)
  | .other => True

end Compatible

section Formats
variable {S : Platform} {r : Router} {blocked : String → String → Bool} {s t : Server}
  {conn : Conn} {p q : Handled} {o o' : Outcome} {trace first later : List (Op × Choice)}

/-! ## Comparing programs -/

/-- The operation leaves no mark on the outcome. -/
structure Op.Mute (op : Op) : Prop where
  files : op.filesUnder = none
  delivers : op.recipient = none
  admits : ¬ op.turnsAway

theorem outcome_append (mute : ∀ x ∈ first, x.1.Mute) :
    outcome (first ++ later) = outcome later := by
  ext
  · simp only [outcome, Set.mem_ofPred_eq, List.mem_append, or_and_right, exists_or]
    exact or_iff_right fun ⟨x, hx, files⟩ => nomatch (mute x hx).files.symm.trans files
  · simp only [outcome, Set.mem_ofPred_eq, List.mem_append, or_and_right, exists_or]
    exact or_iff_right fun ⟨x, hx, delivers⟩ => nomatch (mute x hx).delivers.symm.trans delivers
  · simp only [outcome, List.mem_append, or_and_right, exists_or]
    exact or_iff_right fun ⟨x, hx, away⟩ => (mute x hx).admits away

@[simp] theorem outcome_nil : outcome [] = .nothing := by
  ext <;> simp [outcome, Outcome.nothing]

theorem outcome_mute (mute : ∀ x ∈ trace, x.1.Mute) : outcome trace = .nothing := by
  rw [← List.append_nil trace, outcome_append mute, outcome_nil]

variable (S blocked) in
/-- Whatever the block checker says, the program has a run to its end. -/
theorem exists_following {α : Type} (p : Proc α) (s : Server) : ∃ trace res t,
    Executes (system S) p s trace res t ∧ ∀ x ∈ trace, x.1.Follows blocked x.2 := by
  refine Executes.exists_calm (S := system S) (fun s op => ?_) p s
  cases op with
  | isBlocked u v => exact ⟨.answer (blocked u v), blocked u v, s, rfl, rfl⟩
  | _ =>
    obtain ⟨c, r, s', hr⟩ := system_live S s _
    exact ⟨c, r, s', trivial, hr⟩

/-- A program all of whose runs come to the same outcome. -/
theorem attains_iff (all : ∀ trace res t, Executes (system S) p s trace res t →
    (∀ x ∈ trace, x.1.Follows blocked x.2) → outcome trace = o) :
    Attains S blocked s p o' ↔ o' = o := by
  constructor
  · rintro ⟨trace, res, t, run, follows, rfl⟩
    exact all trace res t run follows
  · rintro rfl
    obtain ⟨trace, res, t, run, follows⟩ := exists_following S blocked p s
    exact ⟨trace, res, t, run, follows, all trace res t run follows⟩

theorem agree_of_attains (hp : ∀ o', Attains S blocked s p o' ↔ o' = o)
    (hq : ∀ o', Attains S blocked s q o' ↔ o' = o) : Agree S blocked s p q :=
  fun o' => (hp o').trans (hq o').symm

/-- Programs that a property of outcomes tells apart. -/
theorem not_agree {Q : Outcome → Prop} (some : ∃ o, Attains S blocked s p o ∧ Q o)
    (none : ∀ o, Attains S blocked s q o → ¬ Q o) : ¬ Agree S blocked s p q := by
  intro agree
  obtain ⟨o, attains, holds⟩ := some
  exact none o ((agree o).mp attains) holds

theorem Agree.symm (h : Agree S blocked s p q) : Agree S blocked s q p := fun o => (h o).symm

theorem attains_mute (mute : p.All Op.Mute) : Attains S blocked s p o' ↔ o' = .nothing :=
  attains_iff fun _ _ _ run _ => outcome_mute (run.all mute)

/-- A program that finds its message stored before comes to nothing. -/
theorem attains_known (msg : Message) {record : DedupRecord}
    (known : s.db.selectDedup s.clock msg.conversationID msg.clientMsgID = some record)
    (all : p.AllIf (Op.Finds msg) (fun op => op.Mute ∧ op.silent) fun _ => True) :
    Attains S blocked s p o' ↔ o' = .nothing := by
  refine attains_iff fun trace res t run _ => ?_
  have step (v : Server) (op : Op) (c : Choice) (answer : Ret op) (w : Server) (same : v = s)
      (quiet : op.Mute ∧ op.silent) (_ : True) (hr : (system S).exec v op c = some (answer, w)) :
      op.Finds msg answer ∧ w = s := by
    subst same
    exact ⟨finds known hr, @Server.exec_silent S v w op c answer quiet.2 hr⟩
  exact outcome_mute fun x hx =>
    ((run.allIf (P := fun v => v = s) all rfl (fun _ _ => trivial) step).1 x hx).1

/-! ## Sends -/

section Send
variable {data : Json} {frame : InboundFrame} {act : SendMessageAction} {reqID traceID : String}
  (read : InboundFrame.unmarshal data = some frame) (hch : frame.channelID = act.conversationId)
  (hc : frame.clientMsgID = act.clientMsgId)
  (hp : frame.ciphertextB64 = Base64.encodeToString act.encryptedPayload)

/-- All the fields are there. -/
structure SendMessageAction.Complete (act : SendMessageAction) : Prop where
  conversationId : act.conversationId ≠ ""
  clientMsgId : act.clientMsgId ≠ ""
  encryptedPayload : act.encryptedPayload ≠ []

theorem SendMessageAction.Complete.given (complete : act.Complete) :
    ¬ (act.conversationId = "" ∨ act.clientMsgId = "" ∨ act.encryptedPayload = []) := by
  simp [complete.conversationId, complete.clientMsgId, complete.encryptedPayload]

theorem sendError_mute {code msg : String}
    (other : code ≠ "FORBIDDEN" ∧ code ≠ "CHANNEL_NOT_FOUND") :
    (sendError conn code msg).All Op.Mute :=
  ⟨⟨rfl, rfl, not_or.mpr other⟩, fun _ => trivial⟩

theorem sendProtoError_mute {code msg : String} : (sendProtoError reqID code msg).All Op.Mute :=
  ⟨⟨rfl, rfl, id⟩, fun _ => ⟨⟨rfl, rfl, id⟩, fun _ => trivial⟩⟩

include read hch hc hp

theorem handleSendMessage_complete (complete : act.Complete) : r.handleSendMessage S conn data =
    if r.ledger = false then
      sendError conn "PERSISTENCE_UNAVAILABLE" "message store is not reachable"
    else r.storeAndAcknowledge S conn frame act.encryptedPayload := by
  have payload : Base64.encodeToString act.encryptedPayload ≠ "" :=
    mt Base64.encodeToString_eq_empty.mp complete.encryptedPayload
  simp [handleSendMessage, read, hch, hc, complete.conversationId, complete.clientMsgId, payload,
    hp, Base64.decodeString_encodeToString]

theorem agree_of_incomplete (incomplete : ¬ act.Complete) : Agree S blocked s
    (r.handleSendMessage S conn data) (r.handleProtoSendMessage S conn reqID traceID act) := by
  have missing : act.conversationId = "" ∨ act.clientMsgId = "" ∨ act.encryptedPayload = [] := by
    by_contra given
    exact incomplete ⟨fun h => given (.inl h), fun h => given (.inr (.inl h)),
      fun h => given (.inr (.inr h))⟩
  have json : (r.handleSendMessage S conn data).All Op.Mute := by
    rw [handleSendMessage, read]
    dsimp only
    rw [hch, hc, hp, if_pos (missing.imp_right (.imp_right Base64.encodeToString_eq_empty.mpr))]
    exact sendError_mute (by decide)
  have proto : (r.handleProtoSendMessage S conn reqID traceID act).All Op.Mute := by
    rw [handleProtoSendMessage, if_pos missing]
    exact sendProtoError_mute
  exact agree_of_attains (fun _ => attains_mute json) fun _ => attains_mute proto

omit read hch hc hp in
/-- What a lookup of the message does not leave. -/
theorem storeMessage_looks (req : StoreMessageRequest) : (LedgerClient.storeMessage S req).AllIf
    (Op.Finds (LedgerHandler.message req)) (fun op => op.Mute ∧ op.silent) fun answer =>
      ∀ stored, answer = .ok stored → stored.deduplicated = true :=
  storeMessage_known req ⟨⟨rfl, rfl, id⟩, trivial⟩ ⟨⟨rfl, rfl, id⟩, trivial⟩
    ⟨⟨rfl, rfl, id⟩, trivial⟩ ⟨⟨rfl, rfl, id⟩, trivial⟩

omit read hp in
theorem known_request (payload : Bytes) :
    act.Known s (getConversationID conn.userID act.conversationId) ↔
      s.db.selectDedup s.clock (storeRequest conn frame payload).conversationId
        (storeRequest conn frame payload).clientMsgId ≠ none := by
  rw [SendMessageAction.Known, ← hch, ← hc]
  rfl

theorem json_known (ledger : r.ledger = true) (complete : act.Complete)
    (known : act.Known s (getConversationID conn.userID act.conversationId)) :
    Attains S blocked s (r.handleSendMessage S conn data) o ↔ o = .nothing := by
  obtain ⟨record, known⟩ :=
    Option.ne_none_iff_exists'.mp ((known_request hch hc act.encryptedPayload).mp known)
  rw [handleSendMessage_complete read hch hc hp complete, if_neg (by simp [ledger])]
  refine attains_known (LedgerHandler.message (storeRequest conn frame act.encryptedPayload)) known
    ((storeMessage_looks _).bind fun answer known => ?_)
  cases answer with
  | error err =>
    refine ⟨⟨⟨rfl, rfl, not_or.mpr ⟨?_, ?_⟩⟩, trivial⟩, fun _ _ => trivial⟩ <;> decide
  | ok stored =>
    refine ⟨⟨⟨rfl, rfl, id⟩, trivial⟩, fun _ _ => ?_⟩
    dsimp only [Prog.pure_bind]
    rw [if_pos (known stored rfl)]
    trivial

omit read hch hc hp in
theorem proto_known (ledger : r.ledger = true) (complete : act.Complete)
    (known : act.Known s act.conversationId) : Attains S blocked s
      (r.handleProtoSendMessage S conn reqID traceID act) o ↔ o = .nothing := by
  obtain ⟨record, known⟩ := Option.ne_none_iff_exists'.mp known
  rw [handleProtoSendMessage, if_neg complete.given, if_pos ledger]
  refine attains_known (LedgerHandler.message (protoStoreRequest conn act)) known
    ((storeMessage_looks _).bind fun answer known => ?_)
  cases answer with
  | error err =>
    exact ⟨⟨⟨rfl, rfl, id⟩, trivial⟩, fun _ _ => ⟨⟨⟨rfl, rfl, id⟩, trivial⟩, fun _ _ => trivial⟩⟩
  | ok stored =>
    refine ⟨⟨⟨rfl, rfl, id⟩, trivial⟩, fun _ _ => ⟨⟨⟨rfl, rfl, id⟩, trivial⟩, fun _ _ => ?_⟩⟩
    dsimp only [Prog.pure_bind]
    rw [if_pos (known stored rfl)]
    trivial

omit read hch hc hp in
/-- Whatever files an author under a new id files something. -/
theorem files_of_leaves {α : Type} {p : Proc α} {a : α} {k : String} {id : UUID}
    (run : Executes (system S) p s trace a t) (left : Leaves k id s t)
    (unrecorded : s.db.authors.lookup (k, id.text) = none) :
    ∃ x ∈ trace, x.1.filesUnder = some k := by
  obtain ⟨x, hx, u, r, v, before, after, hr⟩ := run.exists_step
    (P := fun u : Server => u.db.authors.lookup (k, id.text) ≠ none) (not_not_intro unrecorded)
    left.author
  refine ⟨x, hx, ?_⟩
  rcases Server.exec_db hr with same | applied
  · exact absurd (same ▸ after) before
  · rw [applied] at after
    generalize x.1 = op at after
    cases op with
    | recordAuthor k' mid u =>
      obtain ⟨author, found⟩ := Option.ne_none_iff_exists'.mp after
      rcases lookup_insert_cases found with old | ⟨same, -⟩
      · exact absurd (old ▸ nofun) before
      · cases same
        rfl
    | _ => exact absurd after before

omit read hch hc hp in
/-- The operations of storing a message do not ask about blocks. -/
theorem follows_of_stores {req : StoreMessageRequest} {op : Op} {c : Choice}
    (h : Stores (S := S) req op) : op.Follows blocked c := by
  cases op <;> trivial

/-- What `handleSendMessage` does with the ledger's answer. -/
def Router.answerStored (r : Router) (conn : Conn) (frame : InboundFrame) :
    Except Status StoreMessageResult → Handled
  | .error _ => sendError conn "PERSISTENCE_FAILED" "message could not be stored"
  | .ok stored => r.acknowledge conn frame stored

/-- A new message is filed under the conversation that the JSON handler derives. -/
theorem json_files (complete : act.Complete) (ledger : r.ledger = true)
    (new : ¬ act.Known s (getConversationID conn.userID act.conversationId)) :
    ∃ o, Attains S blocked s (r.handleSendMessage S conn data) o ∧
      getConversationID conn.userID act.conversationId ∈ o.filed := by
  let req := storeRequest conn frame act.encryptedPayload
  obtain ⟨id, fresh, unrecorded⟩ := exists_unrecorded s req.conversationId
  obtain ⟨first, answer, t, run, -, left, -⟩ := (can_storeMessage (S := S) req (.inl rfl)
    (not_not.mp (mt (known_request hch hc _).mpr new)) fresh).executes
  obtain ⟨later, res, u, rest, follows⟩ :=
    exists_following S blocked (r.answerStored conn frame answer) t
  refine ⟨outcome (first ++ later), ⟨_, res, u, ?_, ?_, rfl⟩, ?_⟩
  · rw [handleSendMessage_complete read hch hc hp complete, if_neg (by simp [ledger])]
    exact executes_bind.mpr ⟨first, answer, t, later, run, rest, rfl⟩
  · intro x hx
    rcases List.mem_append.mp hx with early | late
    · exact follows_of_stores (run.all (storeMessage_all _) x early)
    · exact follows x late
  · obtain ⟨x, hx, files⟩ := files_of_leaves run left unrecorded
    exact ⟨x, List.mem_append_left _ hx, by rw [files, ← hch]; rfl⟩

section Proto
omit read hch hc hp

variable (S blocked s conn reqID traceID act) in
theorem protoAcknowledge_delivers {stored : StoreMessageResult}
    (new : stored.deduplicated = false) : ∃ later res t, Executes (system S)
      (protoAcknowledge conn reqID traceID act stored) s later res t ∧
      (∀ x ∈ later, x.1.Follows blocked x.2) ∧
      ∃ x ∈ later, x.1.recipient = some (.user act.conversationId) := by
  have may : May (system S) (fun op => op.recipient = some (.user act.conversationId))
      (protoAcknowledge conn reqID traceID act stored) s := by
    simp [protoAcknowledge, new, Op.recipient, Frame.carries]
  have free : (protoAcknowledge conn reqID traceID act stored).All
      fun op => ∀ c, op.Follows blocked c := by
    simp [protoAcknowledge, new, Op.Follows]
  obtain ⟨later, res, t, run, delivers⟩ := may.executes (system_live S)
  exact ⟨later, res, t, run, fun x hx => run.all free x hx x.2, delivers⟩

/-- A message that was not stored before goes to the user whom the conversation id names. -/
theorem proto_delivers (complete : act.Complete)
    (new : r.ledger = true → ¬ act.Known s act.conversationId) :
    ∃ o, Attains S blocked s (r.handleProtoSendMessage S conn reqID traceID act) o ∧
      .user act.conversationId ∈ o.delivered := by
  rw [handleProtoSendMessage, if_neg complete.given]
  by_cases ledger : r.ledger = true
  · rw [if_pos ledger]
    let req := protoStoreRequest conn act
    have fits : StoreMessageRequest.Fits req := ⟨Nat.one_lt_two_pow (by decide), rfl⟩
    obtain ⟨id, fresh, -⟩ := exists_unrecorded s req.conversationId
    obtain ⟨first, answer, t, run, -, left, stores⟩ := (can_storeMessage (S := S) req (.inl rfl)
      (not_not.mp (new ledger)) fresh).executes
    rw [if_pos ⟨rfl, fits⟩] at stores
    obtain ⟨stored, rfl, hs⟩ := stores
    obtain ⟨later, res, u, rest, follows, x, hx, delivers⟩ :=
      protoAcknowledge_delivers S blocked t conn act reqID traceID hs
    refine ⟨outcome (first ++ later), ⟨_, res, u, ?_, ?_, rfl⟩, x, List.mem_append_right _ hx,
      delivers⟩
    · exact executes_bind.mpr ⟨first, _, t, later, run, rest, rfl⟩
    · intro x hx
      rcases List.mem_append.mp hx with early | late
      · exact follows_of_stores (run.all (storeMessage_all _) x early)
      · exact follows x late
  · rw [if_neg ledger]
    let stored : StoreMessageResult := ⟨"mem-" ++ act.clientMsgId, s.clock, false⟩
    obtain ⟨later, res, t, rest, follows, x, hx, delivers⟩ :=
      protoAcknowledge_delivers S blocked s conn act reqID traceID (rfl : stored.deduplicated = _)
    have run : Executes (system S) (.call .now fun time => protoAcknowledge conn reqID traceID act
        ⟨"mem-" ++ act.clientMsgId, time, false⟩) s ((.now, .ok) :: later) res t := .call rfl rest
    exact ⟨outcome ((.now, .ok) :: later), ⟨_, res, t, run,
      List.forall_mem_cons.mpr ⟨trivial, follows⟩, rfl⟩, x, List.mem_cons_of_mem _ hx, delivers⟩

theorem proto_bounds (h : Attains S blocked s
      (r.handleProtoSendMessage S conn reqID traceID act) o) : o.filed ⊆ {act.conversationId} ∧
    o.delivered ⊆ {.user act.conversationId} ∧ ¬ o.turnedAway := by
  let Bound (op : Op) : Prop := (∀ k, op.filesUnder = some k → k = act.conversationId) ∧
    (∀ v, op.recipient = some v → v = .user act.conversationId) ∧ ¬ op.turnsAway
  have mute {op : Op} (h : op.Mute) : Bound op := by
    refine ⟨fun k files => ?_, fun v delivers => ?_, h.admits⟩
    · exact nomatch h.files.symm.trans files
    · exact nomatch h.delivers.symm.trans delivers
  have push (stored : StoreMessageResult) :
      (protoAcknowledge conn reqID traceID act stored).All Bound := by
    refine ⟨mute ⟨rfl, rfl, id⟩, fun _ => ⟨mute ⟨rfl, rfl, id⟩, fun _ => ?_⟩⟩
    dsimp only [Prog.pure_bind]
    split
    · trivial
    · refine ⟨mute ⟨rfl, rfl, id⟩, fun _ => ⟨⟨nofun, fun v h => ?_, id⟩, fun _ => trivial⟩⟩
      exact (Option.some.inj h).symm
  have all : (r.handleProtoSendMessage S conn reqID traceID act).All Bound := by
    refine handleProtoSendMessage_cases (P := fun p => p.All Bound) reqID traceID act
      (fun code msg => sendProtoError_mute.mono fun _ => mute) (fun _ _ _ _ => ?_)
      fun _ _ _ _ => ⟨mute ⟨rfl, rfl, id⟩, fun _ => push _⟩
    refine ((storeMessage_all _).mono fun op h => ?_).bind fun answer => ?_
    · cases op <;> first | exact mute ⟨rfl, rfl, id⟩ | exact h.elim | skip
      case recordAuthor =>
        refine ⟨fun k files => ?_, nofun, id⟩
        exact (Option.some.inj files).symm.trans h.1
      case insertRow =>
        obtain ⟨seq, now, id, rfl⟩ := h
        exact ⟨fun k files => (Option.some.inj files).symm, nofun, fun h => h⟩
      case insertDedup =>
        refine ⟨fun k files => ?_, nofun, id⟩
        exact (Option.some.inj files).symm.trans h.1
    · cases answer with
      | error err => exact sendProtoError_mute.mono fun _ => mute
      | ok stored => exact push stored
  obtain ⟨trace, res, t, run, -, rfl⟩ := h
  have bound := run.all all
  refine ⟨?_, ?_, ?_⟩
  · rintro k ⟨x, hx, files⟩
    exact (bound x hx).1 k files
  · rintro v ⟨x, hx, delivers⟩
    exact (bound x hx).2.1 v delivers
  · rintro ⟨x, hx, away⟩
    exact (bound x hx).2.2 away

end Proto

section Channel
variable {n : Int} {push : Frame}

omit read hch hc hp in
/-- Nobody asks for blocks in a channel. -/
theorem pushToChannel_free :
    (r.pushToChannel conn frame.channelID n push).All fun op => ∀ c, op.Follows blocked c := by
  have loop (memberIDs : List String) : (pushToMembers r conn frame.channelID n push memberIDs).All
      fun op => ∀ c, op.Follows blocked c := by
    induction memberIDs with
    | nil => trivial
    | cons uid rest ih =>
      have online : ∀ c, (Op.isUserOnlineCluster uid).Follows blocked c := fun _ => trivial
      have send : ∀ c, (Op.sendToUser uid push).Follows blocked c := fun _ => trivial
      have notify : ∀ c, (Op.notifyOffline uid frame.channelID (uint64 n)).Follows blocked c :=
        fun _ => trivial
      simp [pushToMembers, Prog.all_ite, ih, online, send, notify]
  have found (memberIDs : List String) : (pushToFound r conn frame n push memberIDs).All
      fun op => ∀ c, op.Follows blocked c := by
    unfold pushToFound
    split
    · split
      · exact ⟨fun _ => trivial, fun _ => trivial⟩
      · exact (loop _).bind fun _ => trivial
    · split <;> exact ⟨fun _ => trivial, fun _ => trivial⟩
  rw [pushToChannel_eq]
  split
  · exact ⟨fun _ => trivial, fun answer => by cases answer <;> exact found _⟩
  · exact found _

omit read hch hc hp in
/-- Where the member lookup finds nobody, the sender is turned away, or everybody gets it. -/
theorem pushToChannel_may (push : PushFrame) : May (system S)
    (fun op => op.turnsAway ∨ op.recipient = some (.allBut conn.userID))
    (r.pushToChannel conn frame.channelID n (.push push)) s := by
  have nobody : May (system S)
      (fun op => op.turnsAway ∨ op.recipient = some (.allBut conn.userID))
      (pushToFound r conn frame n (.push push) []) s := by
    unfold pushToFound
    rw [if_neg (not_not_intro rfl)]
    split
    · exact .inl (.inr rfl)
    · exact .inl (.inl (.inr rfl))
  rw [pushToChannel_eq]
  split
  · rw [may_op]
    exact .inr ⟨.error .failed, s, answers_getChannelMembers.mpr ⟨rfl, .inl rfl⟩, nobody⟩
  · exact nobody

/-- A new message to a channel may be turned away, or go to everybody. -/
theorem json_asks (complete : act.Complete) (ledger : r.ledger = true)
    (chan : hasPrefix act.conversationId "chan_" = true)
    (fits : StoreMessageRequest.Fits (storeRequest conn frame act.encryptedPayload))
    (new : ¬ act.Known s (getConversationID conn.userID act.conversationId)) :
    ∃ o, Attains S blocked s (r.handleSendMessage S conn data) o ∧
      (o.turnedAway ∨ .allBut conn.userID ∈ o.delivered) := by
  let req := storeRequest conn frame act.encryptedPayload
  obtain ⟨id, fresh, -⟩ := exists_unrecorded s req.conversationId
  obtain ⟨first, answer, t, run, -, -, stores⟩ := (can_storeMessage (S := S) req (.inl rfl)
    (not_not.mp (mt (known_request hch hc _).mpr new)) fresh).executes
  rw [if_pos ⟨rfl, fits⟩] at stores
  obtain ⟨stored, rfl, hs⟩ := stores
  rw [← hch] at chan
  have free : (r.acknowledge conn frame stored).All fun op => ∀ c, op.Follows blocked c := by
    refine ⟨fun _ => trivial, fun _ => ?_⟩
    dsimp only [Prog.pure_bind]
    rw [if_neg (by simp [hs])]
    refine ⟨fun _ => trivial, fun time => ?_⟩
    dsimp only [Prog.pure_bind]
    rw [if_pos chan]
    exact pushToChannel_free
  have may : May (system S) (fun op => op.turnsAway ∨ op.recipient = some (.allBut conn.userID))
      (r.acknowledge conn frame stored) t := by
    simp [acknowledge, hs, chan, pushToChannel_may]
  obtain ⟨later, res, u, rest, x, hx, asks⟩ := may.executes (system_live S)
  refine ⟨outcome (first ++ later), ⟨_, res, u, ?_, ?_, rfl⟩, ?_⟩
  · rw [handleSendMessage_complete read hch hc hp complete, if_neg (by simp [ledger])]
    exact executes_bind.mpr ⟨first, _, t, later, run, rest, rfl⟩
  · intro x hx
    rcases List.mem_append.mp hx with early | late
    · exact follows_of_stores (run.all (storeMessage_all _) x early)
    · exact rest.all free x late x.2
  · exact asks.imp (fun away => ⟨x, List.mem_append_right _ hx, away⟩)
      fun all => ⟨x, List.mem_append_right _ hx, all⟩

/-- A row that is stored was accepted. -/
def OnlyAccepts : (op : Op) → Ret op → Prop
  | .insertRow row, stored => stored = .ok () → Server.acceptsRow row = true
  | _, _ => True

/-- A message whose row does not fit goes to nobody. -/
theorem json_undelivered (complete : act.Complete) (ledger : r.ledger = true)
    (lost : ¬ StoreMessageRequest.Fits (storeRequest conn frame act.encryptedPayload))
    (h : Attains S blocked s (r.handleSendMessage S conn data) o) : o.delivered = ∅ := by
  have stores {op : Op} (h : Stores (S := S) (storeRequest conn frame act.encryptedPayload) op) :
      op.recipient = none := by
    cases op <;> first | rfl | exact h.elim
  have inserted (row : StoredMessage)
      (hrow : Stores (S := S) (storeRequest conn frame act.encryptedPayload) (.insertRow row))
      (fits : OnlyAccepts (.insertRow row) (.ok ())) :
      ¬ ¬ StoreMessageRequest.Fits (storeRequest conn frame act.encryptedPayload) := by
    obtain ⟨seq, now, id, rfl⟩ := hrow
    exact not_not_intro (acceptsRow_draft.mp (fits rfl))
  have all : (r.storeAndAcknowledge S conn frame act.encryptedPayload).AllIf OnlyAccepts
      (fun op => op.recipient = none) fun _ => True := by
    refine (storeMessage_allIf (φ := fun op => op.recipient = none) rfl rfl rfl rfl
      (fun _ => not_false) (fun _ => not_false) inserted fun _ _ => stores).bind
        fun answer known => ?_
    cases answer with
    | error err => exact ⟨rfl, fun _ _ => trivial⟩
    | ok stored =>
      refine ⟨rfl, fun _ _ => ?_⟩
      dsimp only [Prog.pure_bind]
      rw [if_pos (known (.inr lost) stored rfl)]
      trivial
  obtain ⟨trace, res, t, run, -, rfl⟩ := h
  rw [handleSendMessage_complete read hch hc hp complete, if_neg (by simp [ledger])] at run
  have step (v : Server) (op : Op) (c : Choice) (answer : Ret op) (w : Server) (_ : True)
      (quiet : op.recipient = none) (_ : True)
      (hr : (system S).exec v op c = some (answer, w)) : OnlyAccepts op answer ∧ True := by
    refine ⟨?_, trivial⟩
    clear quiet
    cases op <;> try trivial
    case insertRow row =>
      rintro rfl
      by_contra refused
      rw [show (system S).exec v (.insertRow row) c = v.exec S (.insertRow row) c from rfl,
        Server.exec, if_neg refused] at hr
      cases hr
  have none := (run.allIf (P := fun _ => True) all trivial (fun _ _ => trivial) step).1
  refine Set.eq_empty_iff_forall_notMem.mpr fun v shown => ?_
  obtain ⟨x, hx, delivers⟩ := shown
  cases (none x hx).symm.trans delivers

end Channel

omit read hch hc hp in
theorem getConversationID_ne {u ch : String} (direct : hasPrefix ch "chan_" = false) :
    getConversationID u ch ≠ ch := by
  intro same
  obtain ⟨x, y, names, key⟩ := getConversationID_direct (u := u) direct
  rw [same] at key
  have length := congrArg List.length key
  rcases names with ⟨rfl, rfl⟩ | ⟨rfl, rfl⟩ <;> simp at length <;> omega

theorem agree_send : Agree S blocked s (r.handleSendMessage S conn data)
      (r.handleProtoSendMessage S conn reqID traceID act) ↔
    Compatible S r blocked s conn (.sendMessage act) := by
  constructor
  · intro agree
    by_contra apart
    obtain ⟨hk, hid, hpay, stored⟩ : act.conversationId ≠ "" ∧ act.clientMsgId ≠ "" ∧
        act.encryptedPayload ≠ [] ∧ ¬ (r.ledger = true ∧ act.Known s act.conversationId ∧
          act.Known s (getConversationID conn.userID act.conversationId)) := by
      simpa [Compatible, not_or] using apart
    have complete : act.Complete := ⟨hk, hid, hpay⟩
    have undelivered (new : r.ledger = true → ¬ act.Known s act.conversationId)
        (none : ∀ o, Attains S blocked s (r.handleSendMessage S conn data) o → o.delivered = ∅) :
        False :=
      not_agree (Q := fun o => o.delivered.Nonempty)
        ((proto_delivers complete new).imp fun o h => ⟨h.1, _, h.2⟩)
        (fun o h some => some.ne_empty (none o h)) agree.symm
    by_cases ledger : r.ledger = true
    · by_cases json : act.Known s (getConversationID conn.userID act.conversationId)
      · refine undelivered (fun _ proto => stored ⟨ledger, proto, json⟩) fun o h => ?_
        rw [(json_known read hch hc hp ledger complete json).mp h]
        rfl
      · cases chan : hasPrefix act.conversationId "chan_" with
        | false =>
          refine not_agree (json_files read hch hc hp complete ledger json) (fun o h files => ?_)
            agree
          exact getConversationID_ne chan ((proto_bounds h).1 files)
        | true =>
          by_cases fits : StoreMessageRequest.Fits (storeRequest conn frame act.encryptedPayload)
          · refine not_agree (json_asks read hch hc hp complete ledger chan fits json)
              (fun o h asks => ?_) agree
            obtain ⟨-, delivered, admitted⟩ := proto_bounds h
            rcases asks with away | all
            · exact admitted away
            · exact nomatch delivered all
          · have same : getConversationID conn.userID act.conversationId = act.conversationId :=
              if_pos chan
            rw [same] at json
            exact undelivered (fun _ => json) fun o h =>
              json_undelivered read hch hc hp complete ledger fits h
    · refine undelivered (fun on => absurd on ledger) fun o h => ?_
      rw [handleSendMessage_complete read hch hc hp complete, if_pos (by simpa using ledger)] at h
      rw [(attains_mute (sendError_mute (by decide))).mp h]
      rfl
  · intro compatible
    by_cases complete : act.Complete
    · rcases compatible with missing | missing | missing | ⟨ledger, proto, json⟩
      · exact absurd missing complete.conversationId
      · exact absurd missing complete.clientMsgId
      · exact absurd missing complete.encryptedPayload
      · exact agree_of_attains (fun _ => json_known read hch hc hp ledger complete json)
          fun _ => proto_known ledger complete proto
    · exact agree_of_incomplete read hch hc hp complete

end Send

/-! ## Typing indicators and receipts -/

theorem outcome_send {v : String} {frame : Frame} {c : Choice} (carries : frame.carries = true) :
    outcome [(.sendToUser v frame, c)] = .only v := by
  have admits : ¬ (Op.sendToUser v frame).turnsAway := by
    cases frame <;> first | exact id | cases carries
  ext
  · simp [outcome, Outcome.only, Op.filesUnder, Op.writesTo]
  · simp [outcome, Outcome.only, Op.recipient, carries]
  · simp [outcome, Outcome.only, admits]

/-- A program that sends a frame to `v` and leaves no other mark. -/
theorem attains_only {α : Type} (pre : Proc α) {v : String} (frame : α → Frame)
    (mute : pre.All Op.Mute) (carries : ∀ a, (frame a).carries = true) :
    Attains S blocked s (pre.bind fun a => .call (.sendToUser v (frame a)) fun _ => .pure (.ok ()))
      o' ↔ o' = .only v := by
  refine attains_iff fun trace res t run _ => ?_
  obtain ⟨first, a, u, later, before, send, rfl⟩ := executes_bind.mp run
  obtain ⟨c, _, _, _, -, done, rfl⟩ := executes_call.mp send
  obtain ⟨rfl, -, -⟩ := executes_pure.mp done
  rw [outcome_append (before.all mute), outcome_send (carries a)]

/-- To a channel nothing goes by name as long as the lookup finds nobody. -/
theorem relayToOthers_unnamed {ch : String} {frame : Frame} : ∃ o, Attains S blocked s
    ((r.relayToOthers conn ch frame).bind fun _ => .pure (.ok ())) o ∧
      ∀ v, .user v ∉ o.delivered := by
  obtain ⟨first, quiet, lookup⟩ : ∃ first : List (Op × Choice), (∀ x ∈ first,
      x.1.recipient = none ∧ x.1.Follows blocked x.2) ∧
      Executes (system S) (r.lookupMembers ch) s first [] s := by
    unfold lookupMembers
    split
    · obtain ⟨c, hr⟩ := answers_getChannelMembers.mpr ⟨rfl, .inl rfl⟩
      exact ⟨[(.getChannelMembers _, c)], by simpa using ⟨rfl, trivial⟩, .call hr (.pure _ _)⟩
    · exact ⟨[], by simp, .pure _ _⟩
  obtain ⟨later, unnamed, rest⟩ : ∃ later : List (Op × Choice), (∀ x ∈ later,
      (∀ v, x.1.recipient ≠ some (.user v)) ∧ x.1.Follows blocked x.2) ∧
      Executes (system S) (if ch = "chan_public" then .call (.broadcastAll conn.userID frame) .pure
        else .pure ()) s later () s := by
    split
    · refine ⟨[(.broadcastAll conn.userID frame, .ok)], ?_, .call rfl (.pure _ _)⟩
      rw [List.forall_mem_singleton]
      refine ⟨fun v => ?_, trivial⟩
      dsimp only [Op.recipient]
      split <;> exact nofun
    · exact ⟨[], by simp, .pure _ _⟩
  have run : Executes (system S) (r.relayToOthers conn ch frame) s (first ++ later) () s := by
    exact executes_bind.mpr ⟨first, [], s, later, lookup, rest, rfl⟩
  refine ⟨_, ⟨_, _, s, executes_bind.mpr ⟨_, (), s, [], run, .pure _ _, rfl⟩, ?_, rfl⟩, ?_⟩
  · rw [List.append_nil]
    intro x hx
    exact (List.mem_append.mp hx).elim (fun h => (quiet x h).2) fun h => (unnamed x h).2
  · rintro v ⟨x, hx, delivers⟩
    rw [List.append_nil] at hx
    rcases List.mem_append.mp hx with early | late
    · exact nomatch (quiet x early).1.symm.trans delivers
    · exact (unnamed x late).1 v delivers

theorem nothing_ne_only {v : String} : Outcome.nothing ≠ .only v := fun same =>
  Set.notMem_empty (Recipient.user v)
    (Set.ext_iff.mp (congrArg Outcome.delivered same) (.user v) |>.mpr rfl)

/-- A program that comes to nothing, or whose frame need not reach `v`, does not agree with one that
always sends to `v`. -/
theorem not_agree_only {v : String} (hq : ∀ o, Attains S blocked s q o ↔ o = .only v)
    (other : ∃ o, Attains S blocked s p o ∧ .user v ∉ o.delivered) : ¬ Agree S blocked s p q :=
  not_agree other fun o h absent => absurd rfl (by rw [(hq o).mp h] at absent; exact absent)

theorem executes_isBlocked {α : Type} {u v : String} {k : Bool → Proc α} {a : α}
    (run : Executes (system S) (.call (.isBlocked v u) k) s trace a t)
    (follows : ∀ x ∈ trace, x.1.Follows blocked x.2) : ∃ later,
      Executes (system S) (k (blocked v u)) s later a t ∧
        trace = (.isBlocked v u, .answer (blocked v u)) :: later := by
  obtain ⟨c, answer, _, later, hr, rest, rfl⟩ := executes_call.mp run
  obtain ⟨rfl, rfl⟩ := Server.ask_eq_some.mp hr
  have said : Choice.answer answer = .answer (blocked v u) := follows _ List.mem_cons_self
  cases Choice.answer.inj said
  exact ⟨later, rest, rfl⟩

section Typing
variable {data : Json} {frame : TypingFrame} {act : TypingIndicatorAction}
  (read : TypingFrame.unmarshal data = some frame) (hch : frame.channelID = act.conversationId)
include read hch

theorem handleTyping_direct (given : act.conversationId ≠ "")
    (chan : hasPrefix act.conversationId "chan_" = false) : r.handleTyping conn data =
      let send : Handled := .call (.sendToUser act.conversationId
        (.typing act.conversationId conn.userID frame.isTyping)) fun _ => .pure (.ok ())
      if act.conversationId = conn.userID ∨ r.blockChecker = false then send
      else .call (.isBlocked act.conversationId conn.userID) fun answer =>
        if answer then .pure (.ok ()) else send := by
  rw [handleTyping, read]
  dsimp only
  rw [hch, if_neg given, if_neg (by simp [chan])]
  by_cases self : act.conversationId = conn.userID
  · simp [self]
  · cases checker : r.blockChecker <;> simp [self, blocks, checker]

theorem agree_typing : Agree S blocked s (r.handleTyping conn data) (handleProtoTyping conn act) ↔
    Compatible S r blocked s conn (.typingIndicator act) := by
  have proto (o : Outcome) : Attains S blocked s (handleProtoTyping conn act) o ↔
      o = .only act.conversationId :=
    attains_only now (fun time => .protoTyping time act.conversationId conn.userID act.isTyping)
      ⟨⟨rfl, rfl, id⟩, fun _ => trivial⟩ fun _ => rfl
  by_cases given : act.conversationId = ""
  · have idle : r.handleTyping conn data = .pure (.ok ()) := by
      rw [handleTyping, read]
      exact if_pos (hch.trans given)
    rw [idle]
    exact iff_of_false (not_agree_only proto ⟨.nothing, (attains_mute (p := .pure _) trivial).mpr
      rfl, id⟩) fun h => h.1 given
  · cases chan : hasPrefix act.conversationId "chan_" with
    | true =>
      refine iff_of_false (not_agree_only proto ?_) fun h => Bool.noConfusion (chan.symm.trans h.2.1)
      rw [handleTyping, read]
      dsimp only
      rw [hch, if_neg given, if_pos chan]
      exact relayToOthers_unnamed.imp fun o h => ⟨h.1, h.2 _⟩
    | false =>
      have passes : Compatible S r blocked s conn (.typingIndicator act) ↔
          act.conversationId = conn.userID ∨ r.blockChecker = false ∨
            blocked act.conversationId conn.userID = false :=
        ⟨fun h => h.2.2, fun h => ⟨given, chan, h⟩⟩
      rw [passes, handleTyping_direct read hch given chan]
      dsimp only
      by_cases unasked : act.conversationId = conn.userID ∨ r.blockChecker = false
      · rw [if_pos unasked]
        exact iff_of_true (agree_of_attains (fun o => attains_only (.pure ())
          (fun _ => .typing act.conversationId conn.userID frame.isTyping) trivial fun _ => rfl)
          proto) (or_assoc.mp (.inl unasked))
      · rw [if_neg unasked]
        cases answer : blocked act.conversationId conn.userID with
        | false =>
          refine iff_of_true (agree_of_attains (fun o => attains_iff fun trace res t run follows =>
            ?_) proto) (.inr (.inr rfl))
          obtain ⟨later, rest, rfl⟩ := executes_isBlocked run follows
          rw [answer, if_neg Bool.false_ne_true] at rest
          obtain ⟨c, _, _, _, -, done, rfl⟩ := executes_call.mp rest
          obtain ⟨rfl, -, -⟩ := executes_pure.mp done
          rw [← List.singleton_append, outcome_append (by simpa using ⟨rfl, rfl, id⟩),
            outcome_send rfl]
        | true =>
          refine iff_of_false (not_agree_only proto ⟨.nothing, (attains_iff fun trace res t run
            follows => ?_).mpr rfl, id⟩) (by simpa using unasked)
          obtain ⟨later, rest, rfl⟩ := executes_isBlocked run follows
          rw [answer, if_pos rfl] at rest
          obtain ⟨rfl, -, -⟩ := executes_pure.mp rest
          exact outcome_mute (by simpa using ⟨rfl, rfl, id⟩)

end Typing

section Receipt
variable {data : Json} {frame : ReadReceiptFrame} {act : AckReceiptAction}

/-- The receipt is written to the ledger, if there is one. -/
def keepReceipt (S : Platform) (r : Router) (conn : Conn) (frame : ReadReceiptFrame) :
    Proc (Except Status Unit) :=
  let msgID := orElse frame.serverID frame.messageID
  if r.ledger ∧ msgID ≠ "" then
    LedgerClient.updateReceipt S (getConversationID conn.userID frame.channelID) conn.userID
      (ReadReceiptFrame.type frame) msgID frame.sequenceNum
  else .pure (.ok ())

/-- What the receiver of a receipt gets. -/
def receiptPush (conn : Conn) (frame : ReadReceiptFrame) (time : Nat) : Frame :=
  .receipt frame.channelID conn.userID (orElse frame.serverID frame.messageID) frame.sequenceNum
    (ReadReceiptFrame.type frame) (unix time)

theorem handleReadReceipt_eq (read : ReadReceiptFrame.unmarshal data = some frame)
    (given : frame.channelID ≠ "") : r.handleReadReceipt S conn data =
      (keepReceipt S r conn frame).bind fun _ => .call .now fun time =>
        if hasPrefix frame.channelID "chan_" then
          (r.relayToOthers conn frame.channelID (receiptPush conn frame time)).bind
            fun _ => .pure (.ok ())
        else .call (.sendToUser frame.channelID (receiptPush conn frame time))
          fun _ => .pure (.ok ()) := by
  rw [handleReadReceipt, read]
  dsimp only
  rw [if_neg given, keepReceipt]
  split <;> rfl

/-- The receipt reaches the ledger. -/
def Kept (S : Platform) (r : Router) (frame : ReadReceiptFrame) : Prop :=
  r.ledger = true ∧ orElse frame.serverID frame.messageID ≠ "" ∧
    S.parseUUID (orElse frame.serverID frame.messageID) ≠ none

theorem keepReceipt_quiet : (keepReceipt S r conn frame).All fun op =>
    op.recipient = none ∧ ∀ c, op.Follows blocked c := by
  unfold keepReceipt
  dsimp only
  split
  · refine all_rpc ⟨rfl, fun _ => trivial⟩ ⟨rfl, fun _ => trivial⟩ ?_
    unfold LedgerHandler.updateReceipt
    split
    · trivial
    · split
      · exact ⟨⟨rfl, fun _ => trivial⟩, fun found => by cases found <;> trivial⟩
      · split
        · exact ⟨⟨rfl, fun _ => trivial⟩, fun found => by cases found <;> trivial⟩
        · trivial
  · trivial

theorem keepReceipt_mute (unkept : ¬ Kept S r frame) :
    (keepReceipt S r conn frame).All Op.Mute := by
  unfold keepReceipt
  dsimp only
  split
  · rename_i asked
    have unknown : S.parseUUID (orElse frame.serverID frame.messageID) = none :=
      not_not.mp fun known => unkept ⟨asked.1, asked.2, known⟩
    refine all_rpc ⟨rfl, rfl, id⟩ ⟨rfl, rfl, id⟩ ?_
    rw [LedgerHandler.updateReceipt, unknown]
    trivial
  · trivial

theorem keepReceipt_files (kept : Kept S r frame)
    (type : ReadReceiptFrame.type frame ∈ ["delivered", "read"]) :
    May (system S) (fun op => op.filesUnder ≠ none) (keepReceipt S r conn frame) s := by
  obtain ⟨ledger, given, known⟩ := kept
  obtain ⟨id, known⟩ := Option.ne_none_iff_exists'.mp known
  by_cases delivered : ReadReceiptFrame.type frame = "delivered"
  · simp [keepReceipt, ledger, given, LedgerClient.updateReceipt, rpc, LedgerHandler.updateReceipt,
      known, delivered, Op.filesUnder, Op.writesTo]
  · have read : ReadReceiptFrame.type frame = "read" := by simpa [delivered] using type
    simp [keepReceipt, ledger, given, LedgerClient.updateReceipt, rpc, LedgerHandler.updateReceipt,
      known, read, Op.filesUnder, Op.writesTo]

theorem agree_receipt (read : ReadReceiptFrame.unmarshal data = some frame)
    (hch : frame.channelID = act.conversationId)
    (hm : orElse frame.serverID frame.messageID = act.messageId)
    (ht : act.type.name = some (ReadReceiptFrame.type frame)) :
    Agree S blocked s (r.handleReadReceipt S conn data) (handleProtoReceipt conn act) ↔
      Compatible S r blocked s conn (.ackReceipt act) := by
  have proto (o : Outcome) : Attains S blocked s (handleProtoReceipt conn act) o ↔
      o = .only act.conversationId :=
    attains_only now (fun time => .protoReceipt time act.conversationId conn.userID act.type
      act.messageId act.upToSeq time) ⟨⟨rfl, rfl, id⟩, fun _ => trivial⟩ fun _ => rfl
  by_cases given : act.conversationId = ""
  · have idle : r.handleReadReceipt S conn data = .pure (.ok ()) := by
      rw [handleReadReceipt, read]
      exact if_pos (hch.trans given)
    rw [idle]
    exact iff_of_false (not_agree_only proto ⟨.nothing, (attains_mute (p := .pure _) trivial).mpr
      rfl, id⟩) fun h => h.1 given
  · rw [handleReadReceipt_eq read (by rwa [hch])]
    cases chan : hasPrefix act.conversationId "chan_" with
    | true =>
      simp only [hch, chan, if_true]
      refine iff_of_false (not_agree_only proto ?_) fun h => Bool.noConfusion (chan.symm.trans h.2.1)
      obtain ⟨first, res, t, keeps, follows⟩ :=
        exists_following S blocked (keepReceipt S r conn frame) s
      have quiet (x : Op × Choice) (hx : x ∈ first) :
          x.1.recipient = none ∧ ∀ c, x.1.Follows blocked c := keeps.all keepReceipt_quiet x hx
      obtain ⟨_, ⟨later, res', u, rest, follows', rfl⟩, unnamed⟩ :=
        @relayToOthers_unnamed S r blocked t conn act.conversationId
          (receiptPush conn frame t.clock)
      have relay : Executes (system S) (.call .now fun time =>
          (r.relayToOthers conn act.conversationId (receiptPush conn frame time)).bind
            fun _ => .pure (.ok ())) t ((.now, .ok) :: later) res' u := .call rfl rest
      refine ⟨_, ⟨_, res', u, executes_bind.mpr ⟨first, res, t, _, keeps, relay, rfl⟩, ?_, rfl⟩, ?_⟩
      · intro x hx
        rcases List.mem_append.mp hx with early | late
        · exact follows x early
        · exact List.forall_mem_cons.mpr ⟨trivial, follows'⟩ x late
      · rintro ⟨x, hx, delivers⟩
        rcases List.mem_append.mp hx with early | late
        · cases (quiet x early).1.symm.trans delivers
        · rcases List.mem_cons.mp late with rfl | late
          · cases delivers
          · exact unnamed _ ⟨x, late, delivers⟩
    | false =>
      have unkept : Compatible S r blocked s conn (.ackReceipt act) ↔ ¬ Kept S r frame := by
        simp [Compatible, Kept, given, chan, hm, or_iff_not_imp_left]
      rw [unkept]
      rw [← hch] at chan proto
      simp only [chan, Bool.false_eq_true, if_false]
      by_cases kept : Kept S r frame
      · refine iff_of_false (not_agree (Q := fun o => o.filed.Nonempty) ?_ fun o h some => ?_)
          (not_not_intro kept)
        · have free : ((keepReceipt S r conn frame).bind fun _ => .call .now fun time =>
              .call (.sendToUser frame.channelID (receiptPush conn frame time)) fun _ =>
                .pure (.ok ()) : Handled).All fun op => ∀ c, op.Follows blocked c :=
            (keepReceipt_quiet.mono fun _ => And.right).bind fun _ =>
              ⟨fun _ => trivial, fun _ => ⟨fun _ => trivial, fun _ => trivial⟩⟩
          have type : ReadReceiptFrame.type frame ∈ ["delivered", "read"] := by
            cases known : act.type <;> simp [known, ReceiptType.name] at ht <;> simp [← ht]
          obtain ⟨trace, res, t, run, x, hx, files⟩ :=
            (may_bind.mpr (.inl (keepReceipt_files (s := s) kept type))).executes (system_live S)
          obtain ⟨k, files⟩ := Option.ne_none_iff_exists'.mp files
          exact ⟨_, ⟨trace, res, t, run, fun x hx => run.all free x hx x.2, rfl⟩, k, x, hx, files⟩
        · rw [(proto o).mp h] at some
          exact some.ne_empty rfl
      · refine iff_of_true (agree_of_attains (fun o => ?_) proto) kept
        have only : Attains S blocked s (((keepReceipt S r conn frame).bind fun _ => now).bind
            fun time => .call (.sendToUser frame.channelID (receiptPush conn frame time)) fun _ =>
              .pure (.ok ())) o ↔ o = .only frame.channelID :=
          attains_only _ (receiptPush conn frame)
            ((keepReceipt_mute kept).bind fun _ => ⟨⟨rfl, rfl, id⟩, fun _ => trivial⟩) fun _ => rfl
        rwa [Prog.bind_assoc] at only

end Receipt

/-! ## Both wire formats -/

/-- A frame and the packet that says the same are handled alike exactly where they are
`Compatible`. -/
theorem wire_formats_agree {action : String} {data : Json} {body : ClientActionBody}
    (pair : Corresponds action data body) (reqID traceID : String) :
    Agree S blocked s (r.dispatch S conn action data)
      (r.handleProtobufPacket S conn ⟨traceID, .clientAction ⟨reqID, body⟩⟩) ↔
        Compatible S r blocked s conn body := by
  cases pair with
  | send read hch hc hp _ => exact agree_send read hch hc hp
  | typing read hch _ => exact agree_typing read hch
  | receipt named read hch hm ht =>
    rcases named with rfl | rfl <;> exact agree_receipt read hch hm ht

end Formats

/-! ## Samples -/

def typingJson : Json := .object [("action", .string "typing"), ("channel_id", .string "bob"),
  ("is_typing", .bool true)]

/-- Bob, who has not blocked Alice, sees her typing in both formats. -/
theorem wire_formats_agree_sample : Agree samplePlatform (fun _ _ => false)
    (Server.empty sampleClock)
    (sampleRouter.dispatch samplePlatform ⟨"alice", .json⟩ "typing" typingJson)
    (sampleRouter.handleProtobufPacket samplePlatform ⟨"alice", .json⟩
      ⟨"t1", .clientAction ⟨"q1", .typingIndicator ⟨"bob", true⟩⟩⟩) :=
  (wire_formats_agree (.typing (by rfl) rfl rfl) "q1" "t1").mpr
    ⟨by decide, by decide, .inr (.inr rfl)⟩

def helloJson : Json := .object [("action", .string "send_message"), ("channel_id", .string "bob"),
  ("client_msg_id", .string "c1"), ("ciphertext_base64", .string "AQID")]

def helloAction : SendMessageAction := ⟨"bob", "c1", [1, 2, 3], [], 0, ""⟩

/-- Alice's message to Bob is filed under another conversation if it comes by protobuf. -/
theorem wire_formats_differ : ∃ p,
    (Pool.machine (gateway samplePlatform sampleRouter)).Reachable p ∧
    Corresponds "send_message" helloJson (.sendMessage helloAction) ∧
    ¬ Agree samplePlatform (fun _ _ => false) p.shared
      (sampleRouter.dispatch samplePlatform ⟨"alice", .json⟩ "send_message" helloJson)
      (sampleRouter.handleProtobufPacket samplePlatform ⟨"alice", .json⟩
        ⟨"t1", .clientAction ⟨"q1", .sendMessage helloAction⟩⟩) := by
  have read : InboundFrame.unmarshal helloJson =
      some ⟨"send_message", "bob", "c1", "AQID", 0, 0, "", ""⟩ := by rfl
  have payload : "AQID" = Base64.encodeToString helloAction.encryptedPayload := by decide
  refine ⟨Pool.start _ (Server.empty sampleClock), .start ⟨_, ⟨sampleClock, rfl⟩, rfl⟩,
    .send read rfl rfl payload rfl, fun agree => ?_⟩
  have compatible : Compatible samplePlatform sampleRouter (fun _ _ => false)
      (Server.empty sampleClock) ⟨"alice", .json⟩ (.sendMessage helloAction) :=
    (agree_send read rfl rfl payload).mp agree
  simp [Compatible, SendMessageAction.Known, Store.selectDedup, Server.empty, Store.empty,
    helloAction] at compatible

end GenChat.Gateway
