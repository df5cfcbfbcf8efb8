import GenChat.Gateway.ChannelIsolation

/-!
# The blocklist

What of a user `u` still reaches a user `v` who has blocked `u`. Only `send_message`, `typing`,
`reaction` and direct call signals ask the block checker, `send_message` after it has stored the
message; receipts, ephemeral settings, group signals sent to a user, edits, deletions, pins and all
protobuf actions do not ask. `KeepsBlock` lists the steps at which nothing gets past the block.
-/
namespace GenChat.Gateway
open Library Ledger Router

/-! ## Frames for a user -/

section Peer
variable (S : Platform) (r : Router) (u v : String)

/-- The signal goes to a channel, or to the user in its place. -/
def CallSignalInboundFrame.ToChannel (frame : CallSignalInboundFrame) : Prop :=
  isGroupSignal frame.signalType ∧ frame.channelID ≠ ""

def CallSignalInboundFrame.For (frame : CallSignalInboundFrame) : Prop :=
  frame.ToChannel ∧ frame.channelID = v ∨ ¬ frame.ToChannel ∧ frame.targetUserID = v

/-- A key under which messages of `u` get to `v`. -/
def Concerns (k : String) : Prop := k = v ∨ k = getConversationID u v

/-- The frame names the conversation of `u` and `v`. -/
def Json.Names (data : Json) : Prop := ∃ ch, data.readString "channel_id" = some ch ∧
  getConversationID u ch = getConversationID u v

/-- A JSON frame of `u` is for `v`. Commits go to groups only. -/
def Json.Addresses (action : String) (data : Json) : Prop :=
  match action with
  | "call_signal" => ∃ frame ∈ CallSignalInboundFrame.unmarshal data, frame.For v
  | "group_commit" | "mls_commit" => False
  | _ => Json.Names u v data

def ClientActionBody.Addresses : ClientActionBody → Prop
  | .sendMessage act => Concerns u v act.conversationId
  | .typingIndicator act => act.conversationId = v
  | .ackReceipt act => act.conversationId = v
  | .other => False

def Router.Reading.Addresses : Reading → Prop
  | .packet p => ∃ action, p.payload = .clientAction action ∧
    ClientActionBody.Addresses u v action.action
  | .json action data => Json.Addresses u v action data
  | .invalid => False

/-! ## What must not happen -/

/-- A frame reaches a connection of `v`. -/
def Op.Delivers : Op → Prop
  | .sendToUser w _ => w = v
  | .broadcastAll excludeUserID _ => excludeUserID ≠ v
  | _ => False

/-- The conversation and the author of what the operation writes and `fetch_history` shows. -/
def Op.content : Op → Option (String × String)
  | .insertRow row => some (row.conversationID, row.senderID)
  | .insertEvent k _ _ actorID _ => some (k, actorID)
  | _ => none

/-- The entry is shown by `fetch_history` as one of `u`. -/
def Entry.ShownOf : Entry → Prop
  | .row m => m.senderID = u
  | .event _ columns => columns.actorID = u
  | .receipt _ _ _ => False

/-- Nothing of `u` has got to `v` since `p₀`. -/
structure Blocked (p₀ p : Pool (gateway S r)) : Prop where
  delivered : ∀ x ∈ p.log.drop p₀.log.length, x.1.conn.userID = u →
    (reading S x.1.conn x.1.data).Addresses u v → ¬ x.2.Delivers v
  stored : ∀ e : Entry, e.In p.shared.db → e.conversationID = getConversationID u v →
    e.ShownOf u → e.In p₀.shared.db
  /-- What `fetch_history` of the conversation shows `v`. -/
  shown : ∀ conn data frame trace res t ch messages c, conn.userID = v →
    FetchHistoryFrame.unmarshal data = some frame →
    getConversationID v frame.channelID = getConversationID u v →
    Executes (system S) (r.handleFetchHistory S conn data) p.shared trace res t →
    (.sendToUser v (.history ch messages), c) ∈ trace →
    ∃ (rows : List LedgerMessage) (events : List MessageEvent),
      messages = rows.map (overlay events) ∧
      (∀ row ∈ rows, row.senderID = u → ∃ m, p₀.shared.db.Holds m ∧ m.senderID = u ∧
        m.conversationID = getConversationID u v ∧ m.messageID.text = row.messageID ∧
        m.encryptedPayload = row.encryptedPayload) ∧
      ∀ e ∈ events, e.actorID = u → e ∈ p₀.shared.db.eventRows

/-! ## Runs in question -/

/-- The frame gets past the block whatever the state. -/
def Json.Unchecked (action : String) (data : Json) : Prop :=
  match action with
  | "typing" => r.blockChecker = false ∧ ∃ frame ∈ TypingFrame.unmarshal data, frame.channelID = v
  | "reaction" => r.blockChecker = false ∧ ∃ frame ∈ ReactionInboundFrame.unmarshal data,
    frame.channelID = v ∧ orElse frame.targetID frame.targetMsgID ≠ "" ∧ frame.emoji ≠ ""
  | "read_receipt" | "ack_receipt" =>
    ∃ frame ∈ ReadReceiptFrame.unmarshal data, frame.channelID = v
  | "ephemeral_setting" => ∃ frame ∈ EphemeralSettingFrame.unmarshal data, frame.channelID = v
  | "call_signal" => ∃ frame ∈ CallSignalInboundFrame.unmarshal data, frame.callID ≠ "" ∧
    frame.signalType ≠ "" ∧ frame.For v ∧ (frame.ToChannel ∨ r.blockChecker = false)
  | _ => False

def ClientActionBody.Unchecked : ClientActionBody → Prop
  | .sendMessage act => r.ledger = false ∧ act.conversationId = v ∧ act.clientMsgId ≠ "" ∧
    act.encryptedPayload ≠ []
  | .typingIndicator act => act.conversationId = v
  | .ackReceipt act => act.conversationId = v
  | .other => False

def Router.Reading.Unchecked : Reading → Prop
  | .packet p => ∃ action, p.payload = .clientAction action ∧
    ClientActionBody.Unchecked r v action.action
  | .json action data => Json.Unchecked r v action data
  | .invalid => False

def Router.Reading.pins : Reading → Prop
  | .json action _ => action = "pin_message"
  | _ => False

/-- The block checker answers that `v` has blocked `u`, a message for `v` was stored before, and
`u` is not the author of what it wants to change; of what it wants to pin, nobody is. -/
def Op.Harmless (s : Server) (pins : Prop) : Op → Choice → Prop
  | .isBlocked blocker blocked, c => blocker = v → blocked = u → c = .answer true
  | .queryDedup msg, .ok | .queryDedupLegacy msg, .ok =>
    Concerns u v msg.conversationID →
      s.db.selectDedup s.clock msg.conversationID msg.clientMsgID ≠ none
  | .selectAuthor k messageID, .ok => k = getConversationID u v →
    ∀ author, s.db.selectAuthor k messageID = some author → author.senderID ≠ "" →
      ¬ pins ∧ author.senderID ≠ u
  | _, _ => True

def KeepsBlock (p : Pool (gateway S r)) : PoolLabel (gateway S r) → Prop
  | .spawn t => t.conn.userID = u → ¬ (reading S t.conn t.data).Unchecked r v
  | .run i c => ∀ t op, p.next i = some (t, op) → t.conn.userID = u →
    Op.Harmless u v p.shared (reading S t.conn t.data).pins op c
  | .env _ => True

end Peer

/-! ## What a frame of `u` may do -/

section Handlers
variable {S : Platform} {r : Router} {conn : Conn} {v : String} {pins addressed : Prop}
  {α : Type}

/-- What the answers to a frame of `u` are where `KeepsBlock` holds. -/
def Op.Refuses (u v : String) (pins : Prop) : (op : Op) → Ret op → Prop
  | .isBlocked blocker blocked, b => blocker = v → blocked = u → b = true
  | .queryDedup msg, found => Concerns u v msg.conversationID → found ≠ .ok none
  | .queryDedupLegacy msg, found => Concerns u v msg.conversationID → found ≠ .ok none
  | .selectAuthor k _, found => k = getConversationID u v →
    ∀ author, found = .ok (some author) → author.senderID ≠ "" → ¬ pins ∧ author.senderID ≠ u
  | _, _ => True

/-- What an operation for a frame of `u` must not do. -/
def Hidden (u v : String) (addressed : Prop) (op : Op) : Prop :=
  (addressed → ¬ op.Delivers v) ∧
    ∀ k a, op.content = some (k, a) → a = u ∧ k ≠ getConversationID u v

/-- The program keeps what it does from `v`. -/
abbrev Keeps (conn : Conn) (v : String) (pins addressed : Prop) (Q : α → Prop) (p : Proc α) :
    Prop :=
  p.AllIf (Op.Refuses conn.userID v pins) (Hidden conn.userID v addressed) Q

theorem Op.Harmless.refuses {s s' : Server} {u : String} {op : Op} {c : Choice} {res : Ret op}
    (h : op.Harmless u v s pins c) (hr : s.exec S op c = some (res, s')) :
    op.Refuses u v pins res := by
  cases op <;> try trivial
  case isBlocked blocker blocked =>
    rintro rfl rfl
    cases (h rfl rfl : c = .answer true)
    cases hr
    rfl
  case queryDedup msg =>
    obtain ⟨-, ⟨rfl, rfl⟩ | ⟨rfl, rfl⟩⟩ := Server.query_eq_some.mp hr
    · exact fun names same => h names (Except.ok.inj same)
    · exact fun _ => nofun
  case queryDedupLegacy msg =>
    obtain ⟨-, ⟨rfl, rfl⟩ | ⟨rfl, rfl⟩⟩ := Server.query_eq_some.mp hr
    · exact fun names same => h names (Option.map_eq_none_iff.mp (Except.ok.inj same))
    · exact fun _ => nofun
  case selectAuthor k messageID =>
    obtain ⟨-, ⟨rfl, rfl⟩ | ⟨rfl, rfl⟩⟩ := Server.query_eq_some.mp hr
    · exact fun names author same => h names author (Except.ok.inj same)
    · exact fun _ _ => nofun

theorem hidden_of_content {u : String} {op : Op} (delivers : addressed → ¬ op.Delivers v)
    (none : op.content = none) : Hidden u v addressed op :=
  ⟨delivers, fun k a content => by rw [none] at content; cases content⟩

theorem Op.plain.content {op : Op} (h : op.plain) : op.content = none := by
  cases op <;> first | rfl | exact h.elim

theorem Op.plain.hidden {u : String} {op : Op} (h : op.plain) (other : ¬ addressed) :
    Hidden u v addressed op := hidden_of_content (fun it => absurd it other) h.content

/-- A frame for nobody in particular may be delivered to anybody. -/
theorem keeps_of_plain {p : Proc α} (other : ¬ addressed) (h : p.All Op.plain) :
    Keeps conn v pins addressed (fun _ => True) p :=
  (h.mono fun _ plain => plain.hidden other).allIf

/-- The conversation of two users has no channel's name. -/
theorem direct_of_names {u ch : String} (direct : hasPrefix v "chan_" = false)
    (names : getConversationID u ch = getConversationID u v) : hasPrefix ch "chan_" = false := by
  by_contra channel
  rw [Bool.not_eq_false] at channel
  obtain ⟨x, y, -, key⟩ := getConversationID_direct (u := u) direct
  obtain ⟨rest, hrest⟩ := toList_hasPrefix channel
  rw [← names, getConversationID, if_pos channel, hrest] at key
  simp at key

variable (distinct : conn.userID ≠ v)
include distinct

theorem sendToUser_hidden {frame : Frame} :
    Hidden conn.userID v addressed (.sendToUser conn.userID frame) :=
  hidden_of_content (fun _ => distinct) rfl

theorem keeps_sendError (code msg : String) :
    Keeps conn v pins addressed (fun _ => True) (sendError conn code msg) :=
  ⟨sendToUser_hidden distinct, fun _ _ => trivial⟩

theorem relayAndEcho_hidden {ch : String} {frame : Frame}
    (apart : addressed → hasPrefix ch "chan_" = false ∧ ch ≠ v) :
    (r.relayAndEcho conn ch frame).All (Hidden conn.userID v addressed) := by
  by_cases h : addressed
  · obtain ⟨direct, other⟩ := apart h
    unfold relayAndEcho
    rw [if_neg (by simp [direct])]
    refine ⟨hidden_of_content (fun _ => other) rfl, fun _ => ?_⟩
    split
    · exact ⟨sendToUser_hidden distinct, fun _ => trivial⟩
    · trivial
  · have free {op : Op} (none : op.content = none) : Hidden conn.userID v addressed op :=
      hidden_of_content (fun it => absurd it h) none
    exact relayAndEcho_all (fun _ => free rfl) (fun _ => free rfl) (fun _ => free rfl) ch

/-- A handler that asks whether `ch` has blocked the sender goes on to others than `v` only. -/
theorem keeps_asking {ch : String} {rest : Bool → Proc α} {Q : α → Prop}
    (checker : ch = v → r.blockChecker = true) (stop : Keeps conn v pins addressed Q (rest true))
    (go : ch ≠ v → Keeps conn v pins addressed Q (rest false)) :
    Keeps conn v pins addressed Q
      (if ch = conn.userID then rest false else (r.blocks ch conn.userID).bind rest) := by
  split
  · rename_i self
    exact go fun same => distinct (self.symm.trans same)
  · have answer (b : Bool) (blocked : ch = v → b = true) :
        Keeps conn v pins addressed Q (rest b) := by
      cases b with
      | true => exact stop
      | false => exact go fun same => Bool.noConfusion (blocked same)
    unfold blocks
    split
    · refine ⟨hidden_of_content (fun _ => id) rfl, fun b blocked => answer b fun same => ?_⟩
      exact blocked same rfl
    · rename_i off
      exact answer false fun same => absurd (checker same) off

/-! ### Frames that only notify -/

section Notify
variable {data : Json} (direct : hasPrefix v "chan_" = false)
include direct

omit distinct in
theorem Json.Names.channel {u ch : String} (h : Json.Names u v data)
    (read : data.readString "channel_id" = some ch) :
    getConversationID u ch = getConversationID u v ∧ hasPrefix ch "chan_" = false := by
  obtain ⟨ch', read', names⟩ := h
  cases read.symm.trans read'
  exact ⟨names, direct_of_names direct names⟩

theorem handleTyping_keeps (checked : ¬ Json.Unchecked r v "typing" data) :
    Keeps conn v pins (Json.Names conn.userID v data) (fun _ => True)
      (r.handleTyping conn data) := by
  by_cases named : Json.Names conn.userID v data
  case neg => exact keeps_of_plain named (handleTyping_all data)
  unfold handleTyping
  split
  · trivial
  · rename_i frame read
    obtain ⟨-, channel⟩ := named.channel direct (TypingFrame.channelID_of_unmarshal read)
    split
    · trivial
    simp only [channel, Bool.false_eq_true, if_false]
    refine keeps_asking distinct (fun same => ?_) trivial fun other => ?_
    · by_contra off
      exact checked ⟨by simpa using off, frame, read, same⟩
    · exact ⟨hidden_of_content (fun _ => other) rfl, fun _ _ => trivial⟩

theorem handleReaction_keeps (checked : ¬ Json.Unchecked r v "reaction" data) :
    Keeps conn v pins (Json.Names conn.userID v data) (fun _ => True)
      (r.handleReaction conn data) := by
  by_cases named : Json.Names conn.userID v data
  case neg => exact keeps_of_plain named (handleReaction_all data)
  unfold handleReaction
  split
  · exact keeps_sendError distinct _ _
  · rename_i frame read
    obtain ⟨-, channel⟩ := named.channel direct (ReactionInboundFrame.channelID_of_unmarshal read)
    dsimp only
    split
    · exact keeps_sendError distinct _ _
    · rename_i given
      refine ⟨hidden_of_content (fun _ => id) rfl, fun time _ => ?_⟩
      simp only [channel, Bool.false_eq_true, false_or]
      refine keeps_asking distinct (fun same => ?_) trivial fun other => ?_
      · by_contra off
        exact checked ⟨by simpa using off, frame, read, same,
          fun h => given (.inr (.inl h)), fun h => given (.inr (.inr h))⟩
      · exact (relayAndEcho_hidden distinct fun _ => ⟨channel, other⟩).allIf.bind fun _ _ => trivial

theorem handleEphemeralSetting_keeps (checked : ¬ Json.Unchecked r v "ephemeral_setting" data) :
    Keeps conn v pins (Json.Names conn.userID v data) (fun _ => True)
      (r.handleEphemeralSetting conn data) := by
  by_cases named : Json.Names conn.userID v data
  case neg => exact keeps_of_plain named (handleEphemeralSetting_all data)
  unfold handleEphemeralSetting
  split
  · exact keeps_sendError distinct _ _
  · rename_i frame read
    obtain ⟨-, channel⟩ :=
      named.channel direct (EphemeralSettingFrame.channelID_of_unmarshal read)
    split
    · exact keeps_sendError distinct _ _
    · refine ⟨hidden_of_content (fun _ => id) rfl, fun time _ => ?_⟩
      refine (relayAndEcho_hidden distinct fun _ => ⟨channel, fun same => ?_⟩).allIf.bind
        fun _ _ => trivial
      exact checked ⟨frame, read, same⟩

omit direct in
theorem handleCallSignal_keeps (checked : ¬ Json.Unchecked r v "call_signal" data) :
    Keeps conn v pins (Json.Addresses conn.userID v "call_signal" data) (fun _ => True)
      (r.handleCallSignal conn data) := by
  by_cases addressed : Json.Addresses conn.userID v "call_signal" data
  case neg => exact keeps_of_plain addressed (handleCallSignal_all data)
  obtain ⟨frame, read, goes⟩ := addressed
  rw [handleCallSignal, show CallSignalInboundFrame.unmarshal data = some frame from read]
  dsimp only
  split
  · exact keeps_sendError distinct _ _
  · rename_i given
    have hid : frame.callID ≠ "" := fun h => given (.inl h)
    have htype : frame.signalType ≠ "" := fun h => given (.inr h)
    refine ⟨hidden_of_content (fun _ => id) rfl, fun time _ => ?_⟩
    rcases goes with ⟨channel, named⟩ | ⟨peer, named⟩
    · exact absurd ⟨frame, read, hid, htype, .inl ⟨channel, named⟩, .inl channel⟩ checked
    · dsimp only [Prog.pure_bind]
      rw [if_neg (show ¬ (isGroupSignal frame.signalType = true ∧ frame.channelID ≠ "") from peer),
        sendSignal]
      split
      · exact keeps_sendError distinct _ _
      refine keeps_asking distinct (fun _ => ?_) trivial fun other => absurd named other
      by_contra off
      exact checked ⟨frame, read, hid, htype, .inr ⟨peer, named⟩, .inr (by simpa using off)⟩

omit distinct direct in
theorem updateReceipt_hidden (k u type messageID : String) (n : Int) :
    (LedgerClient.updateReceipt S k u type messageID n).All (Hidden conn.userID v addressed) := by
  have quiet {op : Op} (none : op.content = none) (silent : ∀ w, ¬ op.Delivers w) :
      Hidden conn.userID v addressed op := hidden_of_content (fun _ => silent v) none
  refine all_rpc (quiet rfl fun _ => id) (quiet rfl fun _ => id) ?_
  unfold LedgerHandler.updateReceipt
  split
  · trivial
  · split
    · exact ⟨quiet rfl fun _ => id, fun found => by cases found <;> trivial⟩
    · split
      · exact ⟨quiet rfl fun _ => id, fun found => by cases found <;> trivial⟩
      · trivial

omit distinct in
theorem handleReadReceipt_keeps
    (checked : ∀ frame, ReadReceiptFrame.unmarshal data = some frame → frame.channelID ≠ v) :
    Keeps conn v pins (Json.Names conn.userID v data) (fun _ => True)
      (r.handleReadReceipt S conn data) := by
  refine Prog.All.allIf ?_
  unfold handleReadReceipt
  split
  · trivial
  · rename_i frame read
    have push (receipt : Frame) : (if hasPrefix frame.channelID "chan_" then
          (r.relayToOthers conn frame.channelID receipt).bind fun _ => .pure (.ok ())
        else .call (.sendToUser frame.channelID receipt) fun _ => .pure (.ok ()) : Handled).All
          (Hidden conn.userID v (Json.Names conn.userID v data)) := by
      split
      · rename_i channel
        have other : ¬ Json.Names conn.userID v data := fun named => by
          have direct' := (named.channel direct (ReadReceiptFrame.channelID_of_unmarshal read)).2
          rw [channel] at direct'
          cases direct'
        have free {op : Op} (none : op.content = none) :
            Hidden conn.userID v (Json.Names conn.userID v data) op :=
          hidden_of_content (fun it => absurd it other) none
        exact (relayToOthers_all (fun _ => free rfl) (fun _ => free rfl)
          (fun _ => free rfl) _).bind fun _ => trivial
      · exact ⟨hidden_of_content (fun _ => checked frame read) rfl, fun _ => trivial⟩
    have time : Hidden conn.userID v (Json.Names conn.userID v data) .now :=
      hidden_of_content (fun _ => id) rfl
    dsimp only
    split
    · trivial
    · split
      · exact (updateReceipt_hidden _ _ _ _ _).bind fun _ => ⟨time, fun _ => push _⟩
      · exact ⟨time, fun _ => push _⟩

end Notify

/-! ### Frames that change a message -/

section Change
variable {data : Json}

omit distinct in
theorem getMessageAuthor_keeps (k messageID : String) :
    Keeps conn v pins addressed (fun answer => k = getConversationID conn.userID v → ∀ authorID,
      answer = .ok authorID → authorID ≠ "" → ¬ pins ∧ authorID ≠ conn.userID)
      (LedgerClient.getMessageAuthor k messageID) := by
  refine allIf_rpc (hidden_of_content (fun _ => id) rfl) (hidden_of_content (fun _ => id) rfl)
    (fun _ _ _ _ => nofun) (fun _ _ _ _ => nofun) ?_
  unfold LedgerHandler.getMessageAuthor
  split
  · exact fun _ _ => nofun
  · refine ⟨hidden_of_content (fun _ => id) rfl, fun found known => ?_⟩
    cases found with
    | error err => exact fun _ _ => nofun
    | ok author =>
      dsimp only [Prog.pure_bind]
      split
      · exact fun _ _ => nofun
      · rintro names _ ⟨⟩ given
        cases author with
        | none => exact absurd rfl given
        | some a => exact known names a rfl given

omit distinct in
/-- An event that is not one of the conversation of the two. -/
theorem recordElsewhere_hidden {k messageID type : String} {ct : Bytes}
    (elsewhere : k ≠ getConversationID conn.userID v) (other : ¬ addressed) :
    (LedgerClient.recordMessageEvent k messageID type conn.userID ct).All
      (Hidden conn.userID v addressed) := by
  refine recordMessageEvent_all ⟨fun it => absurd it other, ?_⟩ fun _ plain => plain.hidden other
  rintro _ _ ⟨⟩
  exact ⟨rfl, elsewhere⟩

omit distinct in
theorem not_names {ch : String} (read : data.readString "channel_id" = some ch)
    (elsewhere : getConversationID conn.userID ch ≠ getConversationID conn.userID v) :
    ¬ Json.Names conn.userID v data := by
  rintro ⟨ch', read', names⟩
  cases read.symm.trans read'
  exact elsewhere names

theorem handleDeleteMessage_keeps :
    Keeps conn v pins (Json.Names conn.userID v data) (fun _ => True)
      (r.handleDeleteMessage conn data) := by
  unfold handleDeleteMessage
  split
  · exact keeps_sendError distinct _ _
  rename_i frame read
  dsimp only
  split
  · exact keeps_sendError distinct _ _
  split
  · split
    · exact keeps_sendError distinct _ _
    refine (getMessageAuthor_keeps _ _).bind fun answer known => ?_
    cases answer with
    | error err => exact keeps_sendError distinct _ _
    | ok authorID =>
      dsimp only
      split
      · exact keeps_sendError distinct _ _
      rename_i given
      split
      · exact keeps_sendError distinct _ _
      rename_i own
      have elsewhere : getConversationID conn.userID frame.channelID ≠
          getConversationID conn.userID v := fun names =>
        (known names authorID rfl given).2 (not_not.mp own)
      have other := not_names (DeleteMessageInboundFrame.channelID_of_unmarshal read) elsewhere
      refine Prog.All.allIf (Prog.All.bind ?_ fun _ =>
        ⟨sendToUser_hidden distinct, fun _ => trivial⟩)
      exact (recordElsewhere_hidden elsewhere other).bind fun _ =>
        ⟨hidden_of_content (fun _ => id) rfl, fun time =>
          relayAndEcho_hidden distinct fun it => absurd it other⟩
  · exact ⟨sendToUser_hidden distinct, fun _ _ => trivial⟩

theorem handleEditMessage_keeps :
    Keeps conn v pins (Json.Names conn.userID v data) (fun _ => True)
      (r.handleEditMessage conn data) := by
  unfold handleEditMessage
  split
  · exact keeps_sendError distinct _ _
  rename_i frame read
  dsimp only
  split
  · exact keeps_sendError distinct _ _
  split
  · exact keeps_sendError distinct _ _
  refine (getMessageAuthor_keeps _ _).bind fun answer known => ?_
  cases answer with
  | error err => exact keeps_sendError distinct _ _
  | ok authorID =>
    dsimp only
    split
    · exact keeps_sendError distinct _ _
    rename_i given
    split
    · exact keeps_sendError distinct _ _
    rename_i own
    have elsewhere : getConversationID conn.userID frame.channelID ≠
        getConversationID conn.userID v := fun names =>
      (known names authorID rfl given).2 (not_not.mp own)
    have other := not_names (EditMessageInboundFrame.channelID_of_unmarshal read) elsewhere
    refine Prog.All.allIf ((recordElsewhere_hidden elsewhere other).bind fun _ =>
      ⟨hidden_of_content (fun _ => id) rfl, fun time => ?_⟩)
    exact (relayAndEcho_hidden distinct fun it => absurd it other).bind fun _ =>
      ⟨sendToUser_hidden distinct, fun _ => trivial⟩

theorem handlePinMessage_keeps (pinned : pins) :
    Keeps conn v pins (Json.Names conn.userID v data) (fun _ => True)
      (r.handlePinMessage conn data) := by
  unfold handlePinMessage
  split
  · exact keeps_sendError distinct _ _
  rename_i frame read
  have pin (messageID : String) : Keeps conn v pins (Json.Names conn.userID v data) (fun _ => True)
      (r.pinVerified conn frame messageID) := by
    unfold pinVerified
    split
    · exact keeps_sendError distinct _ _
    refine (getMessageAuthor_keeps _ _).bind fun answer known => ?_
    cases answer with
    | error err => exact keeps_sendError distinct _ _
    | ok authorID =>
      dsimp only
      split
      · exact keeps_sendError distinct _ _
      rename_i given
      have elsewhere : getConversationID conn.userID frame.channelID ≠
          getConversationID conn.userID v := fun names =>
        (known names authorID rfl given).1 pinned
      have other := not_names (PinMessageInboundFrame.channelID_of_unmarshal read) elsewhere
      refine Prog.All.allIf ((recordElsewhere_hidden elsewhere other).bind fun _ =>
        ⟨hidden_of_content (fun _ => id) rfl, fun time => ?_⟩)
      exact (relayAndEcho_hidden distinct fun it => absurd it other).bind fun _ =>
        ⟨sendToUser_hidden distinct, fun _ => trivial⟩
  dsimp only
  split
  · exact keeps_sendError distinct _ _
  split
  · refine ⟨hidden_of_content (fun _ => id) rfl, fun found _ => ?_⟩
    cases found with
    | error err => exact keeps_sendError distinct _ _
    | ok memberIDs =>
      dsimp only [Prog.pure_bind]
      split
      · exact keeps_sendError distinct _ _
      · exact pin _
  · exact pin _

end Change

/-! ### New messages -/

section Send
variable {req : StoreMessageRequest}

omit distinct in
/-- What concerns the two was stored before. -/
theorem storeMessage_keeps (own : req.senderId = conn.userID) :
    Keeps conn v pins addressed (fun answer => Concerns conn.userID v req.conversationId →
      ∀ stored, answer = .ok stored → stored.deduplicated = true)
      (LedgerClient.storeMessage S req) := by
  have quiet {op : Op} (none : op.content = none) (silent : ¬ op.Delivers v) :
      Hidden conn.userID v addressed op := hidden_of_content (fun _ => silent) none
  refine (storeMessage_allIf (quiet rfl id) (quiet rfl id) (quiet rfl id) (quiet rfl id)
    (fun found concerns => found concerns rfl) (fun found concerns => found concerns rfl)
    (fun _ _ _ => not_false) fun elsewhere op h => ?_).mono (fun _ _ => id) (fun _ => id)
    fun answer known concerns => known (.inl concerns)
  cases op <;> first | exact quiet rfl id | exact h.elim | skip
  obtain ⟨seq, now, msgID, rfl⟩ := h
  refine ⟨fun _ => id, ?_⟩
  rintro _ _ ⟨⟩
  exact ⟨own, fun names => elsewhere (.inr names)⟩

theorem handleSendMessage_keeps {data : Json} :
    Keeps conn v pins (Json.Names conn.userID v data) (fun _ => True)
      (r.handleSendMessage S conn data) := by
  refine handleSendMessage_cases data (fun code msg => keeps_sendError distinct code msg)
    fun frame payload read _ _ _ _ _ => ?_
  refine (storeMessage_keeps rfl).bind fun answer known => ?_
  cases answer with
  | error err => exact keeps_sendError distinct _ _
  | ok stored =>
    by_cases concerns : Concerns conn.userID v (getConversationID conn.userID frame.channelID)
    · refine ⟨sendToUser_hidden distinct, fun _ _ => ?_⟩
      dsimp only [Prog.pure_bind]
      rw [if_pos (known concerns stored rfl)]
      trivial
    · have other := not_names (InboundFrame.channelID_of_unmarshal read) fun h => concerns (.inr h)
      exact (acknowledge_all (sendToUser_hidden distinct) fun _ plain => plain.hidden other).allIf

omit distinct in
theorem keeps_sendProtoError (reqID code msg : String) :
    Keeps conn v pins addressed (fun _ => True) (sendProtoError reqID code msg) :=
  ⟨hidden_of_content (fun _ => id) rfl, fun _ _ => ⟨hidden_of_content (fun _ => id) rfl,
    fun _ _ => trivial⟩⟩

theorem handleProtoSendMessage_keeps {act : SendMessageAction}
    (named : addressed → Concerns conn.userID v act.conversationId)
    (checked : ¬ ClientActionBody.Unchecked r v (.sendMessage act)) (reqID traceID : String) :
    Keeps conn v pins addressed (fun _ => True)
      (r.handleProtoSendMessage S conn reqID traceID act) := by
  refine handleProtoSendMessage_cases _ _ _ (fun _ _ => keeps_sendProtoError _ _ _)
    (fun _ _ _ _ => ?_) fun _ hc hp memory => ?_
  · refine (storeMessage_keeps rfl).bind fun answer known => ?_
    cases answer with
    | error err => exact keeps_sendProtoError _ _ _
    | ok stored =>
      by_cases concerns : Concerns conn.userID v act.conversationId
      · refine ⟨hidden_of_content (fun _ => id) rfl, fun time _ =>
          ⟨sendToUser_hidden distinct, fun _ _ => ?_⟩⟩
        dsimp only [Prog.pure_bind]
        rw [if_pos (known concerns stored rfl)]
        trivial
      · exact (protoAcknowledge_all (fun _ => sendToUser_hidden distinct)
          fun _ plain => plain.hidden fun it => concerns (named it)).allIf
  · have other : act.conversationId ≠ v := fun same => checked ⟨memory, same, hc, hp⟩
    have clock : Hidden conn.userID v addressed .now := hidden_of_content (fun _ => id) rfl
    refine ⟨clock, fun time _ => ⟨clock, fun time _ =>
      ⟨sendToUser_hidden distinct, fun _ _ => ⟨clock, fun time _ =>
        ⟨hidden_of_content (fun _ => other) rfl, fun _ _ => trivial⟩⟩⟩⟩⟩

theorem handleProtobufPacket_keeps {packet : Packet}
    (checked : ¬ (Reading.packet packet).Unchecked r v) :
    Keeps conn v pins ((Reading.packet packet).Addresses conn.userID v) (fun _ => True)
      (r.handleProtobufPacket S conn packet) := by
  have clock {addressed : Prop} : Hidden conn.userID v addressed .now :=
    hidden_of_content (fun _ => id) rfl
  unfold handleProtobufPacket
  split
  · exact ⟨clock, fun _ _ => ⟨hidden_of_content (fun _ => id) rfl, fun _ _ => trivial⟩⟩
  · rename_i action payload
    split
    · rename_i act sends
      refine handleProtoSendMessage_keeps distinct ?_ (fun h => checked ⟨action, payload, ?_⟩) _ _
      · rintro ⟨action', payload', concerns⟩
        cases payload.symm.trans payload'
        rwa [sends] at concerns
      · rwa [sends]
    · rename_i act sends
      refine ⟨clock, fun _ _ => ⟨hidden_of_content (fun _ same => ?_) rfl, fun _ _ => trivial⟩⟩
      exact checked ⟨action, payload, by rw [sends]; exact same⟩
    · rename_i act sends
      refine ⟨clock, fun _ _ => ⟨hidden_of_content (fun _ same => ?_) rfl, fun _ _ => trivial⟩⟩
      exact checked ⟨action, payload, by rw [sends]; exact same⟩
    · exact keeps_sendProtoError _ _ _
  · exact keeps_sendProtoError _ _ _

theorem handleFetchHistory_keeps (data : Json) :
    Keeps conn v pins addressed (fun _ => True) (r.handleFetchHistory S conn data) := by
  have quiet {op : Op} (none : op.content = none) (silent : ∀ w, ¬ op.Delivers w) :
      Hidden conn.userID v addressed op := hidden_of_content (fun _ => silent v) none
  have events (k : String) : (LedgerClient.fetchMessageEvents k "").All
      (Hidden conn.userID v addressed) := by
    refine all_rpc (quiet rfl fun _ => id) (quiet rfl fun _ => id) ?_
    unfold LedgerHandler.fetchMessageEvents
    split
    · trivial
    · exact ⟨quiet rfl fun _ => id, fun found => by cases found <;> trivial⟩
  have respond (frame : FetchHistoryFrame) :
      Keeps conn v pins addressed (fun _ => True) (respondHistory S conn frame) := by
    refine ⟨quiet rfl fun _ => id, fun time _ => ?_⟩
    have fetched := (fetchMessages_all (S := S) (getConversationID conn.userID frame.channelID)
      (S.formatBucket time) frame.beforeServerID frame.limit).mono fun op h =>
        (quiet (Op.plain.content (Op.fetches.plain h))
          (by cases op <;> first | exact fun _ => id | exact h.elim) :
          Hidden conn.userID v addressed op)
    refine fetched.allIf.bind fun answer _ => ?_
    cases answer with
    | error err => exact keeps_sendError distinct _ _
    | ok msgs =>
      exact (events _).allIf.bind fun _ _ => ⟨sendToUser_hidden distinct, fun _ _ => trivial⟩
  unfold handleFetchHistory
  split
  · exact keeps_sendError distinct _ _
  dsimp only
  split
  · exact keeps_sendError distinct _ _
  split
  · exact keeps_sendError distinct _ _
  split
  · refine ⟨quiet rfl fun _ => id, fun found _ => ?_⟩
    cases found with
    | error err => exact keeps_sendError distinct _ _
    | ok memberIDs =>
      dsimp only [Prog.pure_bind]
      split
      · exact keeps_sendError distinct _ _
      · exact respond _
  · exact respond _

end Send

end Handlers

/-! ## Every frame -/

section Frames
variable {S : Platform} {r : Router} {v : String} {t : Inbound}

theorem handle_keeps (distinct : t.conn.userID ≠ v) (direct : hasPrefix v "chan_" = false)
    (checked : ¬ (reading S t.conn t.data).Unchecked r v) :
    Keeps t.conn v (reading S t.conn t.data).pins
      ((reading S t.conn t.data).Addresses t.conn.userID v) (fun _ => True)
      (r.Handle S t.conn t.data) := by
  rw [Handle_eq]
  generalize reading S t.conn t.data = taken at checked
  cases taken with
  | invalid => exact keeps_sendError distinct _ _
  | packet packet => exact handleProtobufPacket_keeps distinct checked
  | json action data =>
    dsimp only [handleAs, dispatch]
    split
    · exact handleSendMessage_keeps distinct
    · exact handleReaction_keeps distinct direct checked
    · exact handleDeleteMessage_keeps distinct
    · exact handleEditMessage_keeps distinct
    · exact handlePinMessage_keeps distinct rfl
    · exact keeps_of_plain id (handleGroupCommit_all _)
    · exact keeps_of_plain id (handleGroupCommit_all _)
    · exact handleFetchHistory_keeps distinct _
    · exact handleTyping_keeps distinct direct checked
    · exact handleReadReceipt_keeps direct fun frame read same => checked ⟨frame, read, same⟩
    · exact handleReadReceipt_keeps direct fun frame read same => checked ⟨frame, read, same⟩
    · exact handleCallSignal_keeps distinct checked
    · exact handleEphemeralSetting_keeps distinct direct checked
    · exact ⟨sendToUser_hidden distinct, fun _ _ => trivial⟩
    · exact keeps_sendError distinct _ _

/-- What a user's frame writes has the user for its author. -/
def Owns (u : String) (op : Op) : Prop := ∀ k a, op.content = some (k, a) → a = u

theorem handle_owns : (r.Handle S t.conn t.data).All (Owns t.conn.userID) := by
  have quiet {op : Op} (none : op.content = none) : Owns t.conn.userID op := fun k a h => by
    rw [none] at h
    cases h
  have plain (p : Handled) (h : p.All Op.plain) : p.All (Owns t.conn.userID) :=
    h.mono fun _ plain => quiet plain.content
  have annotates (p : Handled) (h : p.All (Annotates t.conn.userID)) :
      p.All (Owns t.conn.userID) := by
    refine h.mono fun op annotates => ?_
    cases op <;> first | exact quiet rfl | exact annotates.elim | skip
    rintro _ _ ⟨⟩
    exact annotates.1
  have stores (req : StoreMessageRequest) (own : req.senderId = t.conn.userID) :
      (LedgerClient.storeMessage S req).All (Owns t.conn.userID) := by
    refine (storeMessage_all req).mono fun op h => ?_
    cases op <;> first | exact quiet rfl | exact h.elim | skip
    obtain ⟨seq, now, id, rfl⟩ := h
    rintro _ _ ⟨⟩
    exact own
  refine handle_cases _ (fun p h => annotates p (h.mono fun _ => Routine.annotates))
    (fun j _ _ => ?send) (fun j => annotates _ (handleDeleteMessage_all j))
    (fun j => annotates _ (handleEditMessage_all j))
    (fun j => (handleFetchHistory_all j).mono fun op h => ?history)
    fun packet action act _ _ _ _ => ?protoSend
  case send =>
    refine handleSendMessage_cases j (fun _ _ => plain _ (sendError_all _ _))
      fun frame payload _ _ _ _ _ _ => (stores _ rfl).bind fun answer => ?_
    cases answer with
    | error err => exact plain _ (sendError_all _ _)
    | ok stored => exact acknowledge_all (quiet rfl) fun _ h => quiet h.content
  case history =>
    rcases h with h | ⟨ch, messages, rfl⟩
    · exact quiet h.content
    · exact quiet rfl
  case protoSend =>
    refine handleProtoSendMessage_cases _ _ _ (fun _ _ => plain _ (sendProtoError_all _ _ _))
      (fun _ _ _ _ => (stores _ rfl).bind fun answer => ?_) fun _ _ _ _ => ⟨quiet rfl, fun time =>
        protoAcknowledge_all (fun _ => quiet rfl) fun _ h => quiet h.content⟩
    cases answer with
    | error err => exact plain _ (sendProtoError_all _ _ _)
    | ok stored => exact protoAcknowledge_all (fun _ => quiet rfl) fun _ h => quiet h.content

end Frames

/-! ## Runs -/

section Runs
variable {S : Platform} {r : Router} {u v : String} {p₀ p : Pool (gateway S r)}

theorem blocked_since (distinct : u ≠ v) (direct : hasPrefix v "chan_" = false)
    (h₀ : (Pool.machine (gateway S r)).Reachable p₀)
    (idle : ∀ x ∈ p₀.threads, x.1.conn.userID = u → ∃ a, x.2 = .pure a)
    (hp : ((Pool.machine (gateway S r)).resume p₀).Reach (KeepsBlock S r u v) p) :
    ∃ later, p.log = p₀.log ++ later ∧
      (∀ x ∈ later, Owns x.1.conn.userID x.2 ∧ (x.1.conn.userID = u →
        Hidden u v ((reading S x.1.conn x.1.data).Addresses u v) x.2)) ∧
      ∀ e : Entry, e.In p.shared.db → e.In p₀.shared.db ∨ ∃ x ∈ later, e.WrittenBy x.2 := by
  let φ (t : Inbound) (op : Op) : Prop := Owns t.conn.userID op ∧ (t.conn.userID = u →
    Hidden u v ((reading S t.conn t.data).Addresses u v) op)
  let answers (t : Inbound) (op : Op) (res : Ret op) : Prop :=
    t.conn.userID = u → op.Refuses u v (reading S t.conn t.data).pins res
  have owns := (Pool.threads_all (fun t => Owns t.conn.userID) (fun _ t _ => handle_owns) h₀).1
  have others (t : Inbound) (other : t.conn.userID ≠ u) (program : Handled)
      (own : program.All (Owns t.conn.userID)) : program.AllIf (answers t) (φ t) fun _ => True :=
    (own.mono fun op h => (⟨h, fun it => absurd it other⟩ : φ t op)).allIf
  refine Pool.since φ answers (fun (s : Server) e => Entry.In s.db e) (fun op e => e.WrittenBy op)
    ?_ ?_ ?_ (fun _ _ _ _ _ _ hr he => Entry.written hr he)
    (fun _ _ _ _ hc he => by rwa [Server.change_db hc] at he) hp
  · rintro ⟨t, program⟩ hx
    by_cases same : t.conn.userID = u
    · obtain ⟨a, rfl⟩ := idle _ hx same
      trivial
    · exact others t same program (owns _ hx)
  · intro p t ok
    by_cases same : t.conn.userID = u
    · subst same
      exact (handle_keeps distinct direct (ok rfl)).mono (fun _ _ h => h rfl)
        (fun op h => ⟨fun k a content => (h.2 k a content).1, fun _ => h⟩) fun _ => id
    · exact others t same _ handle_owns
  · intro p i c t op res s ok next hr same
    exact (ok t op next same).refuses hr

theorem Entry.WrittenBy.content {e : Entry} {op : Op} (h : e.WrittenBy op) (shown : e.ShownOf u) :
    op.content = some (e.conversationID, u) := by
  cases e with
  | receipt => exact shown.elim
  | row m =>
    cases op <;> first | exact h.elim | skip
    cases (show m = _ from h)
    cases shown
    rfl
  | event key columns =>
    cases op <;> first | exact h.elim | skip
    obtain ⟨rfl, rfl, -⟩ := h
    cases shown
    rfl

theorem mem_eventRows {db : Store} {e : MessageEvent} :
    e ∈ db.eventRows ↔ ∃ key columns, db.events.lookup key = some columns ∧
      columns.event key = e := by
  constructor
  · intro h
    obtain ⟨⟨key, columns⟩, entry, rfl⟩ := List.mem_map.mp h
    exact ⟨key, columns, AList.mem_lookup_iff.mpr entry, rfl⟩
  · rintro ⟨key, columns, found, rfl⟩
    exact List.mem_map.mpr ⟨⟨key, columns⟩, AList.mem_lookup_iff.mp found, rfl⟩

/-- In a run that keeps to `KeepsBlock`, nothing of `u` gets to `v`. -/
theorem blocklist_complete (distinct : u ≠ v) (direct : hasPrefix v "chan_" = false)
    (h₀ : (Pool.machine (gateway S r)).Reachable p₀)
    (idle : ∀ x ∈ p₀.threads, x.1.conn.userID = u → ∃ a, x.2 = .pure a)
    (hp : ((Pool.machine (gateway S r)).resume p₀).Reach (KeepsBlock S r u v) p) :
    Blocked S r u v p₀ p := by
  obtain ⟨later, log, footprint, written⟩ := blocked_since distinct direct h₀ idle hp
  have recorded : p.shared.Recorded := (Pool.safe (shownProtocol S r _) (h₀.of_resume hp)).1
  have stored (e : Entry) (he : e.In p.shared.db)
      (hk : e.conversationID = getConversationID u v) (shown : e.ShownOf u) :
      e.In p₀.shared.db := by
    refine (written e he).resolve_right ?_
    rintro ⟨x, hx, w⟩
    obtain ⟨own, hidden⟩ := footprint x hx
    have content := w.content shown
    exact ((hidden (own _ _ content).symm).2 _ _ content).2 hk
  refine ⟨fun x hx mine addressed => ?_, stored, ?_⟩
  · rw [log, List.drop_left] at hx
    exact ((footprint x hx).2 mine).1 addressed
  · rintro conn data frame trace res t ch messages c rfl read named run sent
    obtain ⟨events, rfl, arrived⟩ := executes_handleFetchHistory read run sent
    refine ⟨_, events, rfl, fun row mem sender => ?_, fun e mem actor => ?_⟩
    · obtain ⟨m, hm, rfl⟩ := List.mem_map.mp mem
      obtain ⟨key, cell, found, hk, rfl⟩ := mem_selectMessages hm
      have held : (Entry.row cell.row).In p.shared.db :=
        ⟨cell, by rw [(recorded key cell found).1]; exact found, rfl⟩
      exact ⟨cell.row, stored _ held (hk.trans named) sender, sender, hk.trans named, rfl, rfl⟩
    · rcases arrived with ⟨-, rfl⟩ | ⟨-, rfl⟩
      · obtain ⟨row, known⟩ := List.mem_filter.mp mem
        simp only [decide_eq_true_eq] at known
        obtain ⟨key, columns, found, rfl⟩ := mem_eventRows.mp row
        exact mem_eventRows.mpr ⟨key, columns,
          stored (.event key columns) found (known.1.trans named) actor, rfl⟩
      · cases mem

end Runs

/-! ## Samples -/

/-- Alice's message to Bob is stored and delivered. -/
def talkRun : Option (Pool (gateway samplePlatform sampleRouter)) :=
  runFrom samplePlatform sampleRouter (fun _ _ => True) sampleClock (helloLabels ++ [
    .run 0 .ok, .run 0 (.answer true), .run 0 .ok, .run 0 .ok, .run 0 (.answer false), .run 0 .ok,
    .run 0 (.answer true)])

theorem talkRun_isSome : talkRun.isSome := by rfl

/-- Bob blocks Alice when nothing is in flight. -/
def talkPool : Pool (gateway samplePlatform sampleRouter) := talkRun.get talkRun_isSome

theorem talkPool_reachable :
    (Pool.machine (gateway samplePlatform sampleRouter)).Reachable talkPool :=
  runFrom_reach (Option.some_get talkRun_isSome).symm

theorem talkPool_idle : ∀ x ∈ talkPool.threads, x.1.conn.userID = "alice" → ∃ a, x.2 = .pure a := by
  have idle : talkPool.threads.all (fun x => x.2.next.isNone) := by rfl
  intro x hx _
  have none := List.all_eq_true.mp idle x hx
  cases h : x.2 with
  | pure a => exact ⟨a, rfl⟩
  | call op k =>
    rw [h] at none
    cases none

/-- Typing frames only, and the block checker says that Bob has blocked Alice. -/
def typesOnly {S : Platform} {r : Router} (p : Pool (gateway S r)) :
    PoolLabel (gateway S r) → Bool
  | .spawn t => match reading S t.conn t.data with
    | .json "typing" _ => r.blockChecker
    | _ => false
  | .run i c => (p.next i).all fun x => match x.2 with
    | .isBlocked _ _ => c = .answer true
    | .queryDedup _ | .queryDedupLegacy _ | .selectAuthor _ _ => false
    | _ => true
  | .env _ => true

theorem typesOnly_keepsBlock {S : Platform} {r : Router} {u v : String} {p : Pool (gateway S r)}
    {l : PoolLabel (gateway S r)} (h : typesOnly p l) : KeepsBlock S r u v p l := by
  cases l with
  | env e => trivial
  | spawn t =>
    intro _ unchecked
    dsimp only [typesOnly] at h
    split at h
    · rename_i taken
      rw [taken] at unchecked
      exact absurd unchecked.1 (by simp [h])
    · cases h
  | run i c =>
    intro t op next _
    simp only [typesOnly, next, Option.all_some] at h
    cases op <;> try trivial
    exact fun _ _ => of_decide_eq_true h

def typingFrame : Bytes :=
  "\x7b\"action\":\"typing\",\"channel_id\":\"bob\",\"is_typing\":true\x7d".toUTF8.data.toList

def goOn (ok : Pool (gateway samplePlatform sampleRouter) →
    PoolLabel (gateway samplePlatform sampleRouter) → Bool)
    (labels : List (PoolLabel (gateway samplePlatform sampleRouter))) :
    Option (Pool (gateway samplePlatform sampleRouter)) :=
  ((Pool.machine _).resume talkPool).follow (fun p l => ok p l) talkPool labels

/-- Bob is not told that Alice types. -/
def blockedRun : Option (Pool (gateway samplePlatform sampleRouter)) :=
  goOn typesOnly [.spawn ⟨⟨"alice", .json⟩, typingFrame⟩, .run 1 (.answer true)]

theorem blockedRun_isSome : blockedRun.isSome := by rfl

theorem blocklist_complete_sample : Blocked samplePlatform sampleRouter "alice" "bob" talkPool
    (blockedRun.get blockedRun_isSome) :=
  blocklist_complete (by decide) (by decide) talkPool_reachable talkPool_idle
    ((Machine.Reach.follow (.start rfl) (Option.some_get blockedRun_isSome).symm).mono
      fun _ _ => typesOnly_keepsBlock)

def receiptFrame : Bytes :=
  "\x7b\"action\":\"read_receipt\",\"channel_id\":\"bob\"\x7d".toUTF8.data.toList

/-- The block checker is asked, if at all, with the answer that Bob has blocked Alice. -/
def BobBlocksAlice (p : Pool (gateway samplePlatform sampleRouter)) :
    PoolLabel (gateway samplePlatform sampleRouter) → Prop
  | .run i c => ∀ t, p.next i = some (t, .isBlocked "bob" "alice") → c = .answer true
  | _ => True

def asksNobody (p : Pool (gateway samplePlatform sampleRouter)) :
    PoolLabel (gateway samplePlatform sampleRouter) → Bool
  | .run i _ => (p.next i).all fun x => match x.2 with
    | .isBlocked _ _ => false
    | _ => true
  | _ => true

theorem asksNobody_blocks {p : Pool (gateway samplePlatform sampleRouter)}
    {l : PoolLabel (gateway samplePlatform sampleRouter)} (h : asksNobody p l) :
    BobBlocksAlice p l := by
  cases l with
  | run i c =>
    intro t next
    simp only [asksNobody, next, Option.all_some] at h
    cases h
  | _ => trivial

def receiptRun : Option (Pool (gateway samplePlatform sampleRouter)) :=
  goOn asksNobody [.spawn ⟨⟨"alice", .json⟩, receiptFrame⟩, .run 1 .ok, .run 1 .ok]

theorem receiptRun_isSome : receiptRun.isSome := by rfl

/-- Alice's receipt reaches Bob. -/
theorem blocked_receipt_arrives : ∃ p₀ p,
    (Pool.machine (gateway samplePlatform sampleRouter)).Reachable p₀ ∧
    ((Pool.machine (gateway samplePlatform sampleRouter)).resume p₀).Reach BobBlocksAlice p ∧
    ¬ Blocked samplePlatform sampleRouter "alice" "bob" p₀ p := by
  refine ⟨talkPool, receiptRun.get receiptRun_isSome, talkPool_reachable,
    (Machine.Reach.follow (.start rfl) (Option.some_get receiptRun_isSome).symm).mono
      fun _ _ => asksNobody_blocks, fun blocked => ?_⟩
  have log : (receiptRun.get receiptRun_isSome).log.drop talkPool.log.length =
      [(⟨⟨"alice", .json⟩, receiptFrame⟩, .now), (⟨⟨"alice", .json⟩, receiptFrame⟩,
        .sendToUser "bob" (.receipt "bob" "alice" "" 0 "read" (unix sampleClock)))] := by rfl
  have taken : reading samplePlatform ⟨"alice", .json⟩ receiptFrame = .json "read_receipt"
      (.object [("action", .string "read_receipt"), ("channel_id", .string "bob")]) := by rfl
  refine blocked.delivered (⟨⟨"alice", .json⟩, receiptFrame⟩, .sendToUser "bob"
    (.receipt "bob" "alice" "" 0 "read" (unix sampleClock))) (by rw [log]; simp) rfl ?_ rfl
  rw [taken]
  exact ⟨"bob", rfl, rfl⟩

end GenChat.Gateway
