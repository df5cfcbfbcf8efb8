import GenChat.Gateway.DirectIsolation

/-!
# Group channels

What a handler can do for a user who is not a member of the channel that the frame names. Only
some of the handlers ask: `pin_message`, `fetch_history` and `group_commit` refuse an outsider,
`send_message` does so after it has stored the message, the others deliver to whatever members they
find. `Exposed` lists the states and frames that let an outsider's frame through.
-/
namespace GenChat.Gateway
open Library Ledger Router

/-! ## Running alone -/

section Alone
variable {α : Type} {S : Platform} {s t : Server} {φ : Op → Prop} {a : α}

/-- The operation may answer `r` and leave `t`. -/
def Answers (S : Platform) (s : Server) (op : Op) (r : Ret op) (t : Server) : Prop :=
  ∃ c, s.exec S op c = some (r, t)

@[simp] theorem may_op {op : Op} {k : Ret op → Proc α} : May (system S) φ (.call op k) s ↔
    φ op ∨ ∃ r t, Answers S s op r t ∧ May (system S) φ (k r) t := by
  rw [may_call]
  refine or_congr_right ⟨?_, ?_⟩
  · rintro ⟨c, r, t, hr, later⟩
    exact ⟨r, t, ⟨c, hr⟩, later⟩
  · rintro ⟨r, t, ⟨c, hr⟩, later⟩
    exact ⟨c, r, t, hr, later⟩

@[simp] theorem reaches_op {op : Op} {k : Ret op → Proc α} :
    Reaches (system S) a t (.call op k) s ↔
      ∃ r u, Answers S s op r u ∧ Reaches (system S) a t (k r) u := by
  rw [reaches_call]
  constructor
  · rintro ⟨c, r, u, hr, later⟩
    exact ⟨r, u, ⟨c, hr⟩, later⟩
  · rintro ⟨r, u, ⟨c, hr⟩, later⟩
    exact ⟨c, r, u, hr, later⟩

@[simp] theorem answers_now {time : Nat} :
    Answers S s .now time t ↔ t = s ∧ time = s.clock := by
  constructor
  · rintro ⟨c, h⟩
    cases c <;> cases h
    exact ⟨rfl, rfl⟩
  · rintro ⟨rfl, rfl⟩
    exact ⟨.ok, rfl⟩

@[simp] theorem answers_getChannelMembers {id : String} {x : Except StoreError (List String)} :
    Answers S s (.getChannelMembers id) x t ↔
      t = s ∧ (x = .error .failed ∨ ∃ ms, s.members S id = some ms ∧ x = .ok ms) := by
  constructor
  · rintro ⟨c, h⟩
    exact Server.getChannelMembers_cases h
  · rintro ⟨rfl, rfl | ⟨ms, found, rfl⟩⟩
    · refine ⟨.fail, ?_⟩
      simp only [Server.exec]
      split <;> rfl
    · exact ⟨.ok, by simp [Server.exec, found]⟩

section Queries
variable {k mid cid : String}

@[simp] theorem answers_queryDedup {msg : Message} {x : Except StoreError (Option DedupRecord)} :
    Answers S s (.queryDedup msg) x t ↔ t = s ∧
      (x = .ok (s.db.selectDedup s.clock msg.conversationID msg.clientMsgID) ∨
        x = .error .failed) := by
  simp [Answers, Server.exec, exists_or]

@[simp] theorem answers_queryDedupLegacy {msg : Message}
    {x : Except StoreError (Option DedupRecord)} :
    Answers S s (.queryDedupLegacy msg) x t ↔ t = s ∧
      (x = .ok ((s.db.selectDedup s.clock msg.conversationID msg.clientMsgID).map
        fun record => { record with sequenceNum := 0 }) ∨ x = .error .failed) := by
  simp [Answers, Server.exec, exists_or]

@[simp] theorem answers_selectMessages {bucket : String} {limit : Int} {before : Option UUID}
    {x : Except StoreError (List StoredMessage)} :
    Answers S s (.selectMessages k bucket limit before) x t ↔ t = s ∧
      (x = .ok (s.db.selectMessages s.clock k bucket limit before) ∨ x = .error .failed) := by
  simp [Answers, Server.exec, exists_or]

@[simp] theorem answers_selectAuthor {x : Except StoreError (Option MessageAuthor)} :
    Answers S s (.selectAuthor k mid) x t ↔
      t = s ∧ (x = .ok (s.db.selectAuthor k mid) ∨ x = .error .failed) := by
  simp [Answers, Server.exec, exists_or]

@[simp] theorem answers_selectEvents {x : Except StoreError (List MessageEvent)} :
    Answers S s (.selectEvents k mid) x t ↔
      t = s ∧ (x = .ok (s.db.selectEvents k mid) ∨ x = .error .failed) := by
  simp [Answers, Server.exec, exists_or]

@[simp] theorem answers_commitEpoch {epoch : Int} {data : Bytes} {x : Except StoreError Unit} :
    Answers S s (.commitEpoch k epoch data) x t ↔ t = s ∧ (x = .ok () ∨ x = .error .failed) := by
  simp [Answers, Server.exec, exists_or]

end Queries

section Signals
variable {method : RpcMethod} {u v : String} {frame : Frame} {b : Bool} {x : Unit}

@[simp] theorem answers_rpcRequest : Answers S s (.rpcRequest method) b t ↔ t = s := by
  simp [Answers, Server.exec]

@[simp] theorem answers_rpcReply : Answers S s (.rpcReply method) b t ↔ t = s := by
  simp [Answers, Server.exec]

@[simp] theorem answers_isBlocked : Answers S s (.isBlocked u v) b t ↔ t = s := by
  simp [Answers, Server.exec]

@[simp] theorem answers_isUserOnlineCluster :
    Answers S s (.isUserOnlineCluster u) b t ↔ t = s := by
  simp [Answers, Server.exec]

@[simp] theorem answers_sendToUser : Answers S s (.sendToUser u frame) x t ↔ t = s := by
  simp [Answers, Server.exec]

end Signals
end Alone

/-! ## Leaks -/

def Frame.showsRows : Frame → Prop
  | .history _ messages => messages ≠ []
  | _ => False

/-- The operation delivers something to somebody else than `u`, writes to the ledger, or shows
stored messages. -/
def Leaks (u : String) : Op → Prop
  | .sendToUser v frame => v ≠ u ∨ frame.showsRows
  | .connSend frame => frame.showsRows
  | .broadcastAll _ _ | .notifyOffline _ _ _ => True
  | .recordAuthor _ _ _ | .insertRow _ | .insertDedup _ _ _ _ _ | .updateDelivered _ _ _ _
  | .updateRead _ _ _ _ | .insertEvent _ _ _ _ _ => True
  | _ => False

/-- No run of the handler leaks. -/
def Isolated (S : Platform) (r : Router) (s : Server) (conn : Conn) (action : String)
    (data : Json) : Prop :=
  ∀ trace res t, Executes (system S) (r.dispatch S conn action data) s trace res t →
    ∀ x ∈ trace, ¬ Leaks conn.userID x.1

/-- The channel is a closed one, and `u` is not a member. -/
structure Outsider (S : Platform) (s : Server) (u ch : String) : Prop where
  channel : hasPrefix ch "chan_" = true
  closed : ch ≠ "chan_public"
  absent : ∀ memberIDs, s.members S (trimPrefix ch "chan_") = some memberIDs → u ∉ memberIDs

theorem Outsider.given {S : Platform} {s : Server} {u ch : String} (h : Outsider S s u ch) :
    ch ≠ "" := by
  rintro rfl
  cases h.channel

theorem Outsider.trimPrefix_ne_public {S : Platform} {s : Server} {u ch : String}
    (h : Outsider S s u ch) : trimPrefix ch "chan_" ≠ "public" := by
  obtain ⟨rest, hrest⟩ := toList_hasPrefix h.channel
  rw [trimPrefix, if_pos h.channel, hrest, List.drop_left]
  intro same
  refine h.closed (String.toList_inj.mp ?_)
  rw [hrest, ← String.toList_ofList (l := rest), same]
  rfl

section Exposed
variable (S : Platform) (r : Router) (s : Server) (conn : Conn)

/-- A member lookup finds somebody in the channel. -/
def Populated (ch : String) : Prop :=
  r.channelClient = true ∧ ∃ memberIDs, s.members S (trimPrefix ch "chan_") = some memberIDs ∧
    memberIDs ≠ []

/-- The sender recorded for the message; `""` if there is none. -/
def authorOf (ch messageID : String) : String :=
  ((s.db.selectAuthor (getConversationID conn.userID ch) messageID).map
    MessageAuthor.senderID).getD ""

/-- The frame is stored as a new message. -/
def InboundFrame.Exposed (frame : InboundFrame) : Prop :=
  frame.clientMsgID ≠ "" ∧ frame.ciphertextB64 ≠ "" ∧
    (Base64.decodeString frame.ciphertextB64).2 = true ∧ r.ledger = true ∧
    s.db.selectDedup s.clock (getConversationID conn.userID frame.channelID)
      frame.clientMsgID = none

def ReactionInboundFrame.Exposed (frame : ReactionInboundFrame) : Prop :=
  orElse frame.targetID frame.targetMsgID ≠ "" ∧ frame.emoji ≠ "" ∧
    Populated S r s frame.channelID

def DeleteMessageInboundFrame.Exposed (frame : DeleteMessageInboundFrame) : Prop :=
  let messageID := orElse frame.messageID frame.clientMsgID
  orElse frame.deleteScope "everyone" = "everyone" ∧ messageID ≠ "" ∧ r.ledger = true ∧
    authorOf s conn frame.channelID messageID ≠ "" ∧
    authorOf s conn frame.channelID messageID = conn.userID

def EditMessageInboundFrame.Exposed (frame : EditMessageInboundFrame) : Prop :=
  let messageID := orElse frame.messageID frame.clientMsgID
  frame.ciphertextB64 ≠ "" ∧ messageID ≠ "" ∧ r.ledger = true ∧
    authorOf s conn frame.channelID messageID ≠ "" ∧
    authorOf s conn frame.channelID messageID = conn.userID

def PinMessageInboundFrame.Exposed (frame : PinMessageInboundFrame) : Prop :=
  let messageID := orElse frame.messageID frame.clientMsgID
  r.channelClient = false ∧ messageID ≠ "" ∧ r.ledger = true ∧
    authorOf s conn frame.channelID messageID ≠ ""

def FetchHistoryFrame.Exposed (frame : FetchHistoryFrame) : Prop :=
  r.channelClient = false ∧ r.ledger = true ∧ historyRows S conn frame s ≠ []

def TypingFrame.Exposed (frame : TypingFrame) : Prop := Populated S r s frame.channelID

def ReadReceiptFrame.Exposed (frame : ReadReceiptFrame) : Prop :=
  let msgID := orElse frame.serverID frame.messageID
  Populated S r s frame.channelID ∨
    r.ledger = true ∧ msgID ≠ "" ∧ S.parseUUID msgID ≠ none ∧
      ReadReceiptFrame.type frame ∈ ["delivered", "read"]

def CallSignalInboundFrame.Exposed (frame : CallSignalInboundFrame) : Prop :=
  frame.callID ≠ "" ∧ frame.signalType ≠ "" ∧
    if isGroupSignal frame.signalType then Populated S r s frame.channelID
    else frame.targetUserID ≠ "" ∧ frame.targetUserID ≠ conn.userID

def EphemeralSettingFrame.Exposed (frame : EphemeralSettingFrame) : Prop :=
  Populated S r s frame.channelID

/-- The frames of an outsider that leak in this state. -/
def Exposed (action : String) (data : Json) : Prop :=
  match action with
  | "send_message" => ∃ frame ∈ InboundFrame.unmarshal data, frame.Exposed r s conn
  | "reaction" => ∃ frame ∈ ReactionInboundFrame.unmarshal data, frame.Exposed S r s
  | "delete_message" => ∃ frame ∈ DeleteMessageInboundFrame.unmarshal data, frame.Exposed r s conn
  | "edit_message" => ∃ frame ∈ EditMessageInboundFrame.unmarshal data, frame.Exposed r s conn
  | "pin_message" => ∃ frame ∈ PinMessageInboundFrame.unmarshal data, frame.Exposed r s conn
  | "fetch_history" => ∃ frame ∈ FetchHistoryFrame.unmarshal data, frame.Exposed S r s conn
  | "typing" => ∃ frame ∈ TypingFrame.unmarshal data, frame.Exposed S r s
  | "read_receipt" => ∃ frame ∈ ReadReceiptFrame.unmarshal data, frame.Exposed S r s
  | "ack_receipt" => ∃ frame ∈ ReadReceiptFrame.unmarshal data, frame.Exposed S r s
  | "call_signal" => ∃ frame ∈ CallSignalInboundFrame.unmarshal data, frame.Exposed S r s conn
  | "ephemeral_setting" => ∃ frame ∈ EphemeralSettingFrame.unmarshal data, frame.Exposed S r s
  | _ => False

end Exposed

/-! ## Shared parts of the handlers -/

section Parts
variable {S : Platform} {r : Router} {s t : Server} {conn : Conn} {ch : String} {frame : Frame}

attribute [local simp] Leaks Frame.showsRows Prog.ite_bind may_ite

@[simp] theorem may_sendError (code msg : String) :
    ¬ May (system S) (Leaks conn.userID) (sendError conn code msg) s := by
  simp [sendError]

/-- Every user of the list is somebody else. -/
theorem may_sendAll {uids : List String} (others : conn.userID ∉ uids) :
    May (system S) (Leaks conn.userID) (sendAll uids frame) s ↔ uids ≠ [] := by
  cases uids with
  | nil => simp [sendAll]
  | cons v rest =>
    have other : v ≠ conn.userID := fun h => others (h ▸ List.mem_cons_self)
    simp [sendAll, other]

theorem may_lookupMembers {α : Type} {f : List String → Proc α}
    (empty : ¬ May (system S) (Leaks conn.userID) (f []) s) :
    May (system S) (Leaks conn.userID) ((r.lookupMembers ch).bind f) s ↔ r.channelClient = true ∧
      ∃ memberIDs, s.members S (trimPrefix ch "chan_") = some memberIDs ∧
        May (system S) (Leaks conn.userID) (f memberIDs) s := by
  unfold lookupMembers
  by_cases client : r.channelClient = true
  · simp [client, empty, or_and_right, exists_or]
  · simp [client, empty]

theorem may_sendOthers {uids : List String} (others : conn.userID ∉ uids) :
    May (system S) (Leaks conn.userID) (sendAll (uids.filter (· ≠ conn.userID)) frame) s ↔
      uids ≠ [] := by
  have all : uids.filter (· ≠ conn.userID) = uids := List.filter_eq_self.mpr fun v hv => by
    simpa using fun h : v = conn.userID => others (h ▸ hv)
  rw [all]
  exact may_sendAll others

theorem Reaches.channelMembers {α : Type} {a : α} {p : Proc α}
    (h : Reaches (system S) a t p s) : t.channelMembers = s.channelMembers := by
  induction p generalizing s with
  | pure b => rw [h.2]
  | call op k ih =>
    obtain ⟨c, x, u, hr, later⟩ := h
    rw [ih x later]
    rcases @Server.exec_cases S _ _ _ _ _ hr with rfl | rfl | ⟨k, -, rfl⟩ | ⟨draft, id, -, -, rfl⟩
      <;> rfl

section Author
variable {k messageID : String} (hk : k ≠ "") (hm : messageID ≠ "")
include hk hm

theorem may_getMessageAuthor {α : Type} {f : Except Status String → Proc α}
    (refused : ∀ err, ¬ May (system S) (Leaks conn.userID) (f (.error err)) s) :
    May (system S) (Leaks conn.userID) ((LedgerClient.getMessageAuthor k messageID).bind f) s ↔
      let authorID := ((s.db.selectAuthor k messageID).map MessageAuthor.senderID).getD ""
      authorID ≠ "" ∧ May (system S) (Leaks conn.userID) (f (.ok authorID)) s := by
  dsimp only
  by_cases known : ((s.db.selectAuthor k messageID).map MessageAuthor.senderID).getD "" = "" <;>
    simp [LedgerClient.getMessageAuthor, rpc, LedgerHandler.getMessageAuthor, hk, hm, known,
      refused]

/-- An event that is recorded leaks, whatever follows. -/
theorem may_recordMessageEvent {α : Type} {type actor : String} {ct : Bytes} (ht : type ≠ "")
    {f : Except Status Unit → Proc α} : May (system S) (Leaks conn.userID)
      ((LedgerClient.recordMessageEvent k messageID type actor ct).bind f) s := by
  simp [LedgerClient.recordMessageEvent, rpc, LedgerHandler.recordMessageEvent, hk, hm, ht]

end Author

theorem may_updateReceipt {k u type messageID : String} {n : Int} :
    May (system S) (Leaks conn.userID) (LedgerClient.updateReceipt S k u type messageID n) s ↔
      S.parseUUID messageID ≠ none ∧ type ∈ ["delivered", "read"] := by
  cases known : S.parseUUID messageID with
  | none => simp [LedgerClient.updateReceipt, rpc, LedgerHandler.updateReceipt, known]
  | some id =>
    by_cases delivered : type = "delivered" <;> by_cases read : type = "read" <;>
      simp [LedgerClient.updateReceipt, rpc, LedgerHandler.updateReceipt, known, delivered, read]

/-- A message that was not stored before is written to the ledger. -/
theorem may_storeMessage {req : StoreMessageRequest}
    (new : s.db.selectDedup s.clock req.conversationId req.clientMsgId = none) :
    May (system S) (Leaks conn.userID) (LedgerClient.storeMessage S req) s := by
  have inserts (row : StoredMessage) (t : Server) :
      May (system S) (Leaks conn.userID) (LedgerHandler.storeNew row) t := by
    by_cases given : row.clientMsgID = "" <;>
      simp [LedgerHandler.storeNew, insertMessage, given]
  have direct : May (system S) (Leaks conn.userID)
      (LedgerHandler.storeMessageDirect S (LedgerHandler.message req)) s := by
    obtain ⟨id, fresh⟩ := s.exists_fresh
    refine .inr ⟨.ok, .ok none, s, ?_, .inr ⟨.ok, .ok _, _, rfl, .inr ⟨.ok, _, _, rfl, ?_⟩⟩⟩
    · simpa [Server.exec, LedgerHandler.message] using new.symm
    · exact .inr ⟨.uuid id, id, _, if_pos fresh, inserts _ _⟩
  refine may_bind.mpr (.inl (.inr ⟨.answer true, true, s, rfl, ?_⟩))
  change May _ _ (Prog.bind (LedgerHandler.storeMessage S req) _) _
  exact may_bind.mpr (.inl (may_bind.mpr (.inl direct)))

theorem may_getDedup {α : Type} {msg : Message}
    {f : Except StoreError (Option DedupRecord) → Proc α} :
    May (system S) (Leaks conn.userID) ((getDedup msg).bind f) s ↔
      let found := s.db.selectDedup s.clock msg.conversationID msg.clientMsgID
      May (system S) (Leaks conn.userID) (f (.ok found)) s ∨
        May (system S) (Leaks conn.userID)
          (f (.ok (found.map fun record => { record with sequenceNum := 0 }))) s ∨
        May (system S) (Leaks conn.userID) (f (.error .failed)) s := by
  simp [getDedup]

/-- A message that was stored before is acknowledged to its sender once more. -/
theorem not_may_storeAndAcknowledge {frame : InboundFrame} {payload : Bytes} {record : DedupRecord}
    (known : s.db.selectDedup s.clock (getConversationID conn.userID frame.channelID)
      frame.clientMsgID = some record) :
    ¬ May (system S) (Leaks conn.userID) (r.storeAndAcknowledge S conn frame payload) s := by
  simp [storeAndAcknowledge, LedgerClient.storeMessage, rpc, LedgerHandler.storeMessage,
    LedgerHandler.storeMessageDirect, LedgerHandler.message, storeRequest, known, may_getDedup,
    LedgerHandler.duplicate, acknowledge, StoredMessage.response]

section Relay
variable (outsider : Outsider S s conn.userID ch)
include outsider

/-- A program that needs members leaks where there are some. -/
theorem may_populated {α : Type} {f : List String → Proc α}
    (members : ∀ memberIDs, conn.userID ∉ memberIDs →
      (May (system S) (Leaks conn.userID) (f memberIDs) s ↔ memberIDs ≠ [])) :
    May (system S) (Leaks conn.userID) ((r.lookupMembers ch).bind f) s ↔ Populated S r s ch := by
  have empty : ¬ May (system S) (Leaks conn.userID) (f []) s := by
    rw [members [] List.not_mem_nil]
    exact fun h => h rfl
  refine (may_lookupMembers empty).trans (and_congr_right fun _ => exists_congr fun memberIDs => ?_)
  exact and_congr_right fun found => members memberIDs (outsider.absent memberIDs found)

theorem may_relayToOthers :
    May (system S) (Leaks conn.userID) (r.relayToOthers conn ch frame) s ↔ Populated S r s ch := by
  refine may_populated outsider fun memberIDs others => ?_
  rw [may_ite, may_sendOthers others, if_neg outsider.closed]
  simp

/-- The members are the same after anything the handler did. -/
theorem may_relayToOthers_after {α : Type} {p : Proc α} {f : α → Server → Frame} :
    (∃ a t, Reaches (system S) a t p s ∧
      May (system S) (Leaks conn.userID) (r.relayToOthers conn ch (f a t)) t) ↔
        Populated S r s ch := by
  have same {a : α} {t : Server} (reach : Reaches (system S) a t p s) :
      May (system S) (Leaks conn.userID) (r.relayToOthers conn ch (f a t)) t ↔
        Populated S r s ch := by
    have members : t.members S = s.members S := by
      funext id
      simp [Server.members, Reaches.channelMembers reach]
    have later : Outsider S t conn.userID ch :=
      ⟨outsider.channel, outsider.closed, by rw [members]; exact outsider.absent⟩
    rw [may_relayToOthers later, Populated, Populated, members]
  constructor
  · rintro ⟨a, t, reach, leak⟩
    exact (same reach).mp leak
  · intro populated
    obtain ⟨trace, a, t, run⟩ := @Executes.exists _ _ _ (system S) (system_live S) p s
    exact ⟨a, t, run.reaches, (same run.reaches).mpr populated⟩

theorem may_relayAndEcho :
    May (system S) (Leaks conn.userID) (r.relayAndEcho conn ch frame) s ↔ Populated S r s ch := by
  rw [relayAndEcho, if_pos outsider.channel]
  refine may_populated outsider fun memberIDs others => ?_
  rw [may_ite, may_sendAll others, if_neg outsider.closed]
  simp

end Relay
end Parts

/-! ## Handlers -/

section Handlers
variable {S : Platform} {r : Router} {s : Server} {conn : Conn} {data : Json} {ch : String}
  (hch : data.readString "channel_id" = some ch) (outsider : Outsider S s conn.userID ch)

attribute [local simp] Leaks Frame.showsRows Prog.ite_bind may_ite may_bind

include hch outsider

theorem may_handleTyping : May (system S) (Leaks conn.userID) (r.handleTyping conn data) s ↔
    ∃ frame ∈ TypingFrame.unmarshal data, frame.Exposed S r s := by
  cases h : TypingFrame.unmarshal data with
  | none => simp [handleTyping, h]
  | some frame =>
    cases hch.symm.trans (TypingFrame.channelID_of_unmarshal h)
    simp [handleTyping, h, outsider.given, outsider.channel, may_relayToOthers outsider,
      TypingFrame.Exposed]

theorem may_handleReaction : May (system S) (Leaks conn.userID) (r.handleReaction conn data) s ↔
    ∃ frame ∈ ReactionInboundFrame.unmarshal data, frame.Exposed S r s := by
  cases h : ReactionInboundFrame.unmarshal data with
  | none => simp [handleReaction, h]
  | some frame =>
    cases hch.symm.trans (ReactionInboundFrame.channelID_of_unmarshal h)
    simp [handleReaction, h, outsider.given, outsider.channel, may_relayAndEcho outsider,
      ReactionInboundFrame.Exposed, and_assoc]

theorem may_handleEphemeralSetting :
    May (system S) (Leaks conn.userID) (r.handleEphemeralSetting conn data) s ↔
      ∃ frame ∈ EphemeralSettingFrame.unmarshal data, frame.Exposed S r s := by
  cases h : EphemeralSettingFrame.unmarshal data with
  | none => simp [handleEphemeralSetting, h]
  | some frame =>
    cases hch.symm.trans (EphemeralSettingFrame.channelID_of_unmarshal h)
    simp [handleEphemeralSetting, h, outsider.given, may_relayAndEcho outsider,
      EphemeralSettingFrame.Exposed]

theorem may_handleCallSignal :
    May (system S) (Leaks conn.userID) (r.handleCallSignal conn data) s ↔
      ∃ frame ∈ CallSignalInboundFrame.unmarshal data, frame.Exposed S r s conn := by
  cases h : CallSignalInboundFrame.unmarshal data with
  | none => simp [handleCallSignal, h]
  | some frame =>
    cases hch.symm.trans (CallSignalInboundFrame.channelID_of_unmarshal h)
    have broadcast (push : Frame) : May (system S) (Leaks conn.userID)
        (r.broadcastSignal conn frame push) s ↔ Populated S r s frame.channelID := by
      have closed : ¬ (frame.channelID = "chan_public" ∨ frame.channelID = "public") := by
        rintro (named | named)
        · exact outsider.closed named
        · have channel := outsider.channel
          rw [named] at channel
          cases channel
      rw [broadcastSignal, if_neg closed, if_pos outsider.channel]
      refine may_populated outsider fun memberIDs others => ?_
      rw [Prog.monad_bind, may_bind, may_sendOthers others]
      simp
    have send (signal : CallSignalPushFrame) : May (system S) (Leaks conn.userID)
        (r.sendSignal conn frame (.callSignal signal)) s ↔
          frame.targetUserID ≠ "" ∧ frame.targetUserID ≠ conn.userID := by
      by_cases self : frame.targetUserID = conn.userID
      · simp [sendSignal, self]
      · by_cases blocker : r.blockChecker <;> by_cases offer : frame.signalType = "offer" <;>
          simp [sendSignal, blocks, self, blocker, offer]
    by_cases group : isGroupSignal frame.signalType <;>
      simp [handleCallSignal, h, outsider.given, CallSignalInboundFrame.Exposed, broadcast, send,
        group, and_assoc]

theorem may_handleReadReceipt :
    May (system S) (Leaks conn.userID) (r.handleReadReceipt S conn data) s ↔
      ∃ frame ∈ ReadReceiptFrame.unmarshal data, frame.Exposed S r s := by
  cases h : ReadReceiptFrame.unmarshal data with
  | none => simp [handleReadReceipt, h]
  | some frame =>
    cases hch.symm.trans (ReadReceiptFrame.channelID_of_unmarshal h)
    simp only [handleReadReceipt, h, outsider.given, outsider.channel, if_false, if_true,
      Prog.monad_bind]
    by_cases recorded : r.ledger = true ∧ orElse frame.serverID frame.messageID ≠ ""
    · simp [recorded, may_updateReceipt, may_relayToOthers_after outsider,
        ReadReceiptFrame.Exposed, or_comm]
    · simp [recorded, may_relayToOthers outsider, ReadReceiptFrame.Exposed]
      exact fun ledger given => absurd ⟨ledger, given⟩ recorded

theorem may_handleDeleteMessage :
    May (system S) (Leaks conn.userID) (r.handleDeleteMessage conn data) s ↔
      ∃ frame ∈ DeleteMessageInboundFrame.unmarshal data, frame.Exposed r s conn := by
  cases h : DeleteMessageInboundFrame.unmarshal data with
  | none => simp [handleDeleteMessage, h]
  | some frame =>
    cases hch.symm.trans (DeleteMessageInboundFrame.channelID_of_unmarshal h)
    have key := getConversationID_ne_empty (u := conn.userID) outsider.given
    by_cases hm : orElse frame.messageID frame.clientMsgID = ""
    · simp [handleDeleteMessage, h, outsider.given, DeleteMessageInboundFrame.Exposed, hm]
    · have delete {f : Unit → Handled} : May (system S) (Leaks conn.userID) ((r.deleteForEveryone
          conn frame.channelID (orElse frame.messageID frame.clientMsgID)).bind f) s := by
        rw [deleteForEveryone, Prog.monad_bind, Prog.bind_assoc]
        exact may_recordMessageEvent key hm (by decide)
      simp [handleDeleteMessage, h, outsider.given, DeleteMessageInboundFrame.Exposed, hm,
        may_getMessageAuthor key hm, delete, authorOf]

theorem may_handleEditMessage :
    May (system S) (Leaks conn.userID) (r.handleEditMessage conn data) s ↔
      ∃ frame ∈ EditMessageInboundFrame.unmarshal data, frame.Exposed r s conn := by
  cases h : EditMessageInboundFrame.unmarshal data with
  | none => simp [handleEditMessage, h]
  | some frame =>
    cases hch.symm.trans (EditMessageInboundFrame.channelID_of_unmarshal h)
    have key := getConversationID_ne_empty (u := conn.userID) outsider.given
    by_cases hm : orElse frame.messageID frame.clientMsgID = ""
    · simp [handleEditMessage, h, outsider.given, EditMessageInboundFrame.Exposed, hm]
    · have edit : May (system S) (Leaks conn.userID) (r.applyEditMessage conn frame
          (orElse frame.messageID frame.clientMsgID)) s :=
        may_recordMessageEvent key hm (by decide)
      simp [handleEditMessage, h, outsider.given, EditMessageInboundFrame.Exposed, hm,
        may_getMessageAuthor key hm, edit, authorOf]

theorem may_handlePinMessage :
    May (system S) (Leaks conn.userID) (r.handlePinMessage conn data) s ↔
      ∃ frame ∈ PinMessageInboundFrame.unmarshal data, frame.Exposed r s conn := by
  cases h : PinMessageInboundFrame.unmarshal data with
  | none => simp [handlePinMessage, h]
  | some frame =>
    cases hch.symm.trans (PinMessageInboundFrame.channelID_of_unmarshal h)
    have key := getConversationID_ne_empty (u := conn.userID) outsider.given
    have operation : PinMessageInboundFrame.operation frame ≠ "" := by
      unfold PinMessageInboundFrame.operation
      split <;> simp
    by_cases hm : orElse frame.messageID frame.clientMsgID = ""
    · simp [handlePinMessage, h, outsider.given, PinMessageInboundFrame.Exposed, hm]
    by_cases client : r.channelClient = true
    · -- The members are looked up, and the outsider is refused.
      simp [handlePinMessage, h, outsider.given, PinMessageInboundFrame.Exposed, hm, client,
        outsider.channel, outsider.closed]
      exact fun memberIDs found present => absurd present (outsider.absent memberIDs found)
    · have pin {f : Except Status Unit → Handled} :=
        @may_recordMessageEvent S s conn _ _ key hm _ _ conn.userID [] operation f
      simp [handlePinMessage, h, outsider.given, PinMessageInboundFrame.Exposed, hm, client,
        pinVerified, may_getMessageAuthor key hm, authorOf, pin]

theorem may_handleGroupCommit :
    ¬ May (system S) (Leaks conn.userID) (r.handleGroupCommit conn data) s := by
  cases h : GroupCommitFrame.unmarshal data with
  | none => simp [handleGroupCommit, h]
  | some frame =>
    cases hch.symm.trans (GroupCommitFrame.channelID_of_unmarshal h)
    have silent (commitBytes : Bytes) :
        ¬ May (system S) (Leaks conn.userID) (r.relayCommit conn frame commitBytes []) s := by
      by_cases client : r.channelClient = true <;> simp [relayCommit, client, outsider.closed]
    by_cases missing : frame.channelID = "" ∨ frame.commitData = ""
    · simp [handleGroupCommit, h, missing]
    · simp only [handleGroupCommit, h, missing, if_false, Prog.monad_bind]
      rw [may_lookupMembers (by simpa using silent _)]
      rintro ⟨-, memberIDs, found, leak⟩
      by_cases empty : memberIDs = []
      · simp [empty, silent] at leak
      · rw [if_pos ⟨empty, outsider.absent _ found, outsider.trimPrefix_ne_public⟩] at leak
        exact may_sendError _ _ leak

theorem may_handleFetchHistory :
    May (system S) (Leaks conn.userID) (r.handleFetchHistory S conn data) s ↔
      ∃ frame ∈ FetchHistoryFrame.unmarshal data, frame.Exposed S r s conn := by
  cases h : FetchHistoryFrame.unmarshal data with
  | none => simp [handleFetchHistory, h]
  | some frame =>
    cases hch.symm.trans (FetchHistoryFrame.channelID_of_unmarshal h)
    have respond : May (system S) (Leaks conn.userID) (respondHistory S conn frame) s ↔
        historyRows S conn frame s ≠ [] := by
      have key := getConversationID_ne_empty (u := conn.userID) outsider.given
      by_cases bucket : S.formatBucket s.clock = "" <;>
        simp [respondHistory, LedgerClient.fetchMessages, LedgerHandler.fetchMessages, rpc, bucket,
          historyRows, LedgerClient.fetchMessageEvents, LedgerHandler.fetchMessageEvents, key]
    by_cases client : r.channelClient = true
    · simp [handleFetchHistory, h, outsider.given, FetchHistoryFrame.Exposed, client,
        outsider.channel, outsider.trimPrefix_ne_public]
      exact fun _ memberIDs found present => absurd present (outsider.absent memberIDs found)
    · simp [handleFetchHistory, h, outsider.given, FetchHistoryFrame.Exposed, client, respond]

theorem may_handleSendMessage :
    May (system S) (Leaks conn.userID) (r.handleSendMessage S conn data) s ↔
      ∃ frame ∈ InboundFrame.unmarshal data, frame.Exposed r s conn := by
  cases h : InboundFrame.unmarshal data with
  | none => simp [handleSendMessage, h]
  | some frame =>
    cases hch.symm.trans (InboundFrame.channelID_of_unmarshal h)
    have store : May (system S) (Leaks conn.userID)
        (r.storeAndAcknowledge S conn frame (Base64.decodeString frame.ciphertextB64).1) s ↔
          s.db.selectDedup s.clock (getConversationID conn.userID frame.channelID)
            frame.clientMsgID = none := by
      cases known : s.db.selectDedup s.clock (getConversationID conn.userID frame.channelID)
          frame.clientMsgID with
      | none => exact iff_of_true (may_bind.mpr (.inl (may_storeMessage known))) rfl
      | some record => exact iff_of_false (not_may_storeAndAcknowledge known) nofun
    simp [handleSendMessage, h, outsider.given, InboundFrame.Exposed, store, and_assoc]

end Handlers

/-! ## Isolation -/

/-- A frame for a channel that its sender is no member of delivers nothing to others, writes
nothing to the ledger and shows no stored message, in every run of its handler, exactly if it is
not exposed. -/
theorem channel_isolation {S : Platform} {r : Router} {s : Server} {conn : Conn} {action : String}
    {data : Json} {ch : String} (hch : data.readString "channel_id" = some ch)
    (outsider : Outsider S s conn.userID ch) :
    Isolated S r s conn action data ↔ ¬ Exposed S r s conn action data := by
  refine (executes_avoid (system_live S)).trans (not_congr ?_)
  unfold dispatch
  split
  · exact may_handleSendMessage hch outsider
  · exact may_handleReaction hch outsider
  · exact may_handleDeleteMessage hch outsider
  · exact may_handleEditMessage hch outsider
  · exact may_handlePinMessage hch outsider
  · exact iff_of_false (may_handleGroupCommit hch outsider) id
  · exact iff_of_false (may_handleGroupCommit hch outsider) id
  · exact may_handleFetchHistory hch outsider
  · exact may_handleTyping hch outsider
  · exact may_handleReadReceipt hch outsider
  · exact may_handleReadReceipt hch outsider
  · exact may_handleCallSignal hch outsider
  · exact may_handleEphemeralSetting hch outsider
  · refine iff_of_false (fun h => ?_) id
    simp [handlePing, Leaks, Frame.showsRows] at h
  · refine iff_of_false (may_sendError _ _) ?_
    unfold Exposed
    split <;> first | contradiction | exact id

/-! ## Samples -/

def sampleChannel : String := "chan_cf841680-0790-11ef-8000-00155d000002"

/-- The channel has two members. -/
def membersRun : Option (Pool (gateway samplePlatform sampleRouter)) :=
  runFrom samplePlatform sampleRouter (fun _ _ => True) sampleClock
    [.env (.setMembers "cf841680-0790-11ef-8000-00155d000002" ["alice", "bob"])]

def membersServer : Server := (membersRun.get (by rfl)).shared

theorem mallory_outsider : Outsider samplePlatform membersServer "mallory" sampleChannel where
  channel := by decide
  closed := by decide
  absent memberIDs found := by
    cases found
    decide

def outsiderPin : Json := .object [("action", .string "pin_message"),
  ("channel_id", .string sampleChannel), ("message_id", .string "c1")]

/-- Mallory cannot pin a message there. -/
theorem channel_isolation_sample : Isolated samplePlatform sampleRouter membersServer
    ⟨"mallory", .json⟩ "pin_message" outsiderPin :=
  (channel_isolation (by rfl : outsiderPin.readString "channel_id" = some sampleChannel)
    mallory_outsider).mpr fun ⟨_, _, exposed⟩ => absurd exposed.1 (by decide)

def outsiderReaction : Json := .object [("action", .string "reaction"),
  ("channel_id", .string sampleChannel), ("target_id", .string "c1"), ("emoji", .string "+1")]

/-- The members get Mallory's reaction. -/
theorem outsider_reacts : ∃ p, (Pool.machine (gateway samplePlatform sampleRouter)).Reachable p ∧
    outsiderReaction.readString "channel_id" = some sampleChannel ∧
    Outsider samplePlatform p.shared "mallory" sampleChannel ∧
    ¬ Isolated samplePlatform sampleRouter p.shared ⟨"mallory", .json⟩ "reaction"
      outsiderReaction := by
  refine ⟨membersRun.get (by rfl), runFrom_reach (Option.some_get _).symm, by rfl,
    mallory_outsider, fun isolated => ?_⟩
  have run : Executes (system samplePlatform) (sampleRouter.dispatch samplePlatform
      ⟨"mallory", .json⟩ "reaction" outsiderReaction) membersServer _ _ _ :=
    Executes.of_play [.ok, .ok, .ok, .ok] (by rfl)
  exact isolated _ _ _ run (.sendToUser "alice" _, .ok) (.tail _ (.tail _ (.head _)))
    (.inl (by decide))

end GenChat.Gateway
