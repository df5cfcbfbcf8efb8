import GenChat.Gateway.Router

/-!
# What the handlers may do

Footprints of the handlers. Most of them only look things up and deliver frames that no result
about the ledger mentions (`Op.plain`); `Routine` adds the receipts and pins that are filed under
a conversation of the user. `handle_cases` reduces a claim about every inbound frame to these and
to the handlers that store, edit, delete or read messages.
-/
namespace GenChat.Gateway
open Library Ledger

/-! ## Kinds of operations -/

/-- The operation leaves the server as it is. -/
def Op.silent : Op → Prop
  | .incrSeq _ | .newUUID _ | .recordAuthor _ _ _ | .insertRow _ | .insertDedup _ _ _ _ _
  | .updateDelivered _ _ _ _ | .updateRead _ _ _ _ | .insertEvent _ _ _ _ _ => False
  | _ => True

/-- Frames that neither acknowledge a message nor show one, nor report an edit or a deletion. -/
def Frame.plain : Frame → Prop
  | .ack _ _ _ | .history _ _ | .messageDeleted _ _ _ _ | .ackDelete _ _ _
  | .messageEdited _ _ _ _ _ | .ackEdit _ _ _ => False
  | .protoActionAck _ _ _ _ success _ _ => success = false
  | _ => True

def Op.plain : Op → Prop
  | .sendToUser _ frame | .connSend frame | .broadcastAll _ frame => frame.plain
  | op => op.silent

theorem Op.plain.silent {op : Op} (h : op.plain) : op.silent := by
  cases op <;> first | exact h | trivial

theorem Server.exec_silent {S : Platform} {s s' : Server} {op : Op} {c : Choice} {r : Ret op}
    (silent : op.silent) (h : s.exec S op c = some (r, s')) : s' = s := by
  cases op with
  | now =>
    cases c <;> cases h
    rfl
  | getChannelMembers id => exact (getChannelMembers_cases h).1
  | queryDedup | queryDedupLegacy | selectMessages | selectAuthor | selectEvents | commitEpoch =>
    exact (query_eq_some.mp h).1
  | rpcRequest | rpcReply | isBlocked | isUserOnlineCluster => exact (ask_eq_some.mp h).2
  | sendToUser | connSend | broadcastAll | notifyOffline => exact (done_eq_some.mp h).2
  | incrSeq | newUUID | recordAuthor | insertRow | insertDedup | updateDelivered | updateRead
  | insertEvent => exact silent.elim

/-- Receipts and pins of `u`, in conversations that `u` can name. -/
def Routine (u : String) : Op → Prop
  | .updateDelivered k user _ _ | .updateRead k user _ _ =>
    user = u ∧ ∃ ch, ch ≠ "" ∧ k = getConversationID u ch
  | .insertEvent k _ type actor _ =>
    actor = u ∧ type ∈ ["pin", "unpin"] ∧ ∃ ch, ch ≠ "" ∧ k = getConversationID u ch
  | op => op.plain

theorem Op.plain.routine {u : String} {op : Op} (h : op.plain) : Routine u op := by
  cases op <;> first | exact h | exact h.elim

/-- Frames that do not acknowledge or show a message. -/
def Frame.announces : Frame → Prop
  | .ack _ _ _ | .history _ _ => False
  | .protoActionAck _ _ _ _ success _ _ => success = false
  | _ => True

theorem Frame.plain.announces {frame : Frame} (h : frame.plain) : frame.announces := by
  cases frame <;> first | exact h | trivial

/-- Receipts and events of `u`, in conversations that `u` can name, with their frames. -/
def Annotates (u : String) : Op → Prop
  | .updateDelivered k user _ _ | .updateRead k user _ _ =>
    user = u ∧ ∃ ch, ch ≠ "" ∧ k = getConversationID u ch
  | .insertEvent k _ _ actor _ => actor = u ∧ ∃ ch, ch ≠ "" ∧ k = getConversationID u ch
  | .sendToUser _ frame | .connSend frame | .broadcastAll _ frame => frame.announces
  | op => op.silent

theorem Op.plain.annotates {u : String} {op : Op} (h : op.plain) : Annotates u op := by
  cases op <;> first | exact h | exact h.elim | exact Frame.plain.announces h

theorem Routine.annotates {u : String} {op : Op} (h : Routine u op) : Annotates u op := by
  cases op <;> first | exact h | exact h.elim | exact ⟨h.1, h.2.2⟩ | exact Frame.plain.announces h

/-! ## Shared parts of the handlers -/

namespace Router
variable {S : Platform} {r : Router} {conn : Conn} {φ : Op → Prop} {frame : Frame}

theorem sendError_all (code msg : String) : (sendError conn code msg).All Op.plain :=
  ⟨trivial, fun _ => trivial⟩

theorem sendAll_all (send : ∀ u, φ (.sendToUser u frame)) (uids : List String) :
    (sendAll uids frame).All φ := by
  induction uids with
  | nil => trivial
  | cons uid rest ih => exact ⟨send uid, fun _ => ih⟩

theorem lookupMembers_all (lookup : ∀ id, φ (.getChannelMembers id)) (channelID : String) :
    (r.lookupMembers channelID).All φ := by
  unfold lookupMembers
  split
  · exact ⟨lookup _, fun found => by cases found <;> trivial⟩
  · trivial

section Relay
variable (lookup : ∀ id, φ (.getChannelMembers id)) (send : ∀ u, φ (.sendToUser u frame))
  (broadcast : ∀ u, φ (.broadcastAll u frame))
include lookup send broadcast

theorem relayToOthers_all (channelID : String) :
    (r.relayToOthers conn channelID frame).All φ := by
  refine (lookupMembers_all lookup channelID).bind fun memberIDs => ?_
  split
  · exact sendAll_all send _
  · split
    · exact ⟨broadcast _, fun _ => trivial⟩
    · trivial

theorem relayAndEcho_all (channelID : String) : (r.relayAndEcho conn channelID frame).All φ := by
  unfold relayAndEcho
  split
  · refine (lookupMembers_all lookup channelID).bind fun memberIDs => ?_
    split
    · exact sendAll_all send _
    · split
      · exact ⟨broadcast _, fun _ => trivial⟩
      · trivial
  · refine ⟨send _, fun _ => ?_⟩
    split
    · exact ⟨send _, fun _ => trivial⟩
    · trivial

end Relay

theorem blocks_all (h : ∀ blocker blocked, φ (.isBlocked blocker blocked))
    (blocker blocked : String) : (r.blocks blocker blocked).All φ := by
  unfold blocks
  split
  · exact ⟨h _ _, fun _ => trivial⟩
  · trivial

end Router

/-! ## Calls of the ledger -/

section Ledger
variable {S : Platform} {φ : Op → Prop}

/-- The operations of storing a message. -/
def Stores (req : StoreMessageRequest) : Op → Prop
  | .queryDedup msg | .queryDedupLegacy msg => msg = LedgerHandler.message req
  | .incrSeq k => k = req.conversationId
  | .newUUID draft => ∃ seq now, draft = LedgerHandler.draft S (LedgerHandler.message req) seq now
  | .recordAuthor k _ u => k = req.conversationId ∧ u = req.senderId
  | .insertRow row => ∃ seq now id,
    row = { LedgerHandler.draft S (LedgerHandler.message req) seq now with messageID := id }
  | .insertDedup k clientMsgID _ _ ttlSec =>
    k = req.conversationId ∧ clientMsgID = req.clientMsgId ∧ ttlSec = req.ephemeralTtlSec
  | .now | .rpcRequest .storeMessage | .rpcReply .storeMessage => True
  | _ => False

theorem getDedup_all (req : StoreMessageRequest) :
    (getDedup (LedgerHandler.message req)).All (Stores (S := S) req) := by
  refine ⟨rfl, fun found => ?_⟩
  cases found with
  | ok record => trivial
  | error err => exact ⟨rfl, fun found => by cases found <;> trivial⟩

theorem storeNew_all {row : StoredMessage}
    (author : ∀ mid, φ (.recordAuthor row.conversationID mid row.senderID))
    (insert : φ (.insertRow row))
    (dedup : φ (.insertDedup row.conversationID row.clientMsgID row.messageID row.sequenceNum
      row.ephemeralTTLSec)) : (LedgerHandler.storeNew row).All φ := by
  have inserts : (insertMessage row).All φ := by
    unfold insertMessage
    split
    · exact ⟨author _, fun _ => ⟨author _, fun _ => ⟨insert, fun _ => trivial⟩⟩⟩
    · exact ⟨author _, fun _ => ⟨insert, fun _ => trivial⟩⟩
  refine inserts.bind fun stored => ?_
  cases stored with
  | error err => trivial
  | ok => exact ⟨dedup, fun _ => trivial⟩

theorem storeMessage_all (req : StoreMessageRequest) :
    (LedgerClient.storeMessage S req).All (Stores (S := S) req) := by
  have direct : (LedgerHandler.storeMessageDirect S (LedgerHandler.message req)).All
      (Stores (S := S) req) := by
    refine (getDedup_all req).bind fun found => ?_
    rcases found with err | _ | dedup
    · trivial
    · refine ⟨rfl, fun counted => ?_⟩
      cases counted with
      | error err => trivial
      | ok seq =>
        exact ⟨trivial, fun now => ⟨⟨seq, now, rfl⟩, fun id =>
          storeNew_all (fun _ => ⟨rfl, rfl⟩) ⟨seq, now, id, rfl⟩ ⟨rfl, rfl, rfl⟩⟩⟩
    · trivial
  have store : (LedgerHandler.storeMessage S req).All (Stores (S := S) req) :=
    direct.bind fun answer => by cases answer <;> trivial
  refine (all_rpc trivial trivial store).bind fun answer => ?_
  cases answer with
  | error err =>
    dsimp only
    split <;> trivial
  | ok resp => trivial

section AllIf
variable {ok : (op : Op) → Ret op → Prop}

theorem allIf_rpc {α : Type} {method : RpcMethod} {handler : Proc (Except Status α)}
    {Q : Except Status α → Prop} (request : φ (.rpcRequest method)) (reply : φ (.rpcReply method))
    (lost : ok (.rpcRequest method) false → ∀ err, Q (.error err))
    (late : ok (.rpcReply method) false → ∀ err, Q (.error err)) (h : handler.AllIf ok φ Q) :
    (rpc method handler).AllIf ok φ Q := by
  refine ⟨request, fun reached hr => ?_⟩
  cases reached with
  | false => exact lost hr _
  | true =>
    refine h.bind fun answer known => ⟨reply, fun arrived hr => ?_⟩
    cases arrived with
    | false => exact late hr _
    | true => exact known

theorem storeNew_allIf {row : StoredMessage} {lost : Prop}
    (author : ∀ mid, φ (.recordAuthor row.conversationID mid row.senderID))
    (insert : φ (.insertRow row))
    (dedup : φ (.insertDedup row.conversationID row.clientMsgID row.messageID row.sequenceNum
      row.ephemeralTTLSec)) (inserted : ok (.insertRow row) (.ok ()) → ¬ lost) :
    (LedgerHandler.storeNew row).AllIf ok φ fun answer => lost → ∀ m, answer ≠ .ok m := by
  have inserts : (insertMessage row).AllIf ok φ fun stored => stored = .ok () → ¬ lost := by
    have insert : (Prog.call (.insertRow row) .pure : Proc (Except StoreError Unit)).AllIf ok φ
        fun stored => stored = .ok () → ¬ lost :=
      ⟨insert, fun stored hr same => inserted (same ▸ hr)⟩
    unfold insertMessage
    split
    · exact ⟨author _, fun _ _ => ⟨author _, fun _ _ => insert⟩⟩
    · exact ⟨author _, fun _ _ => insert⟩
  refine inserts.bind fun stored known => ?_
  cases stored with
  | error err => exact fun _ _ => nofun
  | ok => exact ⟨dedup, fun _ _ gone => absurd gone (known rfl)⟩

/-- A message is stored before, or it is stored now; the answer is a deduplicated one where the
query finds a record (`hit`) or the row is not inserted (`lost`). -/
theorem storeMessage_allIf {req : StoreMessageRequest} {hit lost : Prop}
    (request : φ (.rpcRequest .storeMessage)) (reply : φ (.rpcReply .storeMessage))
    (query : φ (.queryDedup (LedgerHandler.message req)))
    (legacy : φ (.queryDedupLegacy (LedgerHandler.message req)))
    (found : ok (.queryDedup (LedgerHandler.message req)) (.ok none) → ¬ hit)
    (foundLegacy : ok (.queryDedupLegacy (LedgerHandler.message req)) (.ok none) → ¬ hit)
    (inserted : ∀ row, Stores (S := S) req (.insertRow row) → ok (.insertRow row) (.ok ()) → ¬ lost)
    (new : ¬ hit → ∀ op, Stores (S := S) req op → φ op) :
    (LedgerClient.storeMessage S req).AllIf ok φ fun answer => hit ∨ lost → ∀ stored,
      answer = .ok stored → stored.deduplicated = true := by
  have dedup : (getDedup (LedgerHandler.message req)).AllIf ok φ fun found =>
      found = .ok none → ¬ hit := by
    refine ⟨query, fun answer hr => ?_⟩
    cases answer with
    | ok record =>
      rintro ⟨⟩
      exact found hr
    | error err =>
      refine ⟨legacy, fun answer hr => ?_⟩
      cases answer with
      | ok record =>
        rintro ⟨⟩
        exact foundLegacy hr
      | error err => exact nofun
  have direct : (LedgerHandler.storeMessageDirect S (LedgerHandler.message req)).AllIf ok φ
      fun answer => hit ∨ lost → ∀ m, answer = .ok m → m.deduplicated = true := by
    refine dedup.bind fun found known => ?_
    rcases found with err | _ | record
    · exact fun _ _ => nofun
    · have miss := known rfl
      refine ⟨new miss _ rfl, fun counted _ => ?_⟩
      cases counted with
      | error err => exact fun _ _ => nofun
      | ok seq =>
        refine ⟨new miss _ trivial, fun now _ => ⟨new miss _ ⟨seq, now, rfl⟩, fun msgID _ => ?_⟩⟩
        exact (storeNew_allIf (fun _ => new miss _ ⟨rfl, rfl⟩) (new miss _ ⟨seq, now, msgID, rfl⟩)
          (new miss _ ⟨rfl, rfl, rfl⟩) (inserted _ ⟨seq, now, msgID, rfl⟩)).mono (fun _ _ => id)
          (fun _ => id) fun answer known it m same => absurd same (known (it.resolve_left miss) m)
    · rintro - _ ⟨⟩
      rfl
  have store : (LedgerHandler.storeMessage S req).AllIf ok φ fun answer => hit ∨ lost → ∀ resp,
      answer = .ok resp → resp.deduplicated = true := by
    refine direct.bind fun answer known => ?_
    cases answer with
    | error err => exact fun _ _ => nofun
    | ok m =>
      rintro it _ ⟨⟩
      exact known it m rfl
  refine (allIf_rpc request reply (fun _ _ _ _ => nofun) (fun _ _ _ _ => nofun) store).bind
    fun answer known => ?_
  cases answer with
  | error err =>
    dsimp only
    split
    · rintro - _ ⟨⟩
      rfl
    · exact fun _ _ => nofun
  | ok resp =>
    rintro it _ ⟨⟩
    exact known it resp rfl

end AllIf

theorem getMessageAuthor_all (k mid : String) :
    (LedgerClient.getMessageAuthor k mid).All Op.plain := by
  refine all_rpc trivial trivial ?_
  unfold LedgerHandler.getMessageAuthor
  split
  · trivial
  · refine ⟨trivial, fun found => ?_⟩
    cases found with
    | error err => trivial
    | ok author =>
      dsimp only [Prog.pure_bind]
      split <;> trivial

theorem recordMessageEvent_all {k mid type actor : String} {ct : Bytes}
    (insert : φ (.insertEvent k mid type actor ct)) (plain : ∀ op, Op.plain op → φ op) :
    (LedgerClient.recordMessageEvent k mid type actor ct).All φ := by
  refine all_rpc (plain _ trivial) (plain _ trivial) ?_
  unfold LedgerHandler.recordMessageEvent
  split
  · trivial
  · exact ⟨insert, fun found => by cases found <;> trivial⟩

theorem updateReceipt_all {u ch : String} (hch : ch ≠ "") (type mid : String) (n : Int) :
    (LedgerClient.updateReceipt S (getConversationID u ch) u type mid n).All (Routine u) := by
  refine all_rpc trivial trivial ?_
  unfold LedgerHandler.updateReceipt
  split
  · trivial
  · split
    · exact ⟨⟨rfl, ch, hch, rfl⟩, fun found => by cases found <;> trivial⟩
    · split
      · exact ⟨⟨rfl, ch, hch, rfl⟩, fun found => by cases found <;> trivial⟩
      · trivial

end Ledger

namespace Router
variable {S : Platform} {r : Router} {conn : Conn}

/-! ## Handlers without a trace -/

attribute [local simp] Prog.ite_bind Prog.all_ite Op.plain Op.silent sendError_all

theorem relay_all {frame : Frame} (plain : frame.plain) (ch : String) :
    ((r.relayAndEcho conn ch frame).bind fun _ => .pure (.ok ()) : Handled).All Op.plain :=
  (relayAndEcho_all (fun _ => trivial) (fun _ => plain) (fun _ => plain) ch).bind fun _ => trivial

theorem handleReaction_all (data : Json) : (r.handleReaction conn data).All Op.plain := by
  unfold handleReaction
  split
  · simp
  · have relay (ch target u emoji op : String) (time : Nat) :=
      @relay_all r conn (.reaction ch target u emoji op time) trivial
    simp [blocks, relay]

theorem handleTyping_all (data : Json) : (r.handleTyping conn data).All Op.plain := by
  unfold handleTyping
  split
  · trivial
  · have relay (ch u : String) (isTyping : Bool) :
        ((r.relayToOthers conn ch (.typing ch u isTyping)).bind fun _ => .pure (.ok ()) :
          Handled).All Op.plain :=
      (relayToOthers_all (fun _ => trivial) (fun _ => trivial) (fun _ => trivial) _).bind
        fun _ => trivial
    simp [blocks, Frame.plain, relay]

theorem broadcastSignal_all {push : Frame} (plain : push.plain) (frame : CallSignalInboundFrame) :
    (r.broadcastSignal conn frame push).All Op.plain := by
  unfold broadcastSignal
  split
  · exact ⟨plain, fun _ => trivial⟩
  · split
    · exact (lookupMembers_all (fun _ => trivial) _).bind fun memberIDs =>
        (sendAll_all (fun _ => plain) _).bind fun _ => trivial
    · exact ⟨plain, fun _ => trivial⟩

theorem sendSignal_all {push : Frame} (plain : push.plain) (frame : CallSignalInboundFrame) :
    (r.sendSignal conn frame push).All Op.plain := by
  have offline (frame : CallSignalPushFrame) : (Frame.callSignal frame).plain := trivial
  simp [sendSignal, blocks, plain, offline]

theorem handleCallSignal_all (data : Json) : (r.handleCallSignal conn data).All Op.plain := by
  unfold handleCallSignal
  split
  · simp
  · rename_i frame _
    have broadcast (signal : CallSignalPushFrame) :=
      @broadcastSignal_all r conn (.callSignal signal) trivial frame
    have send (signal : CallSignalPushFrame) :=
      @sendSignal_all r conn (.callSignal signal) trivial frame
    simp [broadcast, send]

theorem handleEphemeralSetting_all (data : Json) :
    (r.handleEphemeralSetting conn data).All Op.plain := by
  unfold handleEphemeralSetting
  split
  · simp
  · have relay (ch u : String) (ttl : Int) (time : Nat) :=
      @relay_all r conn (.ephemeralSetting ch ttl u time) trivial
    simp [relay]

theorem commitToMembers_all {push : Frame} (plain : push.plain) (memberIDs : List String) :
    (commitToMembers conn push memberIDs).All Op.plain := by
  induction memberIDs with
  | nil => trivial
  | cons uid rest ih => simp [commitToMembers, plain, ih]

theorem handleGroupCommit_all (data : Json) : (r.handleGroupCommit conn data).All Op.plain := by
  unfold handleGroupCommit
  split
  · simp
  · rename_i frame _
    have commit (ch u d : String) (epoch : Int) (time : Nat) (memberIDs : List String) :
        ((commitToMembers conn (.groupCommit ch u epoch d time) memberIDs).bind
          fun _ => .pure (.ok ()) : Handled).All Op.plain :=
      (commitToMembers_all (by trivial) _).bind fun _ => trivial
    have relay (commitBytes : Bytes) (memberIDs : List String) :
        (r.relayCommit conn frame commitBytes memberIDs).All Op.plain := by
      simp [relayCommit, commit, Frame.plain]
    simp only [Prog.all_ite, sendError_all, implies_true, true_and]
    refine fun _ => (lookupMembers_all (fun _ => trivial) _).bind fun memberIDs => ?_
    split
    · simp
    · exact relay _ _

theorem handlePing_all : (handlePing conn).All Op.plain := ⟨trivial, fun _ => trivial⟩

theorem sendProtoError_all (reqID code msg : String) :
    (sendProtoError reqID code msg).All Op.plain := ⟨trivial, fun _ => ⟨rfl, fun _ => trivial⟩⟩

theorem handleProtoTyping_all (act : TypingIndicatorAction) :
    (handleProtoTyping conn act).All Op.plain := ⟨trivial, fun _ => ⟨trivial, fun _ => trivial⟩⟩

theorem handleProtoReceipt_all (act : AckReceiptAction) :
    (handleProtoReceipt conn act).All Op.plain := ⟨trivial, fun _ => ⟨trivial, fun _ => trivial⟩⟩

/-! ## Receipts and pins -/

theorem handleReadReceipt_all (data : Json) :
    (r.handleReadReceipt S conn data).All (Routine conn.userID) := by
  unfold handleReadReceipt
  split
  · trivial
  · rename_i frame _
    dsimp only
    split
    · trivial
    · rename_i hch
      have push (msgID : String) (n : Int) (type : String) (time : Nat) :
          (if hasPrefix frame.channelID "chan_" then
            (r.relayToOthers conn frame.channelID (.receipt frame.channelID conn.userID msgID n
              type time)).bind fun _ => .pure (.ok ())
          else .call (.sendToUser frame.channelID (.receipt frame.channelID conn.userID msgID n
            type time)) fun _ => .pure (.ok ()) : Handled).All (Routine conn.userID) := by
        split
        · exact (relayToOthers_all (fun _ => trivial) (fun _ => trivial) (fun _ => trivial) _).bind
            fun _ => trivial
        · exact ⟨trivial, fun _ => trivial⟩
      split
      · exact (updateReceipt_all hch _ _ _).bind fun _ => ⟨trivial, fun time => push _ _ _ _⟩
      · exact ⟨trivial, fun time => push _ _ _ _⟩

theorem handlePinMessage_all (data : Json) :
    (r.handlePinMessage conn data).All (Routine conn.userID) := by
  have refuse (code msg : String) : (sendError conn code msg).All (Routine conn.userID) :=
    (sendError_all code msg).mono fun _ => Op.plain.routine
  unfold handlePinMessage
  split
  · exact refuse _ _
  · rename_i frame _
    have operation : PinMessageInboundFrame.operation frame ∈ ["pin", "unpin"] := by
      unfold PinMessageInboundFrame.operation
      split <;> simp
    have record (messageID : String) (hch : frame.channelID ≠ "") :
        (r.pinVerified conn frame messageID).All (Routine conn.userID) := by
      unfold pinVerified
      split
      · exact refuse _ _
      · refine ((getMessageAuthor_all _ _).mono fun _ => Op.plain.routine).bind fun author => ?_
        cases author with
        | error err => exact refuse _ _
        | ok authorID =>
          dsimp only
          split
          · exact refuse _ _
          · refine (recordMessageEvent_all ⟨rfl, operation, _, hch, rfl⟩
              fun _ => Op.plain.routine).bind fun _ => ⟨trivial, fun time => ?_⟩
            exact (relayAndEcho_all (fun _ => trivial) (fun _ => trivial) (fun _ => trivial) _).bind
              fun _ => ⟨trivial, fun _ => trivial⟩
    dsimp only
    split
    · exact refuse _ _
    · rename_i given
      have hch : frame.channelID ≠ "" := fun h => given (.inl h)
      split
      · refine ⟨trivial, fun found => ?_⟩
        cases found with
        | error err => exact refuse _ _
        | ok memberIDs =>
          dsimp only [Prog.pure_bind]
          split
          · exact refuse _ _
          · exact record _ hch
      · exact record _ hch

/-! ## Deletions, edits and the history -/

theorem handleDeleteMessage_all (data : Json) :
    (r.handleDeleteMessage conn data).All (Annotates conn.userID) := by
  have refuse (code msg : String) : (sendError conn code msg).All (Annotates conn.userID) :=
    (sendError_all code msg).mono fun _ => Op.plain.annotates
  unfold handleDeleteMessage
  split
  · exact refuse _ _
  · rename_i frame _
    dsimp only
    split
    · exact refuse _ _
    · rename_i given
      have hch : frame.channelID ≠ "" := fun h => given (.inl h)
      split
      · split
        · exact refuse _ _
        · refine ((getMessageAuthor_all _ _).mono fun _ => Op.plain.annotates).bind fun author => ?_
          cases author with
          | error err => exact refuse _ _
          | ok authorID =>
            dsimp only
            split
            · exact refuse _ _
            · split
              · exact refuse _ _
              · refine Prog.All.bind ?_ fun _ => ⟨trivial, fun _ => trivial⟩
                exact (recordMessageEvent_all ⟨rfl, _, hch, rfl⟩
                  fun _ => Op.plain.annotates).bind fun _ => ⟨trivial, fun time =>
                    relayAndEcho_all (fun _ => trivial) (fun _ => trivial) (fun _ => trivial) _⟩
      · exact ⟨trivial, fun _ => trivial⟩

theorem handleEditMessage_all (data : Json) :
    (r.handleEditMessage conn data).All (Annotates conn.userID) := by
  have refuse (code msg : String) : (sendError conn code msg).All (Annotates conn.userID) :=
    (sendError_all code msg).mono fun _ => Op.plain.annotates
  unfold handleEditMessage
  split
  · exact refuse _ _
  · rename_i frame _
    dsimp only
    split
    · exact refuse _ _
    · rename_i given
      have hch : frame.channelID ≠ "" := fun h => given (.inl h)
      split
      · exact refuse _ _
      · refine ((getMessageAuthor_all _ _).mono fun _ => Op.plain.annotates).bind fun author => ?_
        cases author with
        | error err => exact refuse _ _
        | ok authorID =>
          dsimp only
          split
          · exact refuse _ _
          · split
            · exact refuse _ _
            · refine (recordMessageEvent_all ⟨rfl, _, hch, rfl⟩
                fun _ => Op.plain.annotates).bind fun _ => ⟨trivial, fun time => ?_⟩
              exact (relayAndEcho_all (fun _ => trivial) (fun _ => trivial)
                (fun _ => trivial) _).bind fun _ => ⟨trivial, fun _ => trivial⟩

/-- The operations of fetching rows. -/
def Op.fetches : Op → Prop
  | .now | .rpcRequest .fetchMessages | .rpcReply .fetchMessages | .selectMessages _ _ _ _ => True
  | _ => False

theorem Op.fetches.plain {op : Op} (h : Op.fetches op) : op.plain := by
  cases op <;> first | exact h.elim | trivial

/-- Lookups, and history responses to `u`. -/
def Shows (u : String) (op : Op) : Prop :=
  op.plain ∨ ∃ ch messages, op = .sendToUser u (.history ch messages)

theorem Shows.silent {u : String} {op : Op} (h : Shows u op) : op.silent := by
  rcases h with plain | ⟨ch, messages, rfl⟩
  · exact Op.plain.silent plain
  · trivial

/-- What the client of the ledger makes of the answer to `FetchMessages`. -/
def ledgerMessages :
    Except Status (List StoredMessageResponse) → Proc (Except Status (List LedgerMessage))
  | .error err => .pure (.error err)
  | .ok rows => .pure (.ok (rows.map StoredMessageResponse.ledgerMessage))

theorem fetchMessages_all (k bucket before : String) (limit : Int) :
    (LedgerClient.fetchMessages S k bucket limit before).All Op.fetches := by
  have fetch {bucket : String} {limit : Int} :
      (rpc .fetchMessages (LedgerHandler.fetchMessages S k bucket limit before)).All Op.fetches :=
    all_rpc trivial trivial ⟨trivial, fun found => by cases found <;> trivial⟩
  rw [LedgerClient.fetchMessages]
  split
  · exact ⟨trivial, fun time => fetch.bind fun answer => by cases answer <;> trivial⟩
  · exact fetch.bind fun answer => by cases answer <;> trivial

theorem fetchMessageEvents_all (k mid : String) :
    (LedgerClient.fetchMessageEvents k mid).All Op.plain := by
  refine all_rpc trivial trivial ?_
  unfold LedgerHandler.fetchMessageEvents
  split
  · trivial
  · exact ⟨trivial, fun found => by cases found <;> trivial⟩

theorem handleFetchHistory_all (data : Json) :
    (r.handleFetchHistory S conn data).All (Shows conn.userID) := by
  have refuse (code msg : String) : (sendError conn code msg).All (Shows conn.userID) :=
    (sendError_all code msg).mono fun _ => .inl
  have respond (frame : FetchHistoryFrame) :
      (respondHistory S conn frame).All (Shows conn.userID) := by
    refine ⟨.inl trivial, fun time => ?_⟩
    refine ((fetchMessages_all _ _ _ _).mono fun _ h => .inl (Op.fetches.plain h)).bind
      fun answer => ?_
    cases answer with
    | error err => exact refuse _ _
    | ok msgs =>
      exact ((fetchMessageEvents_all _ _).mono fun _ => .inl).bind fun events =>
        ⟨.inr ⟨_, _, rfl⟩, fun _ => trivial⟩
  unfold handleFetchHistory
  split
  · exact refuse _ _
  · dsimp only
    split
    · exact refuse _ _
    · split
      · exact refuse _ _
      · split
        · refine ⟨.inl trivial, fun found => ?_⟩
          cases found with
          | error err => exact refuse _ _
          | ok memberIDs =>
            dsimp only [Prog.pure_bind]
            split
            · exact refuse _ _
            · exact respond _
        · exact respond _

/-! ## Acknowledgements -/

section Acknowledge
variable {φ : Op → Prop}

theorem pushToMembers_all {push : Frame} (plain : push.plain) (ch : String) (n : Int)
    (memberIDs : List String) : (pushToMembers r conn ch n push memberIDs).All Op.plain := by
  induction memberIDs with
  | nil => trivial
  | cons uid rest ih => simp [pushToMembers, plain, ih]

theorem pushToChannel_all {push : Frame} (plain : push.plain) (ch : String) (n : Int) :
    (r.pushToChannel conn ch n push).All Op.plain := by
  have deliver (memberIDs : List String) :
      ((pushToMembers r conn ch n push memberIDs).bind fun _ => .pure (.ok ()) : Handled).All
        Op.plain := (pushToMembers_all plain _ _ _).bind fun _ => trivial
  simp [pushToChannel, deliver, plain]

theorem pushToPeer_all {push : Frame} (plain : push.plain) (u : String) (n : Int) :
    (r.pushToPeer conn u n push).All Op.plain := by
  simp [pushToPeer, blocks, plain]

theorem acknowledge_all {frame : InboundFrame} {stored : StoreMessageResult}
    (ack : φ (.sendToUser conn.userID (.ack frame.clientMsgID stored.messageID stored.sequenceNum)))
    (plain : ∀ op, Op.plain op → φ op) : (r.acknowledge conn frame stored).All φ := by
  refine ⟨ack, fun _ => Prog.All.mono plain ?_⟩
  dsimp only [Prog.pure_bind]
  split
  · trivial
  · refine ⟨trivial, fun time => ?_⟩
    dsimp only [Prog.pure_bind]
    split
    · exact pushToChannel_all (by trivial) _ _
    · exact pushToPeer_all (by trivial) _ _

theorem protoAcknowledge_all {reqID traceID : String} {act : SendMessageAction}
    {stored : StoreMessageResult}
    (ack : ∀ time, φ (.sendToUser conn.userID
      (.protoActionAck reqID time (uint64 stored.sequenceNum) act.clientMsgId true "" "")))
    (plain : ∀ op, Op.plain op → φ op) :
    (protoAcknowledge conn reqID traceID act stored).All φ := by
  refine ⟨plain _ trivial, fun time => ⟨ack time, fun _ => Prog.All.mono plain ?_⟩⟩
  dsimp only [Prog.pure_bind]
  split
  · trivial
  · exact ⟨trivial, fun time => ⟨trivial, fun _ => trivial⟩⟩

end Acknowledge

/-! ## Inbound frames -/

/-- What a frame is taken for. -/
inductive Reading where
  | packet (packet : Packet)
  | json (action : String) (data : Json)
  | invalid

section Reading
variable (S conn) (data : Bytes)

def readingJson : Reading :=
  match (Json.parse data).bind fun j => (unmarshalAction j).map fun action => (action, j) with
  | some (action, j) => .json action j
  | none => .invalid

def reading : Reading :=
  if conn.wireFormat = .protobuf ∨ isProtobufPayload data then
    match decodePacket S data with
    | some packet => .packet packet
    | none => readingJson data
  else readingJson data

variable {S conn data}

theorem readingJson_cases {P : Reading → Prop} (invalid : P .invalid)
    (json : ∀ action j, Json.parse data = some j → unmarshalAction j = some action →
      P (.json action j)) : P (readingJson data) := by
  unfold readingJson
  split
  · rename_i action j read
    obtain ⟨j, parsed, read⟩ := Option.bind_eq_some_iff.mp read
    obtain ⟨action, read, same⟩ := Option.map_eq_some_iff.mp read
    cases same
    exact json _ _ parsed read
  · exact invalid

theorem reading_cases {P : Reading → Prop} (invalid : P .invalid)
    (json : ∀ action j, Json.parse data = some j → unmarshalAction j = some action →
      P (.json action j))
    (packet : ∀ packet, (conn.wireFormat = .protobuf ∨ isProtobufPayload data) →
      decodePacket S data = some packet → P (.packet packet)) : P (reading S conn data) := by
  unfold reading
  split
  · rename_i binary
    split
    · rename_i decoded
      exact packet _ binary decoded
    · exact readingJson_cases invalid json
  · exact readingJson_cases invalid json

variable (S r conn) in
def handleAs : Reading → Handled
  | .packet packet => r.handleProtobufPacket S conn packet
  | .json action j => r.dispatch S conn action j
  | .invalid => sendError conn "INVALID_JSON" "frame is not valid JSON or Protobuf"

theorem Handle_eq : r.Handle S conn data = r.handleAs S conn (reading S conn data) := by
  have text : r.handleJson S conn data = r.handleAs S conn (readingJson data) := by
    unfold handleJson readingJson
    split <;> simp [handleAs, *]
  unfold Handle reading
  split
  · split <;> simp [handleAs, *]
  · exact text

end Reading

section Cases
variable {P : Handled → Prop}

theorem handleSendMessage_cases (data : Json)
    (refuse : ∀ code msg, P (sendError conn code msg))
    (stores : ∀ frame payload, InboundFrame.unmarshal data = some frame →
      frame.channelID ≠ "" → frame.clientMsgID ≠ "" → frame.ciphertextB64 ≠ "" →
      Base64.decodeString frame.ciphertextB64 = (payload, true) → r.ledger = true →
      P (r.storeAndAcknowledge S conn frame payload)) : P (r.handleSendMessage S conn data) := by
  unfold handleSendMessage
  split
  · exact refuse _ _
  · rename_i read
    dsimp only
    split
    · exact refuse _ _
    · rename_i given
      split
      · exact refuse _ _
      · rename_i decodes
        split
        · exact refuse _ _
        · rename_i ledger
          refine stores _ _ read (fun h => given (.inl h)) (fun h => given (.inr (.inl h)))
            (fun h => given (.inr (.inr h))) ?_ (by simpa using ledger)
          exact Prod.ext rfl (by simpa using decodes)

theorem handleProtoSendMessage_cases (reqID traceID : String) (act : SendMessageAction)
    (refuse : ∀ code msg, P (sendProtoError reqID code msg))
    (stores : act.conversationId ≠ "" → act.clientMsgId ≠ "" → act.encryptedPayload ≠ [] →
      r.ledger = true → P (protoStoreAndAcknowledge S conn reqID traceID act))
    (memory : act.conversationId ≠ "" → act.clientMsgId ≠ "" → act.encryptedPayload ≠ [] →
      r.ledger = false → P (now.bind fun time => protoAcknowledge conn reqID traceID act
        ⟨"mem-" ++ act.clientMsgId, time, false⟩)) :
    P (r.handleProtoSendMessage S conn reqID traceID act) := by
  unfold handleProtoSendMessage
  split
  · exact refuse _ _
  · rename_i given
    have hk (h : act.conversationId = "") : False := given (.inl h)
    have hc (h : act.clientMsgId = "") : False := given (.inr (.inl h))
    have hp (h : act.encryptedPayload = []) : False := given (.inr (.inr h))
    split
    · rename_i ledger
      exact stores hk hc hp ledger
    · rename_i ledger
      exact memory hk hc hp (by simpa using ledger)

/-- A property of every program that does no more than `Routine`, and of the handlers that store,
edit, delete or show messages, is a property of every frame's handler. -/
theorem handle_cases (data : Bytes) (routine : ∀ p, p.All (Routine conn.userID) → P p)
    (send : ∀ j, Json.parse data = some j → unmarshalAction j = some "send_message" →
      P (r.handleSendMessage S conn j)) (delete : ∀ j, P (r.handleDeleteMessage conn j))
    (edit : ∀ j, P (r.handleEditMessage conn j)) (history : ∀ j, P (r.handleFetchHistory S conn j))
    (protoSend : ∀ packet action act, (conn.wireFormat = .protobuf ∨ isProtobufPayload data) →
      decodePacket S data = some packet → packet.payload = .clientAction action →
      action.action = .sendMessage act →
      P (r.handleProtoSendMessage S conn action.requestId packet.traceId act)) :
    P (r.Handle S conn data) := by
  have plain (p : Handled) (h : p.All Op.plain) : P p :=
    routine p (h.mono fun _ => Op.plain.routine)
  rw [Handle_eq]
  refine reading_cases (P := fun reading => P (r.handleAs S conn reading))
    (plain _ (sendError_all _ _)) (fun action j parsed read => ?_) fun packet binary decoded => ?_
  · dsimp only [handleAs, dispatch]
    split
    · exact send j parsed read
    · exact plain _ (handleReaction_all j)
    · exact delete j
    · exact edit j
    · exact routine _ (handlePinMessage_all j)
    · exact plain _ (handleGroupCommit_all j)
    · exact plain _ (handleGroupCommit_all j)
    · exact history j
    · exact plain _ (handleTyping_all j)
    · exact routine _ (handleReadReceipt_all j)
    · exact routine _ (handleReadReceipt_all j)
    · exact plain _ (handleCallSignal_all j)
    · exact plain _ (handleEphemeralSetting_all j)
    · exact plain _ handlePing_all
    · exact plain _ (sendError_all _ _)
  · dsimp only [handleAs, handleProtobufPacket]
    split
    · exact plain _ ⟨trivial, fun _ => ⟨trivial, fun _ => trivial⟩⟩
    · rename_i action payload
      split
      · rename_i act sends
        exact protoSend packet action act binary decoded payload sends
      · exact plain _ (handleProtoTyping_all _)
      · exact plain _ (handleProtoReceipt_all _)
      · exact plain _ (sendProtoError_all _ _ _)
    · exact plain _ (sendProtoError_all _ _ _)

end Cases
end Router
end GenChat.Gateway
