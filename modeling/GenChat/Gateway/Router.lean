import GenChat.Ledger.Handler
import GenChat.Library.Bytes

/-!
# The message router

The handlers of `router.go`. A component that may be `nil` is a flag of `Router`; logging,
tracing and metrics are left out. The loops that four or more handlers repeat over the members of
a channel stand here once, under `relayToOthers` and `relayAndEcho`.
-/
namespace GenChat.Gateway
open Library Ledger

/-- Which components the router was built with. -/
structure Router where
  ledger : Bool
  channelClient : Bool
  dispatcher : Bool
  blockChecker : Bool
  deriving DecidableEq

def sampleRouter : Router := ⟨true, true, true, true⟩

inductive WireFormat where
  | json
  | protobuf
  deriving DecidableEq

structure Conn where
  userID : String
  wireFormat : WireFormat
  deriving DecidableEq

/-- The error of `sendError`. -/
structure RelayError where
  code : String
  message : String
  deriving DecidableEq

abbrev Handled := Proc (Except RelayError Unit)

def hasPrefix (s pre : String) : Bool := pre.toList.isPrefixOf s.toList

def trimPrefix (s pre : String) : String :=
  if hasPrefix s pre then String.ofList (s.toList.drop pre.toList.length) else s

def getConversationID (currentUserID channelID : String) : String :=
  if hasPrefix channelID "chan_" then channelID
  else if currentUserID < channelID then "dm:" ++ currentUserID ++ ":" ++ channelID
  else "dm:" ++ channelID ++ ":" ++ currentUserID

def unix (t : Nat) : Nat := t / second

def uint64 (n : Int) : Nat := (n % 2 ^ 64).toNat

/-- The first of two strings that is not empty. -/
def orElse (s t : String) : String := if s = "" then t else s

namespace Router
variable (S : Platform) (r : Router) (conn : Conn)

def sendError (code msg : String) : Handled := do
  sendToUser conn.userID (.error code msg)
  pure (.error ⟨code, msg⟩)

/-! ## Fan-out -/

def sendAll : List String → Frame → Proc Unit
  | [], _ => pure ()
  | uid :: rest, frame => do
    sendToUser uid frame
    sendAll rest frame

/-- The member lookup that treats a failure like an empty channel. -/
def lookupMembers (channelID : String) : Proc (List String) :=
  if r.channelClient then do
    match ← getChannelMembers (trimPrefix channelID "chan_") with
    | .ok memberIDs => pure memberIDs
    | .error _ => pure []
  else pure []

/-- To a channel, the sender left out. -/
def relayToOthers (channelID : String) (frame : Frame) : Proc Unit := do
  let memberIDs ← r.lookupMembers channelID
  if memberIDs ≠ [] then sendAll (memberIDs.filter (· ≠ conn.userID)) frame
  else if channelID = "chan_public" then broadcastAll conn.userID frame
  else pure ()

/-- To a channel, or to a peer and back to the sender. -/
def relayAndEcho (channelID : String) (frame : Frame) : Proc Unit :=
  if hasPrefix channelID "chan_" then do
    let memberIDs ← r.lookupMembers channelID
    if memberIDs ≠ [] then sendAll memberIDs frame
    else if channelID = "chan_public" then broadcastAll "" frame
    else pure ()
  else do
    sendToUser channelID frame
    if channelID ≠ conn.userID then sendToUser conn.userID frame else pure ()

/-- `r.blockChecker != nil && r.blockChecker.IsBlocked(..)`. -/
def blocks (blocker blocked : String) : Proc Bool :=
  if r.blockChecker then isBlocked blocker blocked else pure false

/-! ## JSON handlers -/

/-- The push loop of `handleSendMessage`. -/
def pushToMembers (channelID : String) (seqNum : Int) (push : Frame) : List String → Proc Unit
  | [] => pure ()
  | uid :: rest => do
    if uid = conn.userID then pushToMembers channelID seqNum push rest
    else
      if ← isUserOnlineCluster uid then sendToUser uid push
      else if r.dispatcher then notifyOffline uid channelID (uint64 seqNum)
      else pure ()
      pushToMembers channelID seqNum push rest

/-- Step 2 of `handleSendMessage` for a channel. -/
def pushToChannel (channelID : String) (seqNum : Int) (push : Frame) : Handled := do
  let found ← if r.channelClient then getChannelMembers (trimPrefix channelID "chan_")
    else pure (.ok [])
  let memberIDs := match found with
    | .ok memberIDs => memberIDs
    | .error _ => []
  if memberIDs ≠ [] then
    if conn.userID ∉ memberIDs then
      sendError conn "FORBIDDEN" "user is not a member of this channel"
    else
      pushToMembers r conn channelID seqNum push memberIDs
      pure (.ok ())
  else if channelID = "chan_public" then
    broadcastAll conn.userID push
    pure (.ok ())
  else sendError conn "CHANNEL_NOT_FOUND" "channel members could not be resolved"

/-- Step 2 of `handleSendMessage` for a direct message. -/
def pushToPeer (recipientUserID : String) (seqNum : Int) (push : Frame) : Handled := do
  let blocked ← if recipientUserID = conn.userID then pure false
    else r.blocks recipientUserID conn.userID
  if blocked then pure (.ok ())
  else
    sendToUser recipientUserID push
    if !(← isUserOnlineCluster recipientUserID) && r.dispatcher then
      notifyOffline recipientUserID recipientUserID (uint64 seqNum)
    else pure ()
    pure (.ok ())

/-- `handleSendMessage` once the message is stored. -/
def acknowledge (frame : InboundFrame) (stored : StoreMessageResult) : Handled := do
  sendToUser conn.userID (.ack frame.clientMsgID stored.messageID stored.sequenceNum)
  if stored.deduplicated then pure (.ok ())
  else
    let push : Frame := .push {
      channelID := frame.channelID
      senderID := conn.userID
      ciphertextB64 := frame.ciphertextB64
      messageType := frame.messageType
      serverID := stored.messageID
      serverTime := unix (← now)
      ephemeralTTLSec := frame.ephemeralTTLSec
      replyToMessageID := frame.replyToMessageID
      clientMsgID := frame.clientMsgID }
    if hasPrefix frame.channelID "chan_" then
      r.pushToChannel conn frame.channelID stored.sequenceNum push
    else r.pushToPeer conn frame.channelID stored.sequenceNum push

/-- The request that `handleSendMessage` makes of the ledger. -/
def storeRequest (frame : InboundFrame) (ciphertext : Bytes) : StoreMessageRequest where
  conversationId := getConversationID conn.userID frame.channelID
  senderId := conn.userID
  clientMsgId := frame.clientMsgID
  encryptedPayload := ciphertext
  senderRatchetKey := []
  messageIndex := (frame.messageType % 2 ^ 32).toNat
  ephemeralTtlSec := frame.ephemeralTTLSec

/-- `handleSendMessage` once the frame is checked. -/
def storeAndAcknowledge (frame : InboundFrame) (ciphertext : Bytes) : Handled := do
  match ← LedgerClient.storeMessage S (storeRequest conn frame ciphertext) with
  | .error _ => sendError conn "PERSISTENCE_FAILED" "message could not be stored"
  | .ok stored => r.acknowledge conn frame stored

def handleSendMessage (data : Json) : Handled :=
  match InboundFrame.unmarshal data with
  | none => sendError conn "INVALID_FRAME" "could not parse send_message frame"
  | some frame =>
    if frame.channelID = "" ∨ frame.clientMsgID = "" ∨ frame.ciphertextB64 = "" then
      sendError conn "MISSING_FIELDS" "channel_id, client_msg_id, ciphertext_base64 are required"
    else
      let decoded := Base64.decodeString frame.ciphertextB64
      if decoded.2 = false then
        sendError conn "INVALID_CIPHERTEXT" "ciphertext_base64 could not be decoded"
      else if r.ledger = false then
        sendError conn "PERSISTENCE_UNAVAILABLE" "message store is not reachable"
      else r.storeAndAcknowledge S conn frame decoded.1

/-- The push loop of `handleGroupCommit`. -/
def commitToMembers (push : Frame) : List String → Proc Unit
  | [] => pure ()
  | uid :: rest => do
    if uid = conn.userID then commitToMembers push rest
    else
      if ← isUserOnlineCluster uid then sendToUser uid push else pure ()
      commitToMembers push rest

/-- `handleGroupCommit` once the sender may commit. -/
def relayCommit (frame : GroupCommitFrame) (commitBytes : Bytes) (memberIDs : List String) :
    Handled := do
  let _ ← if r.channelClient then
      commitEpoch (trimPrefix frame.channelID "chan_") frame.epoch commitBytes
    else pure (.ok ())
  let push : Frame :=
    .groupCommit frame.channelID conn.userID frame.epoch frame.commitData (unix (← now))
  if memberIDs ≠ [] then
    commitToMembers conn push memberIDs
    pure (.ok ())
  else if frame.channelID = "chan_public" then
    broadcastAll conn.userID push
    pure (.ok ())
  else sendError conn "CHANNEL_NOT_FOUND" "channel members could not be resolved"

def handleGroupCommit (data : Json) : Handled :=
  match GroupCommitFrame.unmarshal data with
  | none => sendError conn "INVALID_FRAME" "could not parse group_commit frame"
  | some frame =>
    if frame.channelID = "" ∨ frame.commitData = "" then
      sendError conn "MISSING_FIELDS" "channel_id and commit_data are required"
    else
      let cleanID := trimPrefix frame.channelID "chan_"
      let decoded := Base64.decodeString frame.commitData
      let commitBytes := if decoded.2 = false ∨ decoded.1 = []
        then frame.commitData.toUTF8.data.toList else decoded.1
      do
        let memberIDs ← r.lookupMembers frame.channelID
        if memberIDs ≠ [] ∧ conn.userID ∉ memberIDs ∧ cleanID ≠ "public" then
          sendError conn "FORBIDDEN" "user is not a member of this channel"
        else r.relayCommit conn frame commitBytes memberIDs

/-! ### History -/

/-- `eventMap[messageID][eventType]`. -/
def findEvent (events : List MessageEvent) (messageID eventType : String) : Option MessageEvent :=
  events.reverse.find? fun e => e.messageID = messageID ∧ e.eventType = eventType

/-- The event under the server id, or under the client id. -/
def hasEvent (events : List MessageEvent) (m : LedgerMessage) (eventType : String) : Bool :=
  (findEvent events m.messageID eventType).isSome ||
    (findEvent events m.clientMsgID eventType).isSome

/-- An edit with a ciphertext; the one under the server id goes first. -/
def editOf (events : List MessageEvent) (m : LedgerMessage) : Option MessageEvent :=
  match (findEvent events m.messageID "edited").filter fun e => e.newCiphertext ≠ [] with
  | some e => some e
  | none => (findEvent events m.clientMsgID "edited").filter fun e => e.newCiphertext ≠ []

def historyDTO (m : LedgerMessage) : HistoryMessageDTO where
  serverID := m.messageID
  sequenceNum := m.sequenceNum
  senderID := m.senderID
  clientMsgID := m.clientMsgID
  ciphertextB64 := Base64.encodeToString m.encryptedPayload
  createdAtUnix := unix m.createdAt
  ephemeralTTLSec := m.ephemeralTTLSec
  isDeleted := false
  isEdited := false
  isPinned := false

/-- Deletion: tombstone and zeroize. -/
def applyDeletion (events : List MessageEvent) (m : LedgerMessage) (dto : HistoryMessageDTO) :
    HistoryMessageDTO :=
  if hasEvent events m "deleted" then { dto with isDeleted := true, ciphertextB64 := "" } else dto

def applyEdit (events : List MessageEvent) (m : LedgerMessage) (dto : HistoryMessageDTO) :
    HistoryMessageDTO :=
  match editOf events m with
  | some e => { dto with isEdited := true, ciphertextB64 := Base64.encodeToString e.newCiphertext }
  | none => dto

def applyPin (events : List MessageEvent) (m : LedgerMessage) (dto : HistoryMessageDTO) :
    HistoryMessageDTO :=
  let dto := if hasEvent events m "pin" then { dto with isPinned := true } else dto
  if hasEvent events m "unpin" then { dto with isPinned := false } else dto

/-- The loop over the fetched messages in `handleFetchHistory`. -/
def overlay (events : List MessageEvent) (m : LedgerMessage) : HistoryMessageDTO :=
  applyPin events m (applyEdit events m (applyDeletion events m (historyDTO m)))

/-- `handleFetchHistory` once the user may read. -/
def respondHistory (frame : FetchHistoryFrame) : Handled := do
  let conversationID := getConversationID conn.userID frame.channelID
  let bucket := S.formatBucket (← now)
  match ← LedgerClient.fetchMessages S conversationID bucket frame.limit frame.beforeServerID with
  | .error _ => sendError conn "FETCH_FAILED" "could not fetch message history"
  | .ok msgs =>
    let events := match ← LedgerClient.fetchMessageEvents conversationID "" with
      | .ok events => events
      | .error _ => []
    sendToUser conn.userID (.history frame.channelID (msgs.map (overlay events)))
    pure (.ok ())

def handleFetchHistory (data : Json) : Handled :=
  match FetchHistoryFrame.unmarshal data with
  | none => sendError conn "INVALID_FRAME" "could not parse fetch_history frame"
  | some frame =>
    if frame.channelID = "" then sendError conn "MISSING_FIELDS" "channel_id is required"
    else if r.ledger = false then
      sendError conn "PERSISTENCE_UNAVAILABLE" "ledger not configured"
    else
      let cleanID := trimPrefix frame.channelID "chan_"
      if hasPrefix frame.channelID "chan_" ∧ r.channelClient ∧ cleanID ≠ "public" then do
        match ← getChannelMembers cleanID with
        | .error _ => sendError conn "FORBIDDEN" "cannot verify channel membership"
        | .ok memberIDs =>
          if conn.userID ∉ memberIDs then
            sendError conn "FORBIDDEN" "user is not a member of this channel"
          else respondHistory S conn frame
      else respondHistory S conn frame

/-! ### Presence, receipts and calls -/

def handleTyping (data : Json) : Handled :=
  match TypingFrame.unmarshal data with
  | none => pure (.ok ())
  | some frame =>
    if frame.channelID = "" then pure (.ok ())
    else
      let push : Frame := .typing frame.channelID conn.userID frame.isTyping
      if hasPrefix frame.channelID "chan_" then do
        r.relayToOthers conn frame.channelID push
        pure (.ok ())
      else do
        let blocked ← if frame.channelID = conn.userID then pure false
          else r.blocks frame.channelID conn.userID
        if blocked then pure (.ok ())
        else
          sendToUser frame.channelID push
          pure (.ok ())

/-- The receipt type a frame asks for, or the default for its action. -/
def ReadReceiptFrame.type (frame : ReadReceiptFrame) : String :=
  orElse frame.receiptType (if frame.action = "read_receipt" then "read" else "delivered")

def handleReadReceipt (data : Json) : Handled :=
  match ReadReceiptFrame.unmarshal data with
  | none => pure (.ok ())
  | some frame =>
    if frame.channelID = "" then pure (.ok ())
    else do
      let msgID := orElse frame.serverID frame.messageID
      let receiptType := ReadReceiptFrame.type frame
      let _ ← if r.ledger ∧ msgID ≠ "" then
          LedgerClient.updateReceipt S (getConversationID conn.userID frame.channelID) conn.userID
            receiptType msgID frame.sequenceNum
        else pure (.ok ())
      let push : Frame :=
        .receipt frame.channelID conn.userID msgID frame.sequenceNum receiptType (unix (← now))
      if hasPrefix frame.channelID "chan_" then
        r.relayToOthers conn frame.channelID push
        pure (.ok ())
      else
        sendToUser frame.channelID push
        pure (.ok ())

def handlePing : Handled := do
  sendToUser conn.userID .pong
  pure (.ok ())

/-- Signals that go to a whole channel. -/
def isGroupSignal (signalType : String) : Bool :=
  signalType = "group_join" || signalType = "group_leave" || signalType = "group_ping"

/-- Part 1 of `handleCallSignal`. -/
def broadcastSignal (frame : CallSignalInboundFrame) (push : Frame) : Handled :=
  if frame.channelID = "chan_public" ∨ frame.channelID = "public" then do
    broadcastAll conn.userID push
    pure (.ok ())
  else if hasPrefix frame.channelID "chan_" then do
    let memberIDs ← r.lookupMembers frame.channelID
    sendAll (memberIDs.filter (· ≠ conn.userID)) push
    pure (.ok ())
  else do
    sendToUser frame.channelID push
    pure (.ok ())

/-- Part 2 of `handleCallSignal`. -/
def sendSignal (frame : CallSignalInboundFrame) (push : Frame) : Handled :=
  if frame.targetUserID = "" then
    sendError conn "MISSING_FIELDS" "target_user_id is required for direct call signals"
  else do
    let blocked ← if frame.targetUserID = conn.userID then pure false
      else r.blocks frame.targetUserID conn.userID
    if blocked then pure (.ok ())
    else
      let offline ← if frame.signalType = "offer" then do
          pure !(← isUserOnlineCluster frame.targetUserID)
        else pure false
      if offline then
        let time ← now
        sendToUser conn.userID (.callSignal {
          signalType := "peer_offline", callID := frame.callID, channelID := frame.channelID,
          senderID := frame.targetUserID, targetUserID := conn.userID, callType := frame.callType,
          sdp := "", candidate := none, serverTime := unix time })
        pure (.ok ())
      else
        sendToUser frame.targetUserID push
        pure (.ok ())

def handleCallSignal (data : Json) : Handled :=
  match CallSignalInboundFrame.unmarshal data with
  | none => sendError conn "INVALID_FRAME" "could not parse call_signal frame"
  | some frame =>
    if frame.callID = "" ∨ frame.signalType = "" then
      sendError conn "MISSING_FIELDS" "call_id and signal_type are required"
    else do
      let time ← now
      let push : Frame := .callSignal {
        signalType := frame.signalType, callID := frame.callID, channelID := frame.channelID,
        senderID := conn.userID, targetUserID := frame.targetUserID, callType := frame.callType,
        sdp := frame.sdp, candidate := frame.candidate, serverTime := unix time }
      if isGroupSignal frame.signalType ∧ frame.channelID ≠ "" then
        r.broadcastSignal conn frame push
      else r.sendSignal conn frame push

def handleEphemeralSetting (data : Json) : Handled :=
  match EphemeralSettingFrame.unmarshal data with
  | none => sendError conn "INVALID_FRAME" "could not parse ephemeral_setting frame"
  | some frame =>
    if frame.channelID = "" then sendError conn "MISSING_FIELDS" "channel_id is required"
    else do
      let time ← now
      r.relayAndEcho conn frame.channelID
        (.ephemeralSetting frame.channelID frame.ephemeralTTLSec conn.userID (unix time))
      pure (.ok ())

/-! ### Reactions, deletions, edits and pins -/

def handleReaction (data : Json) : Handled :=
  match ReactionInboundFrame.unmarshal data with
  | none => sendError conn "INVALID_FRAME" "could not parse reaction frame"
  | some frame =>
    let targetID := orElse frame.targetID frame.targetMsgID
    if frame.channelID = "" ∨ targetID = "" ∨ frame.emoji = "" then
      sendError conn "MISSING_FIELDS" "channel_id, target_id, and emoji are required"
    else do
      let time ← now
      let blocked ← if hasPrefix frame.channelID "chan_" ∨ frame.channelID = conn.userID
        then pure false else r.blocks frame.channelID conn.userID
      if blocked then pure (.ok ())
      else
        r.relayAndEcho conn frame.channelID (.reaction frame.channelID targetID conn.userID
          frame.emoji (orElse frame.op "add") (unix time))
        pure (.ok ())

/-- The part of `handleDeleteMessage` for everyone, after the author was verified. -/
def deleteForEveryone (channelID messageID : String) : Proc Unit := do
  let _ ← LedgerClient.recordMessageEvent (getConversationID conn.userID channelID) messageID
    "deleted" conn.userID []
  let time ← now
  r.relayAndEcho conn channelID (.messageDeleted channelID messageID conn.userID (unix time))

def handleDeleteMessage (data : Json) : Handled :=
  match DeleteMessageInboundFrame.unmarshal data with
  | none => sendError conn "INVALID_FRAME" "could not parse delete_message frame"
  | some frame =>
    let messageID := orElse frame.messageID frame.clientMsgID
    if frame.channelID = "" ∨ messageID = "" then
      sendError conn "MISSING_FIELDS" "channel_id and message_id are required"
    else
      let scope := orElse frame.deleteScope "everyone"
      let ackDelete : Handled := do
        sendToUser conn.userID (.ackDelete messageID frame.channelID scope)
        pure (.ok ())
      if scope = "everyone" then
        if r.ledger = false then
          sendError conn "INTERNAL_ERROR" "ledger unavailable to verify message authorship"
        else do
          match ← LedgerClient.getMessageAuthor (getConversationID conn.userID frame.channelID)
              messageID with
          | .error _ => sendError conn "PERMISSION_DENIED" "cannot verify message authorship"
          | .ok authorID =>
            if authorID = "" then
              sendError conn "PERMISSION_DENIED" "cannot verify message authorship"
            else if authorID ≠ conn.userID then
              sendError conn "PERMISSION_DENIED"
                "only the original message author can delete for everyone"
            else
              r.deleteForEveryone conn frame.channelID messageID
              ackDelete
      else ackDelete

/-- `handleEditMessage` after the author was verified. -/
def applyEditMessage (frame : EditMessageInboundFrame) (messageID : String) : Handled := do
  let _ ← LedgerClient.recordMessageEvent (getConversationID conn.userID frame.channelID) messageID
    "edited" conn.userID (Base64.decodeString frame.ciphertextB64).1
  let time ← now
  r.relayAndEcho conn frame.channelID
    (.messageEdited frame.channelID messageID conn.userID frame.ciphertextB64 (unix time))
  sendToUser conn.userID (.ackEdit messageID frame.channelID (unix time))
  pure (.ok ())

def handleEditMessage (data : Json) : Handled :=
  match EditMessageInboundFrame.unmarshal data with
  | none => sendError conn "INVALID_FRAME" "could not parse edit_message frame"
  | some frame =>
    let messageID := orElse frame.messageID frame.clientMsgID
    if frame.channelID = "" ∨ messageID = "" ∨ frame.ciphertextB64 = "" then
      sendError conn "MISSING_FIELDS" "channel_id, message_id, and ciphertext_base64 are required"
    else if r.ledger = false then
      sendError conn "INTERNAL_ERROR" "ledger unavailable to verify message authorship"
    else do
      match ← LedgerClient.getMessageAuthor (getConversationID conn.userID frame.channelID)
          messageID with
      | .error _ => sendError conn "PERMISSION_DENIED" "cannot verify message authorship"
      | .ok authorID =>
        if authorID = "" then
          sendError conn "PERMISSION_DENIED" "cannot verify message authorship"
        else if authorID ≠ conn.userID then
          sendError conn "PERMISSION_DENIED"
            "only the original message author can edit this message"
        else r.applyEditMessage conn frame messageID

/-- `pin` unless the frame says `unpin`. -/
def PinMessageInboundFrame.operation (frame : PinMessageInboundFrame) : String :=
  if frame.op = "unpin" then "unpin" else "pin"

/-- `handlePinMessage` once the sender may pin in this channel. -/
def pinVerified (frame : PinMessageInboundFrame) (messageID : String) : Handled :=
  if r.ledger = false then
    sendError conn "INTERNAL_ERROR" "ledger unavailable to verify message authorship"
  else do
    let op := PinMessageInboundFrame.operation frame
    let conversationID := getConversationID conn.userID frame.channelID
    match ← LedgerClient.getMessageAuthor conversationID messageID with
    | .error _ => sendError conn "PERMISSION_DENIED" "cannot verify message to pin"
    | .ok authorID =>
      if authorID = "" then sendError conn "PERMISSION_DENIED" "cannot verify message to pin"
      else
        let _ ← LedgerClient.recordMessageEvent conversationID messageID op conn.userID []
        let time ← now
        r.relayAndEcho conn frame.channelID
          (.messagePinned frame.channelID messageID conn.userID op (unix time))
        sendToUser conn.userID (.ackPin messageID frame.channelID op (unix time))
        pure (.ok ())

def handlePinMessage (data : Json) : Handled :=
  match PinMessageInboundFrame.unmarshal data with
  | none => sendError conn "INVALID_FRAME" "could not parse pin_message frame"
  | some frame =>
    let messageID := orElse frame.messageID frame.clientMsgID
    if frame.channelID = "" ∨ messageID = "" then
      sendError conn "MISSING_FIELDS" "channel_id and message_id are required"
    else if hasPrefix frame.channelID "chan_" ∧ frame.channelID ≠ "chan_public" ∧
        r.channelClient then do
      match ← getChannelMembers (trimPrefix frame.channelID "chan_") with
      | .error _ => sendError conn "PERMISSION_DENIED" "cannot verify channel membership"
      | .ok memberIDs =>
        if conn.userID ∉ memberIDs then
          sendError conn "PERMISSION_DENIED" "only channel members can pin or unpin messages"
        else r.pinVerified conn frame messageID
    else r.pinVerified conn frame messageID

/-! ## Protobuf handlers -/

def sendProtoError (reqID code msg : String) : Handled := do
  let time ← now
  connSend (.protoActionAck reqID time 0 reqID false code msg)
  pure (.ok ())

/-- The request that `handleProtoSendMessage` makes of the ledger: the conversation id is the
client's own. -/
def protoStoreRequest (act : SendMessageAction) : StoreMessageRequest where
  conversationId := act.conversationId
  senderId := conn.userID
  clientMsgId := act.clientMsgId
  encryptedPayload := act.encryptedPayload
  senderRatchetKey := act.senderRatchetKey
  messageIndex := 1
  ephemeralTtlSec := 0

/-- `handleProtoSendMessage` once the message is stored. -/
def protoAcknowledge (reqID traceID : String) (act : SendMessageAction)
    (stored : StoreMessageResult) : Handled := do
  let time ← now
  sendToUser conn.userID
    (.protoActionAck reqID time (uint64 stored.sequenceNum) act.clientMsgId true "" "")
  if stored.deduplicated then pure (.ok ())
  else
    let time ← now
    sendToUser act.conversationId (.protoMessageDelivered traceID time (uint64 stored.sequenceNum) {
      conversationId := act.conversationId, messageId := stored.messageID,
      clientMsgId := act.clientMsgId, senderUserId := conn.userID,
      sequenceNumber := uint64 stored.sequenceNum, createdAt := time,
      encryptedPayload := act.encryptedPayload, senderRatchetKey := act.senderRatchetKey,
      messageIndex := act.messageIndex, replyToMessageId := act.replyToMessageId })
    pure (.ok ())

/-- `handleProtoSendMessage` with a ledger. -/
def protoStoreAndAcknowledge (reqID traceID : String) (act : SendMessageAction) : Handled := do
  match ← LedgerClient.storeMessage S (protoStoreRequest conn act) with
  | .error _ => sendProtoError reqID "LEDGER_STORE_FAILED" "failed to store message"
  | .ok stored => protoAcknowledge conn reqID traceID act stored

def handleProtoSendMessage (reqID traceID : String) (act : SendMessageAction) : Handled :=
  if act.conversationId = "" ∨ act.clientMsgId = "" ∨ act.encryptedPayload = [] then
    sendProtoError reqID "MISSING_FIELDS"
      "conversation_id, client_msg_id, encrypted_payload required"
  else if r.ledger then protoStoreAndAcknowledge S conn reqID traceID act
  else do
    let time ← now
    protoAcknowledge conn reqID traceID act ⟨"mem-" ++ act.clientMsgId, time, false⟩

def handleProtoTyping (act : TypingIndicatorAction) : Handled := do
  let time ← now
  sendToUser act.conversationId (.protoTyping time act.conversationId conn.userID act.isTyping)
  pure (.ok ())

def handleProtoReceipt (act : AckReceiptAction) : Handled := do
  let time ← now
  sendToUser act.conversationId (.protoReceipt time act.conversationId conn.userID act.type
    act.messageId act.upToSeq time)
  pure (.ok ())

def handleProtobufPacket (packet : Packet) : Handled :=
  match packet.payload with
  | .heartbeat n => do
    let time ← now
    connSend (.protoHeartbeat packet.traceId time ((n + 1) % 2 ^ 64))
    pure (.ok ())
  | .clientAction action =>
    match action.action with
    | .sendMessage act =>
      r.handleProtoSendMessage S conn action.requestId packet.traceId act
    | .typingIndicator act => handleProtoTyping conn act
    | .ackReceipt act => handleProtoReceipt conn act
    | .other => sendProtoError action.requestId "UNSUPPORTED_ACTION"
        "action not supported over protobuf wire format"
  | _ => sendProtoError packet.traceId "NO_ACTION" "missing client action in packet"

/-! ## Entry point -/

def isProtobufPayload (data : Bytes) : Bool :=
  match data with
  | [] => false
  | b :: _ => b ∉ ['\x7b', ' ', '\t', '\n', '\r', '['].map fun c => UInt8.ofNat c.toNat

def Packet.isEmpty (packet : Packet) : Bool :=
  match packet.payload with
  | .none => true
  | _ => false

/-- With a length prefix if that fits the data, else as a bare packet. -/
def decodePacket (data : Bytes) : Option Packet :=
  let parse (body : Bytes) := (S.unmarshalPacket body).filter fun p => !Packet.isEmpty p
  let framed := if 4 ≤ data.length ∧ data.take 4 = toBeBytes 4 (data.length - 4) then
      parse (data.drop 4) else none
  match framed with
  | some packet => some packet
  | none => parse data

/-- The switch of `Handle` on the action of a JSON frame. -/
def dispatch (action : String) (data : Json) : Handled :=
  match action with
  | "send_message" => r.handleSendMessage S conn data
  | "reaction" => r.handleReaction conn data
  | "delete_message" => r.handleDeleteMessage conn data
  | "edit_message" => r.handleEditMessage conn data
  | "pin_message" => r.handlePinMessage conn data
  | "group_commit" => r.handleGroupCommit conn data
  | "mls_commit" => r.handleGroupCommit conn data
  | "fetch_history" => r.handleFetchHistory S conn data
  | "typing" => r.handleTyping conn data
  | "read_receipt" => r.handleReadReceipt S conn data
  | "ack_receipt" => r.handleReadReceipt S conn data
  | "call_signal" => r.handleCallSignal conn data
  | "ephemeral_setting" => r.handleEphemeralSetting conn data
  | "ping" => handlePing conn
  | _ => sendError conn "UNKNOWN_ACTION" ("unknown action: " ++ action)

def handleJson (data : Bytes) : Handled :=
  match (Json.parse data).bind fun j => (unmarshalAction j).map fun action => (action, j) with
  | none => sendError conn "INVALID_JSON" "frame is not valid JSON or Protobuf"
  | some (action, j) => r.dispatch S conn action j

/-- The entry point for every inbound WebSocket frame. -/
def Handle (data : Bytes) : Handled :=
  if conn.wireFormat = .protobuf ∨ isProtobufPayload data then
    match decodePacket S data with
    | some packet => r.handleProtobufPacket S conn packet
    | none => r.handleJson S conn data
  else r.handleJson S conn data

end Router
end GenChat.Gateway
