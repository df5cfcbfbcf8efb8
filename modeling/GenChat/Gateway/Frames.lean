import GenChat.Ledger.Store
import GenChat.Library.Base64
import GenChat.Library.Json

/-!
# Frames of the gateway

The structs of `router.go` that clients send, each with its decoding from JSON, the protobuf
packets the gateway understands, and everything the gateway sends. An outbound frame is kept as
the value that `json.Marshal` or `proto.Marshal` is applied to.
-/
namespace GenChat.Gateway
open Library Ledger

/-! ## Inbound JSON -/

structure InboundFrame where
  action : String
  channelID : String
  clientMsgID : String
  ciphertextB64 : String
  messageType : Int
  ephemeralTTLSec : Int
  replyToMessageID : String
  traceparent : String

def InboundFrame.unmarshal (j : Json) : Option InboundFrame := do
  guard j.isStruct
  return {
    action := ← j.readString "action"
    channelID := ← j.readString "channel_id"
    clientMsgID := ← j.readString "client_msg_id"
    ciphertextB64 := ← j.readString "ciphertext_base64"
    messageType := ← j.readInt64 "message_type"
    ephemeralTTLSec := ← j.readInt64 "ephemeral_ttl_sec"
    replyToMessageID := ← j.readString "reply_to_message_id"
    traceparent := ← j.readString "traceparent" }

structure ReactionInboundFrame where
  action : String
  channelID : String
  targetID : String
  targetMsgID : String
  emoji : String
  op : String

def ReactionInboundFrame.unmarshal (j : Json) : Option ReactionInboundFrame := do
  guard j.isStruct
  return {
    action := ← j.readString "action"
    channelID := ← j.readString "channel_id"
    targetID := ← j.readString "target_id"
    targetMsgID := ← j.readString "target_msg_id"
    emoji := ← j.readString "emoji"
    op := ← j.readString "op" }

structure DeleteMessageInboundFrame where
  action : String
  channelID : String
  messageID : String
  clientMsgID : String
  deleteScope : String

def DeleteMessageInboundFrame.unmarshal (j : Json) : Option DeleteMessageInboundFrame := do
  guard j.isStruct
  return {
    action := ← j.readString "action"
    channelID := ← j.readString "channel_id"
    messageID := ← j.readString "message_id"
    clientMsgID := ← j.readString "client_msg_id"
    deleteScope := ← j.readString "delete_scope" }

structure EditMessageInboundFrame where
  action : String
  channelID : String
  messageID : String
  clientMsgID : String
  ciphertextB64 : String

def EditMessageInboundFrame.unmarshal (j : Json) : Option EditMessageInboundFrame := do
  guard j.isStruct
  return {
    action := ← j.readString "action"
    channelID := ← j.readString "channel_id"
    messageID := ← j.readString "message_id"
    clientMsgID := ← j.readString "client_msg_id"
    ciphertextB64 := ← j.readString "ciphertext_base64" }

structure PinMessageInboundFrame where
  action : String
  channelID : String
  messageID : String
  clientMsgID : String
  op : String

def PinMessageInboundFrame.unmarshal (j : Json) : Option PinMessageInboundFrame := do
  guard j.isStruct
  return {
    action := ← j.readString "action"
    channelID := ← j.readString "channel_id"
    messageID := ← j.readString "message_id"
    clientMsgID := ← j.readString "client_msg_id"
    op := ← j.readString "op" }

structure FetchHistoryFrame where
  action : String
  channelID : String
  limit : Int
  beforeServerID : String

def FetchHistoryFrame.unmarshal (j : Json) : Option FetchHistoryFrame := do
  guard j.isStruct
  return {
    action := ← j.readString "action"
    channelID := ← j.readString "channel_id"
    limit := ← j.readInt32 "limit"
    beforeServerID := ← j.readString "before_server_id" }

structure TypingFrame where
  action : String
  channelID : String
  isTyping : Bool

def TypingFrame.unmarshal (j : Json) : Option TypingFrame := do
  guard j.isStruct
  return {
    action := ← j.readString "action"
    channelID := ← j.readString "channel_id"
    isTyping := ← j.readBool "is_typing" }

/-- The anonymous struct of `handleReadReceipt`. -/
structure ReadReceiptFrame where
  action : String
  channelID : String
  serverID : String
  messageID : String
  sequenceNum : Int
  receiptType : String

def ReadReceiptFrame.unmarshal (j : Json) : Option ReadReceiptFrame := do
  guard j.isStruct
  return {
    action := ← j.readString "action"
    channelID := ← j.readString "channel_id"
    serverID := ← j.readString "server_id"
    messageID := ← j.readString "message_id"
    sequenceNum := ← j.readInt64 "sequence_num"
    receiptType := ← j.readString "receipt_type" }

structure CallSignalInboundFrame where
  action : String
  signalType : String
  callID : String
  channelID : String
  targetUserID : String
  callType : String
  sdp : String
  candidate : Option Json

def CallSignalInboundFrame.unmarshal (j : Json) : Option CallSignalInboundFrame := do
  guard j.isStruct
  return {
    action := ← j.readString "action"
    signalType := ← j.readString "signal_type"
    callID := ← j.readString "call_id"
    channelID := ← j.readString "channel_id"
    targetUserID := ← j.readString "target_user_id"
    callType := ← j.readString "call_type"
    sdp := ← j.readString "sdp"
    candidate := j.readRaw "candidate" }

structure GroupCommitFrame where
  action : String
  channelID : String
  epoch : Int
  commitData : String

def GroupCommitFrame.unmarshal (j : Json) : Option GroupCommitFrame := do
  guard j.isStruct
  return {
    action := ← j.readString "action"
    channelID := ← j.readString "channel_id"
    epoch := ← j.readUint64 "epoch"
    commitData := ← j.readString "commit_data" }

structure EphemeralSettingFrame where
  action : String
  channelID : String
  ephemeralTTLSec : Int

def EphemeralSettingFrame.unmarshal (j : Json) : Option EphemeralSettingFrame := do
  guard j.isStruct
  return {
    action := ← j.readString "action"
    channelID := ← j.readString "channel_id"
    ephemeralTTLSec := ← j.readInt64 "ephemeral_ttl_sec" }

/-- The `base` struct of `Handle`. -/
def unmarshalAction (j : Json) : Option String := do
  guard j.isStruct
  j.readString "action"

/-! ## Inbound protobuf -/

structure SendMessageAction where
  conversationId : String
  clientMsgId : String
  encryptedPayload : Bytes
  senderRatchetKey : Bytes
  messageIndex : Nat
  replyToMessageId : String

structure TypingIndicatorAction where
  conversationId : String
  isTyping : Bool

inductive ReceiptType where
  | unspecified
  | delivered
  | read
  | unknown (n : Int)

structure AckReceiptAction where
  conversationId : String
  type : ReceiptType
  /-- `""` unless the target is a message id. -/
  messageId : String
  /-- `0` unless the target is a sequence number. -/
  upToSeq : Nat

inductive ClientActionBody where
  | sendMessage (act : SendMessageAction)
  | typingIndicator (act : TypingIndicatorAction)
  | ackReceipt (act : AckReceiptAction)
  /-- An action the gateway does not support over protobuf, or none. -/
  | other

structure ClientAction where
  requestId : String
  action : ClientActionBody

inductive PacketPayload where
  | heartbeat (sequenceNumber : Nat)
  | clientAction (action : ClientAction)
  | serverEvent
  | none

structure Packet where
  traceId : String
  payload : PacketPayload

/-! ## Outbound -/

structure PushFrame where
  channelID : String
  senderID : String
  ciphertextB64 : String
  messageType : Int
  serverID : String
  serverTime : Nat
  ephemeralTTLSec : Int
  replyToMessageID : String
  clientMsgID : String

structure HistoryMessageDTO where
  serverID : String
  sequenceNum : Int
  senderID : String
  clientMsgID : String
  ciphertextB64 : String
  createdAtUnix : Nat
  ephemeralTTLSec : Int
  isDeleted : Bool
  isEdited : Bool
  isPinned : Bool
  deriving DecidableEq

structure CallSignalPushFrame where
  signalType : String
  callID : String
  channelID : String
  senderID : String
  targetUserID : String
  callType : String
  sdp : String
  candidate : Option Json
  serverTime : Nat

structure MessageDeliveredEvent where
  conversationId : String
  messageId : String
  clientMsgId : String
  senderUserId : String
  sequenceNumber : Nat
  createdAt : Nat
  encryptedPayload : Bytes
  senderRatchetKey : Bytes
  messageIndex : Nat
  replyToMessageId : String

/-- What the gateway hands to a connection or to the hub. The first group are JSON frames, the
second protobuf packets; `sentAt` and trace ids of packets are kept where the code sets them. -/
inductive Frame where
  | ack (clientMsgID messageID : String) (sequenceNum : Int)
  | push (frame : PushFrame)
  | reaction (channelID targetID senderID emoji op : String) (serverTime : Nat)
  | messageDeleted (channelID messageID senderID : String) (serverTime : Nat)
  | ackDelete (messageID channelID deleteScope : String)
  | messageEdited (channelID messageID senderID ciphertextB64 : String) (serverTime : Nat)
  | ackEdit (messageID channelID : String) (serverTime : Nat)
  | messagePinned (channelID messageID senderID op : String) (serverTime : Nat)
  | ackPin (messageID channelID op : String) (serverTime : Nat)
  | error (code message : String)
  | history (channelID : String) (messages : List HistoryMessageDTO)
  | typing (channelID userID : String) (isTyping : Bool)
  | receipt (channelID userID messageID : String) (sequenceNum : Int) (receiptType : String)
      (timestamp : Nat)
  | pong
  | callSignal (frame : CallSignalPushFrame)
  | groupCommit (channelID senderID : String) (epoch : Int) (commitData : String)
      (serverTime : Nat)
  | ephemeralSetting (channelID : String) (ephemeralTTLSec : Int) (updatedBy : String)
      (updatedAt : Nat)
  | protoHeartbeat (traceId : String) (sentAt sequenceNumber : Nat)
  | protoActionAck (traceId : String) (sentAt : Nat) (globalSequence : Nat) (requestId : String)
      (success : Bool) (errorCode errorMsg : String)
  | protoMessageDelivered (traceId : String) (sentAt globalSequence : Nat)
      (event : MessageDeliveredEvent)
  | protoTyping (sentAt : Nat) (conversationId userId : String) (isTyping : Bool)
  | protoReceipt (sentAt : Nat) (conversationId userId : String) (type : ReceiptType)
      (messageId : String) (upToSeq timestamp : Nat)

/-! ## The channel of a frame -/

section Channel
variable {data : Json}

theorem TypingFrame.channelID_of_unmarshal {frame : TypingFrame}
    (h : TypingFrame.unmarshal data = some frame) :
    data.readString "channel_id" = some frame.channelID := by
  simp [TypingFrame.unmarshal, Option.bind_eq_some_iff] at h
  grind

theorem ReactionInboundFrame.channelID_of_unmarshal {frame : ReactionInboundFrame}
    (h : ReactionInboundFrame.unmarshal data = some frame) :
    data.readString "channel_id" = some frame.channelID := by
  simp [ReactionInboundFrame.unmarshal, Option.bind_eq_some_iff] at h
  grind

theorem InboundFrame.channelID_of_unmarshal {frame : InboundFrame}
    (h : InboundFrame.unmarshal data = some frame) :
    data.readString "channel_id" = some frame.channelID := by
  simp [InboundFrame.unmarshal, Option.bind_eq_some_iff] at h
  grind

theorem DeleteMessageInboundFrame.channelID_of_unmarshal {frame : DeleteMessageInboundFrame}
    (h : DeleteMessageInboundFrame.unmarshal data = some frame) :
    data.readString "channel_id" = some frame.channelID := by
  simp [DeleteMessageInboundFrame.unmarshal, Option.bind_eq_some_iff] at h
  grind

theorem EditMessageInboundFrame.channelID_of_unmarshal {frame : EditMessageInboundFrame}
    (h : EditMessageInboundFrame.unmarshal data = some frame) :
    data.readString "channel_id" = some frame.channelID := by
  simp [EditMessageInboundFrame.unmarshal, Option.bind_eq_some_iff] at h
  grind

theorem PinMessageInboundFrame.channelID_of_unmarshal {frame : PinMessageInboundFrame}
    (h : PinMessageInboundFrame.unmarshal data = some frame) :
    data.readString "channel_id" = some frame.channelID := by
  simp [PinMessageInboundFrame.unmarshal, Option.bind_eq_some_iff] at h
  grind

theorem FetchHistoryFrame.channelID_of_unmarshal {frame : FetchHistoryFrame}
    (h : FetchHistoryFrame.unmarshal data = some frame) :
    data.readString "channel_id" = some frame.channelID := by
  simp [FetchHistoryFrame.unmarshal, Option.bind_eq_some_iff] at h
  grind

theorem ReadReceiptFrame.channelID_of_unmarshal {frame : ReadReceiptFrame}
    (h : ReadReceiptFrame.unmarshal data = some frame) :
    data.readString "channel_id" = some frame.channelID := by
  simp [ReadReceiptFrame.unmarshal, Option.bind_eq_some_iff] at h
  grind

theorem CallSignalInboundFrame.channelID_of_unmarshal {frame : CallSignalInboundFrame}
    (h : CallSignalInboundFrame.unmarshal data = some frame) :
    data.readString "channel_id" = some frame.channelID := by
  simp [CallSignalInboundFrame.unmarshal, Option.bind_eq_some_iff] at h
  grind

theorem GroupCommitFrame.channelID_of_unmarshal {frame : GroupCommitFrame}
    (h : GroupCommitFrame.unmarshal data = some frame) :
    data.readString "channel_id" = some frame.channelID := by
  simp [GroupCommitFrame.unmarshal, Option.bind_eq_some_iff] at h
  grind

theorem EphemeralSettingFrame.channelID_of_unmarshal {frame : EphemeralSettingFrame}
    (h : EphemeralSettingFrame.unmarshal data = some frame) :
    data.readString "channel_id" = some frame.channelID := by
  simp [EphemeralSettingFrame.unmarshal, Option.bind_eq_some_iff] at h
  grind

end Channel
end GenChat.Gateway
