import GenChat.Gateway.Frames
import GenChat.Library.UriText

/-!
# Envelopes

A `GatewayClient` turns the frames of a message into an envelope: the push frame, and each entry of
a history frame, by code of their own. A text that it sends goes through UTF-8 and base64, and comes
back through `safeBase64Decode`. Objects are kept as the JSON values that `json.Marshal` and
`JSON.stringify` write and the other side reads; the numbers in them are integers.
-/
namespace GenChat.Gateway
open Library

/-! ## What the gateway writes -/

/-- A member that is left out under a condition, such as `omitempty`. -/
def member (left : Bool) (name : String) (value : Json) : List (String × Json) :=
  if left then [] else [(name, value)]

def PushFrame.marshal (f : PushFrame) : Json := .object (
  ("type", .string "push") ::
  ("channel_id", .string f.channelID) ::
  ("sender_id", .string f.senderID) ::
  ("ciphertext_base64", .string f.ciphertextB64) ::
  ("message_type", .number (some f.messageType)) ::
  ("server_id", .string f.serverID) ::
  ("server_time", .number (some f.serverTime)) :: (
  member (f.ephemeralTTLSec = 0) "ephemeral_ttl_sec" (.number (some f.ephemeralTTLSec)) ++
  member (f.replyToMessageID = "") "reply_to_message_id" (.string f.replyToMessageID) ++
  member (f.clientMsgID = "") "client_msg_id" (.string f.clientMsgID)))

def HistoryMessageDTO.marshal (dto : HistoryMessageDTO) : Json := .object (
  ("server_id", .string dto.serverID) ::
  ("sequence_num", .number (some dto.sequenceNum)) ::
  ("sender_id", .string dto.senderID) ::
  ("client_msg_id", .string dto.clientMsgID) ::
  ("ciphertext_base64", .string dto.ciphertextB64) ::
  ("created_at_unix", .number (some dto.createdAtUnix)) :: (
  member (dto.ephemeralTTLSec = 0) "ephemeral_ttl_sec" (.number (some dto.ephemeralTTLSec)) ++
  member (!dto.isDeleted) "is_deleted" (.bool true) ++
  member (!dto.isEdited) "is_edited" (.bool true) ++
  member (!dto.isPinned) "is_pinned" (.bool true)))

/-- A `HistoryResponseFrame`. -/
def marshalHistory (channelID : String) (messages : List HistoryMessageDTO) : Json := .object [
  ("type", .string "history"),
  ("channel_id", .string channelID),
  ("messages", .array (messages.map HistoryMessageDTO.marshal))]

end GenChat.Gateway

namespace GenChat.Client
open Library Gateway

/-! ## What the client makes of it -/

/-- `raw.name`, or `undefined`. -/
def property (raw : Json) (name : String) : Option Json :=
  match raw with
  | .object members => ((members.filter fun m => m.1 = name).getLast?).map Prod.snd
  | _ => none

/-- A property that is a string where it is there at all. -/
def text (raw : Json) (name : String) : Option String :=
  match property raw name with
  | some (.string s) => some s
  | _ => none

/-- A property that is a number where it is there at all. -/
def number (raw : Json) (name : String) : Option Int :=
  match property raw name with
  | some (.number n) => n
  | _ => none

/-- `a || b` on strings. -/
def orText (a b : Option String) : Option String := if a.getD "" = "" then b else a

structure GatewayEnvelope where
  type : String
  channelId : Option String
  senderId : Option String
  clientMsgId : Option String
  sequenceNum : Option Int
  messageType : Option Int
  ciphertext : Option String
  ephemeralTtlSec : Option Int
  replyToMessageId : Option String
  deriving DecidableEq

/-- A string of bytes, as UTF-8 if it is that. -/
def decodeBinary (binary : String) : String :=
  (UriText.decodeURIComponent (UriText.escape binary)).getD binary

def safeBase64Decode (b64 : Option String) : String :=
  let b64 := b64.getD ""
  if b64 = "" then ""
  else
    match UriText.atob b64 with
    | some binary => decodeBinary binary
    | none => b64

/-- The envelope of an entry of the history frame `raw`. -/
def historyEnvelope (raw m : Json) : GatewayEnvelope where
  type := "message"
  channelId := text raw "channel_id"
  senderId := text m "sender_id"
  clientMsgId := orText (text m "client_msg_id") (text m "server_id")
  sequenceNum := number m "sequence_num"
  messageType := none
  ciphertext := some (safeBase64Decode (text m "ciphertext_base64"))
  ephemeralTtlSec := number m "ephemeral_ttl_sec"
  replyToMessageId := orText (text m "reply_to_message_id") (text m "replyToMessageId")

/-- The envelope of a push frame. -/
def pushEnvelope (raw : Json) : GatewayEnvelope where
  type := "message"
  channelId := text raw "channel_id"
  senderId := text raw "sender_id"
  clientMsgId :=
    orText (orText (text raw "client_msg_id") (text raw "clientMsgId")) (text raw "server_id")
  sequenceNum := number raw "server_time"
  messageType := number raw "message_type"
  ciphertext := some (safeBase64Decode (text raw "ciphertext_base64"))
  ephemeralTtlSec := number raw "ephemeral_ttl_sec"
  replyToMessageId := orText (text raw "reply_to_message_id") (text raw "replyToMessageId")

/-- The envelopes that `onmessage` dispatches for push and history frames, in their order. -/
def onmessage (raw : Json) : List GatewayEnvelope :=
  if text raw "type" = some "push" then [pushEnvelope raw]
  else
    match text raw "type", property raw "messages" with
    | some "history", some (.array messages) => messages.reverse.map (historyEnvelope raw)
    | _, _ => []

@[simp] theorem filter_member (left : Bool) (name key : String) (value : Json) :
    ((member left name value).filter fun m => m.1 = key) =
      if name = key then member left name value else [] := by
  by_cases same : name = key <;> cases left <;> simp [member, same]

@[simp] theorem getLast?_member (left : Bool) (name : String) (value : Json) :
    (member left name value).getLast? = if left then none else some (name, value) := by
  cases left <;> rfl

/-- The messages of the gateway have a client id. -/
theorem pushEnvelope_marshal {f : PushFrame} (named : f.clientMsgID ≠ "") :
    pushEnvelope f.marshal = {
      type := "message"
      channelId := some f.channelID
      senderId := some f.senderID
      clientMsgId := some f.clientMsgID
      sequenceNum := some f.serverTime
      messageType := some f.messageType
      ciphertext := some (safeBase64Decode (some f.ciphertextB64))
      ephemeralTtlSec := if f.ephemeralTTLSec = 0 then none else some f.ephemeralTTLSec
      replyToMessageId := if f.replyToMessageID = "" then none else some f.replyToMessageID } := by
  have ephemeral : number f.marshal "ephemeral_ttl_sec" =
      if f.ephemeralTTLSec = 0 then none else some f.ephemeralTTLSec := by
    by_cases zero : f.ephemeralTTLSec = 0 <;>
      simp [number, property, PushFrame.marshal, zero]
  have reply : text f.marshal "reply_to_message_id" =
      if f.replyToMessageID = "" then none else some f.replyToMessageID := by
    by_cases none : f.replyToMessageID = "" <;>
      simp [text, property, PushFrame.marshal, none]
  have aliased : text f.marshal "replyToMessageId" = none := by
    simp [text, property, PushFrame.marshal]
  have client : text f.marshal "client_msg_id" = some f.clientMsgID := by
    simp [text, property, PushFrame.marshal, named]
  have fields : text f.marshal "channel_id" = some f.channelID ∧
      text f.marshal "sender_id" = some f.senderID ∧
      number f.marshal "server_time" = some (f.serverTime : Int) ∧
      number f.marshal "message_type" = some f.messageType ∧
      text f.marshal "ciphertext_base64" = some f.ciphertextB64 := by
    simp [text, number, property, PushFrame.marshal]
  obtain ⟨channel, sender, time, type, ciphertext⟩ := fields
  simp only [pushEnvelope, channel, sender, client, time, type, ciphertext, ephemeral, reply,
    aliased, orText, Option.getD_some, if_neg named]
  congr 1
  by_cases none : f.replyToMessageID = "" <;> simp [none]

theorem historyEnvelope_marshal {channelID : String} {messages : List HistoryMessageDTO}
    {dto : HistoryMessageDTO} (named : dto.clientMsgID ≠ "") :
    historyEnvelope (marshalHistory channelID messages) dto.marshal = {
      type := "message"
      channelId := some channelID
      senderId := some dto.senderID
      clientMsgId := some dto.clientMsgID
      sequenceNum := some dto.sequenceNum
      messageType := none
      ciphertext := some (safeBase64Decode (some dto.ciphertextB64))
      ephemeralTtlSec := if dto.ephemeralTTLSec = 0 then none else some dto.ephemeralTTLSec
      replyToMessageId := none } := by
  have channel : text (marshalHistory channelID messages) "channel_id" = some channelID := by
    simp [text, property, marshalHistory]
  have ephemeral : number dto.marshal "ephemeral_ttl_sec" =
      if dto.ephemeralTTLSec = 0 then none else some dto.ephemeralTTLSec := by
    by_cases zero : dto.ephemeralTTLSec = 0 <;>
      simp [number, property, HistoryMessageDTO.marshal, zero]
  have fields : text dto.marshal "sender_id" = some dto.senderID ∧
      text dto.marshal "client_msg_id" = some dto.clientMsgID ∧
      number dto.marshal "sequence_num" = some dto.sequenceNum ∧
      text dto.marshal "ciphertext_base64" = some dto.ciphertextB64 ∧
      text dto.marshal "reply_to_message_id" = none ∧
      text dto.marshal "replyToMessageId" = none := by
    simp [text, number, property, HistoryMessageDTO.marshal]
  obtain ⟨sender, client, seq, ciphertext, reply, aliased⟩ := fields
  simp only [historyEnvelope, channel, sender, client, seq, ciphertext, ephemeral, reply, aliased,
    orText, Option.getD_some, Option.getD_none, if_neg named, if_true]

theorem onmessage_push (f : PushFrame) : onmessage f.marshal = [pushEnvelope f.marshal] := by
  have type : text f.marshal "type" = some "push" := by simp [text, property, PushFrame.marshal]
  rw [onmessage, if_pos type]

theorem onmessage_history (channelID : String) (messages : List HistoryMessageDTO) :
    onmessage (marshalHistory channelID messages) = messages.reverse.map fun dto =>
      historyEnvelope (marshalHistory channelID messages) dto.marshal := by
  have type : text (marshalHistory channelID messages) "type" = some "history" := by
    simp [text, property, marshalHistory]
  have entries : property (marshalHistory channelID messages) "messages" =
      some (.array (messages.map HistoryMessageDTO.marshal)) := by
    simp [property, marshalHistory]
  rw [onmessage, if_neg (by simp [type]), type, entries]
  simp [← List.map_reverse, Function.comp_def]

/-- Whatever form the base64 has, the bytes decide. -/
theorem safeBase64Decode_bytes {b64 : String} {bytes : List UInt8}
    (h : Base64.decodeString b64 = (bytes, true)) :
    safeBase64Decode (some b64) = decodeBinary (UriText.binaryString bytes) := by
  unfold safeBase64Decode
  dsimp only [Option.getD_some]
  split
  · rename_i empty
    subst empty
    cases h
    rfl
  · rw [UriText.atob_of_decodeString h]

theorem decodeBinary_textEncode (text : String) :
    decodeBinary (UriText.binaryString (BrowserText.textEncode text)) = text := by
  rw [decodeBinary, UriText.decodeURIComponent_escape, Option.getD_some]

/-! ## What the client sends -/

/-- The base64 of a text. The first attempt throws on a string that is not well formed only, and
then so does the second. -/
def encodeText (rawPayload : String) : Option String :=
  match UriText.btoa (UriText.unescape (UriText.encodeURIComponent rawPayload)) with
  | some b64 => some b64
  | none => UriText.btoa (utf16 rawPayload)

/-- The frame that `sendEnvelope` sends; `fresh` is the message id it makes up. -/
def wireFrame (envelope : GatewayEnvelope) (fresh : String) : Option Json :=
  (encodeText (envelope.ciphertext.getD "")).map fun b64 =>
    let messageType := envelope.messageType.getD 0
    let ephemeralTtlSec := envelope.ephemeralTtlSec.getD 0
    let replyToMessageId := envelope.replyToMessageId.getD ""
    .object (("action", .string "send_message") :: (
      member (envelope.channelId = none) "channel_id" (.string (envelope.channelId.getD "")) ++
      ("client_msg_id", .string ((orText envelope.clientMsgId (some fresh)).getD "")) ::
      ("ciphertext_base64", .string b64) ::
      ("message_type", .number (some (if messageType = 0 then 1 else messageType))) :: (
      member (ephemeralTtlSec = 0) "ephemeral_ttl_sec" (.number (some ephemeralTtlSec)) ++
      member (replyToMessageId = "") "reply_to_message_id" (.string replyToMessageId))))

theorem encodeText_eq (rawPayload : String) :
    encodeText rawPayload = some (Base64.encodeToString (BrowserText.textEncode rawPayload)) := by
  rw [encodeText, UriText.unescape_encodeURIComponent, UriText.btoa_bytes]

/-! ## The read marker -/

/-- The items `genchat_last_seq_…` of `localStorage`, by channel, or `none` where there is no
storage. A number is written in decimal and read back. -/
abbrev LocalStorage := Option (String → Option Int)

def getLastReadSeq (storage : LocalStorage) (channelId : String) : Int :=
  (storage.bind fun items => items channelId).getD 0

def setLastReadSeq (storage : LocalStorage) (channelId : String) (seq : Int) : LocalStorage :=
  if getLastReadSeq storage channelId < seq then
    storage.map fun items => Function.update items channelId (some seq)
  else storage

/-- The marker only goes up, and not above what it is given. -/
theorem getLastReadSeq_setLastReadSeq (storage : LocalStorage) (channelId : String) (seq : Int) :
    getLastReadSeq (setLastReadSeq storage channelId seq) channelId =
      if storage = none then 0 else max (getLastReadSeq storage channelId) seq := by
  unfold setLastReadSeq
  cases storage with
  | none =>
    rw [if_pos rfl]
    split <;> rfl
  | some items =>
    split
    · rename_i lower
      simp [getLastReadSeq] at lower ⊢
      omega
    · rename_i same
      rw [if_neg nofun, max_eq_left (not_lt.mp same)]

end GenChat.Client
