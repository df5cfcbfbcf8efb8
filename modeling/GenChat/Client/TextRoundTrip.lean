import GenChat.Client.Envelopes
import GenChat.Gateway.Sends
import GenChat.Library.JsonText

/-!
# Texts from client to client

`sendEnvelope` writes a text as the base64 of its UTF-8, the gateway pushes that base64 as it is
and keeps the bytes, and the history encodes them again. Either way the receiver reads the text.
Only an empty text does not get there: its base64 is empty too, and the gateway turns the frame
away as incomplete.
-/
namespace GenChat.Client
open Library Ledger Gateway Router BrowserText

/-- The bytes are what `JSON.stringify` makes of the frame for the envelope: an object. The client
asks for no subprotocol, so its connection is one for JSON. -/
structure SentBy (t : Inbound) (envelope : GatewayEnvelope) (fresh : String) : Prop where
  json : t.conn.wireFormat = .json
  brace : t.data.head? = some 0x7B
  reads : Json.parse t.data = wireFrame envelope fresh

/-! ## The frame -/

section Fields
variable (name key : String) (value : Json) (ms ns : List (String × Json)) (left : Bool)

theorem field_cons : (Json.object ((key, value) :: ms)).field name =
    (if Json.sameKey key name then [value] else []) ++ (Json.object ms).field name := by
  by_cases same : Json.sameKey key name = true <;> simp [Json.field, same]

theorem field_append : (Json.object (ms ++ ns)).field name =
    (Json.object ms).field name ++ (Json.object ns).field name := by
  simp [Json.field]

theorem field_member : (Json.object (member left key value)).field name =
    if Json.sameKey key name && !left then [value] else [] := by
  cases left <;> by_cases same : Json.sameKey key name = true <;> simp [Json.field, member, same]

end Fields

section Frame
variable {envelope : GatewayEnvelope} {fresh : String} {j : Json}

theorem wireFrame_isSome (envelope : GatewayEnvelope) (fresh : String) :
    ∃ j, wireFrame envelope fresh = some j := by
  rw [wireFrame, encodeText_eq]
  exact ⟨_, rfl⟩

theorem wireFrame_action (h : wireFrame envelope fresh = some j) :
    unmarshalAction j = some "send_message" := by
  rw [wireFrame, encodeText_eq] at h
  cases h
  simp +decide [unmarshalAction, Json.isStruct, Json.readString, field_cons, field_append,
    field_member]

theorem wireFrame_ciphertext (h : wireFrame envelope fresh = some j) :
    j.readString "ciphertext_base64" =
      some (Base64.encodeToString (textEncode (envelope.ciphertext.getD ""))) := by
  rw [wireFrame, encodeText_eq] at h
  cases h
  simp +decide [Json.readString, field_cons, field_append, field_member]

theorem ciphertextB64_of_unmarshal {frame : InboundFrame}
    (h : InboundFrame.unmarshal j = some frame) :
    j.readString "ciphertext_base64" = some frame.ciphertextB64 := by
  simp [InboundFrame.unmarshal, Option.bind_eq_some_iff] at h
  grind

theorem wireFrame_unmarshal (h : wireFrame envelope fresh = some j) {frame : InboundFrame}
    (read : InboundFrame.unmarshal j = some frame) :
    frame.ciphertextB64 = Base64.encodeToString (textEncode (envelope.ciphertext.getD "")) :=
  Option.some.inj ((ciphertextB64_of_unmarshal read).symm.trans (wireFrame_ciphertext h))

/-- The gateway takes the bytes for a `send_message` in JSON. -/
theorem SentBy.sends {S : Platform} {t : Inbound} (sent : SentBy t envelope fresh)
    (h : wireFrame envelope fresh = some j) : t.Sends S j := by
  obtain ⟨rest, data⟩ := List.head?_eq_some_iff.mp sent.brace
  have text : ¬ (t.conn.wireFormat = .protobuf ∨ isProtobufPayload t.data = true) := by
    rw [sent.json, data]
    exact not_or.mpr ⟨nofun, Bool.false_ne_true⟩
  rw [Inbound.Sends, reading, if_neg text, readingJson, sent.reads, h, Option.bind_some,
    wireFrame_action h]
  rfl

end Frame

/-! ## The way of a text -/

section Text
variable {S : Platform} {r : Router} {p : Pool (gateway S r)} {t : Inbound}
  {envelope : GatewayEnvelope} {fresh : String}

theorem textEncode_eq_nil {text : String} : textEncode text = [] ↔ text = "" := by
  refine ⟨fun empty => ?_, fun same => by subst same; rfl⟩
  have decoded := fromUTF8?_textEncode text
  rw [empty, ← show textEncode "" = [] from rfl, fromUTF8?_textEncode] at decoded
  exact (Option.some.inj decoded).symm

theorem decoded_eq {text b64 : String} {bytes : Bytes}
    (same : b64 = Base64.encodeToString (textEncode text))
    (decodes : Base64.decodeString b64 = (bytes, true)) : bytes = textEncode text := by
  rw [same, Base64.decodeString_encodeToString] at decodes
  exact (congrArg Prod.fst decodes).symm

/-- The frame of an empty text is incomplete. -/
theorem handle_empty (sent : SentBy t envelope fresh) (empty : envelope.ciphertext.getD "" = "") :
    ∃ code msg, r.Handle S t.conn t.data = sendError t.conn code msg := by
  obtain ⟨j, wire⟩ := wireFrame_isSome envelope fresh
  rw [Handle_eq, show reading S t.conn t.data = _ from sent.sends wire]
  show ∃ code msg, r.handleSendMessage S t.conn j = _
  unfold handleSendMessage
  split
  · exact ⟨_, _, rfl⟩
  · rename_i frame read
    have none : frame.ciphertextB64 = "" := by
      rw [wireFrame_unmarshal wire read, empty]
      rfl
    rw [if_pos (.inr (.inr none))]
    exact ⟨_, _, rfl⟩

end Text

/-! ## Samples -/

def greeting : GatewayEnvelope where
  type := "message"
  channelId := some "bob"
  senderId := none
  clientMsgId := some "c1"
  sequenceNum := none
  messageType := none
  ciphertext := some "grüße ✓"
  ephemeralTtlSec := none
  replyToMessageId := none

/-- What Alice sends for it. -/
def greetingFrame : Inbound := ⟨⟨"alice", .json⟩, textEncode
  ("\x7b\"action\":\"send_message\",\"channel_id\":\"bob\",\"client_msg_id\":\"c1\"," ++
    "\"ciphertext_base64\":\"Z3LDvMOfZSDinJM=\",\"message_type\":1\x7d")⟩

/-- What she sends for an empty text. -/
def emptyFrame : Inbound := ⟨⟨"alice", .json⟩, textEncode
  ("\x7b\"action\":\"send_message\",\"channel_id\":\"bob\",\"client_msg_id\":\"c1\"," ++
    "\"ciphertext_base64\":\"\",\"message_type\":1\x7d")⟩

theorem sample_sent {text b64 : String} {t : Inbound} (json : t.conn.wireFormat = .json)
    (base64 : Base64.encodeToString (textEncode text) = b64) (plain : Json.Plain b64)
    (data : t.data = textEncode (String.ofList (Json.printObject [
      ("action", .string "send_message"), ("channel_id", .string "bob"),
      ("client_msg_id", .string "c1"), ("ciphertext_base64", .string b64),
      ("message_type", .number 1)]))) :
    SentBy t { greeting with ciphertext := some text } "" := by
  refine ⟨json, ?_, ?_⟩
  · rw [data, Json.printObject, textEncode_ofList_cons]
    rfl
  · rw [data, Json.parse_printObject (List.cons_ne_nil _ _), wireFrame, encodeText_eq]
    · show some (Json.object _) = some (Json.object _)
      simp [base64, greeting, member, orText, Json.Scalar.json]
    · intro m hm
      simp only [List.mem_cons, List.not_mem_nil, or_false] at hm
      rcases hm with rfl | rfl | rfl | rfl | rfl
      · exact ⟨by decide, show Json.Plain _ by decide⟩
      · exact ⟨by decide, show Json.Plain _ by decide⟩
      · exact ⟨by decide, show Json.Plain _ by decide⟩
      · exact ⟨show Json.Plain "ciphertext_base64" by decide, plain⟩
      · exact ⟨by decide, trivial⟩

theorem greeting_sent : SentBy greetingFrame greeting "" :=
  @sample_sent "grüße ✓" "Z3LDvMOfZSDinJM=" greetingFrame rfl (by rfl) (by decide)
    (congrArg textEncode (by decide))

def askFrame : Inbound := ⟨⟨"bob", .json⟩, textEncode
  "\x7b\"action\":\"fetch_history\",\"channel_id\":\"alice\"\x7d"⟩

/-- The greeting is pushed to Bob, who then asks for the history. -/
def greetingRun : Option (Pool (gateway samplePlatform sampleRouter)) :=
  runFrom samplePlatform sampleRouter (fun _ _ => True) sampleClock [
    .spawn greetingFrame, .run 0 (.answer true), .run 0 .ok, .run 0 .ok, .run 0 .ok,
    .run 0 (.uuid sampleRow.messageID), .run 0 .ok, .run 0 .ok, .run 0 .ok,
    .run 0 .ok, .run 0 (.answer true), .run 0 .ok, .run 0 .ok, .run 0 (.answer false), .run 0 .ok,
    .run 0 (.answer true), .spawn askFrame, .run 1 .ok, .run 1 (.answer true),
    .run 1 .ok, .run 1 (.answer true), .run 1 (.answer true), .run 1 .ok, .run 1 (.answer true),
    .run 1 .ok]

set_option maxRecDepth 20000

theorem greetingRun_isSome : greetingRun.isSome := by rfl

def greetingPool : Pool (gateway samplePlatform sampleRouter) := greetingRun.get greetingRun_isSome

def greetingPush : PushFrame where
  channelID := "bob"
  senderID := "alice"
  ciphertextB64 := "Z3LDvMOfZSDinJM="
  messageType := 1
  serverID := sampleRow.messageID.text
  serverTime := 1714550400
  ephemeralTTLSec := 0
  replyToMessageID := ""
  clientMsgID := "c1"

def greetingEntry : HistoryMessageDTO where
  serverID := sampleRow.messageID.text
  sequenceNum := 1
  senderID := "alice"
  clientMsgID := "c1"
  ciphertextB64 := "Z3LDvMOfZSDinJM="
  createdAtUnix := 1714550400
  ephemeralTTLSec := 0
  isDeleted := false
  isEdited := false
  isPinned := false

deriving instance DecidableEq for Inbound, PushFrame

/-- What the run logs of the greeting: its row, its push and its entry. -/
theorem greeting_logged :
    (greetingPool.log.any fun x => x.1 = greetingFrame && match x.2 with
      | .insertRow row => greetingEntry.serverID = row.messageID.text
      | _ => false) = true ∧
    (greetingPool.log.any fun x => x.1 = greetingFrame && match x.2 with
      | .sendToUser u (.push f) => u = "bob" && f = greetingPush
      | _ => false) = true ∧
    (greetingPool.log.any fun x => x.1 = askFrame && match x.2 with
      | .sendToUser u (.history ch ms) => u = "bob" && ch = "alice" && ms = [greetingEntry]
      | _ => false) = true := by
  decide

/-- The row of the greeting was inserted for it. -/
theorem greeting_inserted : ∃ row, (greetingFrame, .insertRow row) ∈ greetingPool.log ∧
    greetingEntry.serverID = row.messageID.text := by
  obtain ⟨⟨t, op⟩, mem, test⟩ := List.any_eq_true.mp greeting_logged.1
  obtain ⟨same, row⟩ := Bool.and_eq_true_iff.mp test
  cases op <;> try cases row
  case insertRow row' =>
    exact ⟨row', of_decide_eq_true same ▸ mem, of_decide_eq_true row⟩

theorem greeting_pushed :
    (greetingFrame, .sendToUser "bob" (.push greetingPush)) ∈ greetingPool.log := by
  obtain ⟨⟨t, op⟩, mem, test⟩ := List.any_eq_true.mp greeting_logged.2.1
  simp only [Bool.and_eq_true, decide_eq_true_eq] at test
  obtain ⟨rfl, pushed⟩ := test
  split at pushed
  · simp only [Bool.and_eq_true, decide_eq_true_eq] at pushed
    obtain ⟨rfl, rfl⟩ := pushed
    exact mem
  · cases pushed

theorem greeting_answered :
    (askFrame, .sendToUser "bob" (.history "alice" [greetingEntry])) ∈ greetingPool.log := by
  obtain ⟨⟨t, op⟩, mem, test⟩ := List.any_eq_true.mp greeting_logged.2.2
  simp only [Bool.and_eq_true, decide_eq_true_eq] at test
  obtain ⟨rfl, answered⟩ := test
  split at answered
  · simp only [Bool.and_eq_true, decide_eq_true_eq] at answered
    obtain ⟨⟨rfl, rfl⟩, rfl⟩ := answered
    exact mem
  · cases answered

end GenChat.Client
