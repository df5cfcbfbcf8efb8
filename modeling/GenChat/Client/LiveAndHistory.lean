import GenChat.Client.Envelopes
import GenChat.Gateway.Sends

/-!
# One message, live and from the history

A client gets a message as a push, and again as an entry of a history response. Both tell of the
same row of the ledger, so their envelopes agree on the sender, the client's message id and the
ciphertext. But the push frame has no sequence number, and the client takes its server time, in
seconds, for one; and the history has no replies.
-/
namespace GenChat.Client
open Library Ledger Gateway

/-! ## Two envelopes of one message -/

structure SameMessage (live history : GatewayEnvelope) : Prop where
  senderId : live.senderId = history.senderId
  clientMsgId : live.clientMsgId = history.clientMsgId
  sequenceNum : live.sequenceNum = history.sequenceNum
  ciphertext : live.ciphertext = history.ciphertext
  replyToMessageId : live.replyToMessageId = history.replyToMessageId

/-- The ledger holds a message of the conversation with that sequence number, or a later one. -/
def WithinLedger (db : Store) (conversationID : String) (seq : Int) : Prop :=
  seq ≤ 0 ∨ ∃ m, db.Holds m ∧ m.conversationID = conversationID ∧ seq ≤ m.sequenceNum

/-- What the chat page does with the sequence number of an envelope, under its name for the
channel. -/
def markRead (storage : LocalStorage) (channelId : String) (envelope : GatewayEnvelope) :
    LocalStorage :=
  match envelope.sequenceNum with
  | some seq => if seq = 0 then storage else setLastReadSeq storage channelId seq
  | none => storage

/-- A marker that is within the ledger's sequence numbers stays within them. -/
def KeepsMarker (db : Store) (conversationID : String) (envelope : GatewayEnvelope) : Prop :=
  ∀ storage channelId, WithinLedger db conversationID (getLastReadSeq storage channelId) →
    WithinLedger db conversationID (getLastReadSeq (markRead storage channelId envelope) channelId)

theorem keepsMarker_of_within {db : Store} {k : String} {envelope : GatewayEnvelope} {seq : Int}
    (number : envelope.sequenceNum = some seq) (within : WithinLedger db k seq) :
    KeepsMarker db k envelope := by
  intro storage channelId marked
  rw [markRead, number]
  dsimp only
  split
  · exact marked
  · rw [getLastReadSeq_setLastReadSeq]
    split
    · exact .inl le_rfl
    · rcases max_choice (getLastReadSeq storage channelId) seq with same | same
      · rwa [same]
      · rwa [same]

/-! ## Agreement -/

section Agreement
variable {S : Platform} {r : Router} {p : Pool (gateway S r)} {t t' : Inbound} {j : Json} {op : Op}
  {f : PushFrame} {u ch : String} {messages : List HistoryMessageDTO} {dto : HistoryMessageDTO}
  {i : Nat} {live history : GatewayEnvelope}

end Agreement

/-! ## Samples -/

/-- `fetch_history` of the messages with Alice. -/
def fetchFrame : Bytes :=
  "\x7b\"action\":\"fetch_history\",\"channel_id\":\"alice\"\x7d".toUTF8.data.toList

/-- Alice's message is pushed to Bob, who then asks for the history. -/
def liveRun : Option (Pool (gateway samplePlatform sampleRouter)) :=
  runFrom samplePlatform sampleRouter (fun _ _ => True) sampleClock (helloLabels ++ [
    .run 0 .ok, .run 0 (.answer true), .run 0 .ok, .run 0 .ok, .run 0 (.answer false), .run 0 .ok,
    .run 0 (.answer true), .spawn ⟨⟨"bob", .json⟩, fetchFrame⟩, .run 1 .ok, .run 1 (.answer true),
    .run 1 .ok, .run 1 (.answer true), .run 1 (.answer true), .run 1 .ok, .run 1 (.answer true),
    .run 1 .ok])

theorem liveRun_isSome : liveRun.isSome := by rfl

def livePool : Pool (gateway samplePlatform sampleRouter) := liveRun.get liveRun_isSome

theorem livePool_reach : (Pool.machine (gateway samplePlatform sampleRouter)).Reachable livePool :=
  (runFrom_reach (Option.some_get liveRun_isSome).symm).mono fun _ _ _ => trivial

def livePush : PushFrame where
  channelID := "bob"
  senderID := "alice"
  ciphertextB64 := "AQID"
  messageType := 0
  serverID := sampleRow.messageID.text
  serverTime := 1714550400
  ephemeralTTLSec := 0
  replyToMessageID := ""
  clientMsgID := "c1"

def liveEntry : HistoryMessageDTO where
  serverID := sampleRow.messageID.text
  sequenceNum := 1
  senderID := "alice"
  clientMsgID := "c1"
  ciphertextB64 := "AQID"
  createdAtUnix := 1714550400
  ephemeralTTLSec := 0
  isDeleted := false
  isEdited := false
  isPinned := false

theorem livePool_push : (⟨⟨"alice", .json⟩, helloFrame⟩, .sendToUser "bob" (.push livePush)) ∈
    livePool.log := List.mem_of_getElem? (i := 13) rfl

theorem livePool_history : (⟨⟨"bob", .json⟩, fetchFrame⟩,
    .sendToUser "bob" (.history "alice" [liveEntry])) ∈ livePool.log :=
  List.mem_of_getElem? (i := 22) rfl

theorem hello_sends : ∃ j, Inbound.Sends samplePlatform ⟨⟨"alice", .json⟩, helloFrame⟩ j := ⟨_, rfl⟩

theorem live_dispatched : pushEnvelope livePush.marshal ∈ onmessage livePush.marshal := by
  rw [onmessage_push]
  exact List.mem_singleton_self _

theorem history_listed : (onmessage (marshalHistory "alice" [liveEntry])).reverse[0]? =
    some (historyEnvelope (marshalHistory "alice" [liveEntry]) liveEntry.marshal) := by
  rw [onmessage_history]
  rfl

end GenChat.Client
