import GenChat.Gateway.Server

/-!
# The ledger service

`LedgerHandler` and the store methods it calls. Text that a `Status` message appends about the
failed query is left out.
-/
namespace GenChat.Ledger
open Library Gateway

inductive Code where
  | internal
  | invalidArgument
  | notFound
  | alreadyExists
  | unavailable
  | deadlineExceeded
  deriving DecidableEq, Repr

structure Status where
  code : Code
  message : String
  deriving DecidableEq, Repr

structure StoreMessageRequest where
  conversationId : String
  senderId : String
  clientMsgId : String
  encryptedPayload : Bytes
  senderRatchetKey : Bytes
  messageIndex : Nat
  ephemeralTtlSec : Int

structure StoredMessageResponse where
  conversationId : String
  messageId : String
  sequenceNum : Int
  senderId : String
  clientMsgId : String
  encryptedPayload : Bytes
  senderRatchetKey : Bytes
  messageIndex : Nat
  createdAt : Nat
  ephemeralTtlSec : Int

structure StoreMessageResponse where
  message : StoredMessageResponse
  deduplicated : Bool

def StoredMessage.response (m : StoredMessage) : StoredMessageResponse where
  conversationId := m.conversationID
  messageId := m.messageID.text
  sequenceNum := m.sequenceNum
  senderId := m.senderID
  clientMsgId := m.clientMsgID
  encryptedPayload := m.encryptedPayload
  senderRatchetKey := m.senderRatchetKey
  messageIndex := m.messageIndex
  createdAt := m.createdAt
  ephemeralTtlSec := m.ephemeralTTLSec

/-! ## Store methods of several queries -/

def getDedup (msg : Message) : Proc (Except StoreError (Option DedupRecord)) := do
  match ← queryDedup msg with
  | .ok record => pure (.ok record)
  | .error err =>
    match ← queryDedupLegacy msg with
    | .ok record => pure (.ok record)
    | .error _ => pure (.error err)

/-- The author is recorded under both ids, and neither result is looked at. -/
def insertMessage (msg : StoredMessage) : Proc (Except StoreError Unit) := do
  let _ ← if msg.clientMsgID ≠ "" then
      recordAuthor msg.conversationID msg.clientMsgID msg.senderID
    else pure (.ok ())
  let _ ← recordAuthor msg.conversationID msg.messageID.text msg.senderID
  insertRow msg

/-! ## Handlers -/

namespace LedgerHandler
variable (S : Platform)

/-- The answer to a message that was stored before: its ids, the caller's content. -/
def duplicate (msg : Message) (dedup : DedupRecord) : StoredMessage where
  conversationID := msg.conversationID
  bucket := ""
  messageID := dedup.messageID
  sequenceNum := dedup.sequenceNum
  senderID := msg.senderID
  clientMsgID := msg.clientMsgID
  encryptedPayload := msg.encryptedPayload
  senderRatchetKey := msg.senderRatchetKey
  messageIndex := msg.messageIndex
  createdAt := dedup.createdAt
  deduplicated := true
  ephemeralTTLSec := msg.ephemeralTTLSec

/-- The row to be stored, up to its id. -/
def draft (msg : Message) (seq : Int) (now : Nat) : StoredMessage where
  conversationID := msg.conversationID
  bucket := S.formatBucket now
  messageID := .zero
  sequenceNum := seq
  senderID := msg.senderID
  clientMsgID := msg.clientMsgID
  encryptedPayload := msg.encryptedPayload
  senderRatchetKey := msg.senderRatchetKey
  messageIndex := msg.messageIndex
  createdAt := now
  deduplicated := false
  ephemeralTTLSec := msg.ephemeralTTLSec

/-- The part of `StoreMessageDirect` after the row has its id. -/
def storeNew (storedMsg : StoredMessage) : Proc (Except Status StoredMessage) := do
  match ← insertMessage storedMsg with
  | .error _ => pure (.error ⟨.internal, "failed to insert message"⟩)
  | .ok () =>
    let _ ← insertDedup storedMsg.conversationID storedMsg.clientMsgID storedMsg.messageID
      storedMsg.sequenceNum storedMsg.ephemeralTTLSec
    pure (.ok storedMsg)

def storeMessageDirect (msg : Message) : Proc (Except Status StoredMessage) := do
  match ← getDedup msg with
  | .error _ => pure (.error ⟨.internal, "failed to check dedup"⟩)
  | .ok (some dedup) => pure (.ok (duplicate msg dedup))
  | .ok none =>
    match ← incrSeq msg.conversationID with
    | .error _ => pure (.error ⟨.internal, "failed to get sequence number"⟩)
    | .ok seq =>
      let now ← now
      let msgID ← newUUID (draft S msg seq now)
      storeNew { draft S msg seq now with messageID := msgID }

def message (req : StoreMessageRequest) : Message where
  conversationID := req.conversationId
  senderID := req.senderId
  clientMsgID := req.clientMsgId
  encryptedPayload := req.encryptedPayload
  senderRatchetKey := req.senderRatchetKey
  messageIndex := req.messageIndex
  ephemeralTTLSec := req.ephemeralTtlSec

def storeMessage (req : StoreMessageRequest) : Proc (Except Status StoreMessageResponse) := do
  match ← storeMessageDirect S (message req) with
  | .error err => pure (.error err)
  | .ok storedMsg => pure (.ok ⟨storedMsg.response, storedMsg.deduplicated⟩)

def fetchMessages (conversationId bucket : String) (limit : Int) (beforeMessageId : String) :
    Proc (Except Status (List StoredMessageResponse)) := do
  let beforeID := if beforeMessageId ≠ "" then S.parseUUID beforeMessageId else none
  match ← selectMessages conversationId bucket limit beforeID with
  | .error _ => pure (.error ⟨.internal, "failed to fetch messages"⟩)
  | .ok msgs => pure (.ok (msgs.map StoredMessage.response))

def updateReceipt (conversationId userId receiptType messageId : String) (sequenceNum : Int) :
    Proc (Except Status Unit) :=
  match S.parseUUID messageId with
  | none => pure (.error ⟨.invalidArgument, "invalid message_id"⟩)
  | some id =>
    if receiptType = "delivered" then do
      match ← updateDelivered conversationId userId id sequenceNum with
      | .error _ => pure (.error ⟨.internal, "failed to update receipt"⟩)
      | .ok () => pure (.ok ())
    else if receiptType = "read" then do
      match ← updateRead conversationId userId id sequenceNum with
      | .error _ => pure (.error ⟨.internal, "failed to update receipt"⟩)
      | .ok () => pure (.ok ())
    else pure (.error ⟨.invalidArgument, "invalid receipt type"⟩)

/-- The sender id of the response. -/
def getMessageAuthor (conversationId messageId : String) : Proc (Except Status String) :=
  if conversationId = "" ∨ messageId = "" then
    pure (.error ⟨.invalidArgument, "conversation_id and message_id are required"⟩)
  else do
    match ← selectAuthor conversationId messageId with
    | .error _ => pure (.error ⟨.internal, "failed to get message author"⟩)
    | .ok author =>
      let senderID := (author.map MessageAuthor.senderID).getD ""
      if senderID = "" then pure (.error ⟨.notFound, "author not found for message"⟩)
      else pure (.ok senderID)

def recordMessageEvent (conversationId messageId eventType actorId : String)
    (newCiphertext : Bytes) : Proc (Except Status Unit) :=
  if conversationId = "" ∨ messageId = "" ∨ eventType = "" then
    pure (.error ⟨.invalidArgument, "conversation_id, message_id, and event_type are required"⟩)
  else do
    match ← insertEvent conversationId messageId eventType actorId newCiphertext with
    | .error _ => pure (.error ⟨.internal, "failed to record message event"⟩)
    | .ok () => pure (.ok ())

def fetchMessageEvents (conversationId messageId : String) :
    Proc (Except Status (List MessageEvent)) :=
  if conversationId = "" then
    pure (.error ⟨.invalidArgument, "conversation_id is required"⟩)
  else do
    match ← selectEvents conversationId messageId with
    | .error _ => pure (.error ⟨.internal, "failed to fetch message events"⟩)
    | .ok events => pure (.ok events)

end LedgerHandler

/-! ## The client side -/

/-- A call over gRPC: the request or the answer may be lost, or come too late. -/
def rpc {α : Type} (method : RpcMethod) (handler : Proc (Except Status α)) :
    Proc (Except Status α) := do
  if ← rpcRequest method then
    let answer ← handler
    if ← rpcReply method then pure answer
    else pure (.error ⟨.deadlineExceeded, "context deadline exceeded"⟩)
  else pure (.error ⟨.unavailable, "connection error"⟩)

theorem all_rpc {α : Type} {φ : Op → Prop} {method : RpcMethod} {handler : Proc (Except Status α)}
    (request : φ (.rpcRequest method)) (reply : φ (.rpcReply method)) (all : handler.All φ) :
    (rpc method handler).All φ := by
  refine ⟨request, fun reached => ?_⟩
  cases reached with
  | false => trivial
  | true =>
    refine all.bind fun answer => ⟨reply, fun arrived => ?_⟩
    cases arrived <;> trivial

structure StoreMessageResult where
  messageID : String
  sequenceNum : Int
  deduplicated : Bool
  deriving DecidableEq

structure LedgerMessage where
  conversationID : String
  messageID : String
  sequenceNum : Int
  senderID : String
  clientMsgID : String
  encryptedPayload : Bytes
  createdAt : Nat
  ephemeralTTLSec : Int
  deriving DecidableEq

def StoredMessageResponse.ledgerMessage (m : StoredMessageResponse) : LedgerMessage where
  conversationID := m.conversationId
  messageID := m.messageId
  sequenceNum := m.sequenceNum
  senderID := m.senderId
  clientMsgID := m.clientMsgId
  encryptedPayload := m.encryptedPayload
  createdAt := m.createdAt
  ephemeralTTLSec := m.ephemeralTtlSec

namespace LedgerClient
variable (S : Platform)

def storeMessage (req : StoreMessageRequest) : Proc (Except Status StoreMessageResult) := do
  match ← rpc .storeMessage (LedgerHandler.storeMessage S req) with
  | .error err =>
    if err.code = .alreadyExists then pure (.ok ⟨"", 0, true⟩) else pure (.error err)
  | .ok resp => pure (.ok ⟨resp.message.messageId, resp.message.sequenceNum, resp.deduplicated⟩)

def fetchMessages (conversationID bucket : String) (limit : Int) (beforeMessageID : String) :
    Proc (Except Status (List LedgerMessage)) := do
  let bucket ← if bucket = "" then do pure (S.formatBucket (← now)) else pure bucket
  let limit := if limit ≤ 0 then 50 else limit
  match ← rpc .fetchMessages
      (LedgerHandler.fetchMessages S conversationID bucket limit beforeMessageID) with
  | .error err => pure (.error err)
  | .ok msgs => pure (.ok (msgs.map StoredMessageResponse.ledgerMessage))

def updateReceipt (conversationID userID receiptType messageID : String) (sequenceNum : Int) :
    Proc (Except Status Unit) :=
  rpc .updateReceipt
    (LedgerHandler.updateReceipt S conversationID userID receiptType messageID sequenceNum)

def getMessageAuthor (conversationID messageID : String) : Proc (Except Status String) :=
  rpc .getMessageAuthor (LedgerHandler.getMessageAuthor conversationID messageID)

def recordMessageEvent (conversationID messageID eventType actorID : String)
    (newCiphertext : Bytes) : Proc (Except Status Unit) :=
  rpc .recordMessageEvent
    (LedgerHandler.recordMessageEvent conversationID messageID eventType actorID newCiphertext)

def fetchMessageEvents (conversationID messageID : String) :
    Proc (Except Status (List MessageEvent)) :=
  rpc .fetchMessageEvents (LedgerHandler.fetchMessageEvents conversationID messageID)

end LedgerClient
end GenChat.Ledger
