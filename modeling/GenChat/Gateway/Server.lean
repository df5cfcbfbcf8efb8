import GenChat.Gateway.Frames
import GenChat.Library.Prog

/-!
# The services around a handler

`Op` lists what the gateway and the ledger do to the world outside a function: queries of the
store, the Redis counter, the clock, calls between services, deliveries. Each is one atomic step.
`Server.exec` gives its meaning; the choice decides whether it fails and what the outside answers.
A failed write may have been applied or not.
-/
namespace GenChat.Gateway
open Library Ledger

inductive RpcMethod where
  | storeMessage
  | fetchMessages
  | updateReceipt
  | getMessageAuthor
  | recordMessageEvent
  | fetchMessageEvents
  deriving DecidableEq

inductive Op where
  /-- `SELECT` from `client_dedup` for the message that is about to be stored. -/
  | queryDedup (msg : Message)
  /-- The same for tables without a `sequence_num` column. -/
  | queryDedupLegacy (msg : Message)
  | incrSeq (conversationID : String)
  | now
  /-- `uuid.NewUUID` for the message `draft`; only the bookkeeping `issued` reads the draft. -/
  | newUUID (draft : StoredMessage)
  | recordAuthor (conversationID messageID senderID : String)
  | insertRow (row : StoredMessage)
  | insertDedup (conversationID clientMsgID : String) (messageID : UUID) (sequenceNum ttlSec : Int)
  | selectMessages (conversationID bucket : String) (limit : Int) (beforeID : Option UUID)
  | updateDelivered (conversationID userID : String) (messageID : UUID) (sequenceNum : Int)
  | updateRead (conversationID userID : String) (messageID : UUID) (sequenceNum : Int)
  | selectAuthor (conversationID messageID : String)
  | insertEvent (conversationID messageID eventType actorID : String) (newCiphertext : Bytes)
  | selectEvents (conversationID messageID : String)
  /-- Whether a call reaches the ledger. -/
  | rpcRequest (method : RpcMethod)
  /-- Whether its answer comes back in time. -/
  | rpcReply (method : RpcMethod)
  | getChannelMembers (channelID : String)
  | commitEpoch (channelID : String) (epoch : Int) (commitData : Bytes)
  | isBlocked (blocker blocked : String)
  | isUserOnlineCluster (userID : String)
  | sendToUser (userID : String) (frame : Frame)
  /-- The frame goes to the connection itself, unless its buffer is full. -/
  | connSend (frame : Frame)
  | broadcastAll (excludeUserID : String) (frame : Frame)
  /-- `go r.notifyOfflineRecipient`: a push notification, no frame. -/
  | notifyOffline (recipientUserID channelID : String) (seqNum : Nat)

/-- A query that failed: `err` in the source. -/
inductive StoreError where
  | failed
  deriving DecidableEq

abbrev Ret : Op → Type
  | .queryDedup _ => Except StoreError (Option DedupRecord)
  | .queryDedupLegacy _ => Except StoreError (Option DedupRecord)
  | .incrSeq _ => Except StoreError Int
  | .now => Nat
  | .newUUID _ => UUID
  | .recordAuthor _ _ _ => Except StoreError Unit
  | .insertRow _ => Except StoreError Unit
  | .insertDedup _ _ _ _ _ => Except StoreError Unit
  | .selectMessages _ _ _ _ => Except StoreError (List StoredMessage)
  | .updateDelivered _ _ _ _ => Except StoreError Unit
  | .updateRead _ _ _ _ => Except StoreError Unit
  | .selectAuthor _ _ => Except StoreError (Option MessageAuthor)
  | .insertEvent _ _ _ _ _ => Except StoreError Unit
  | .selectEvents _ _ => Except StoreError (List MessageEvent)
  | .rpcRequest _ => Bool
  | .rpcReply _ => Bool
  | .getChannelMembers _ => Except StoreError (List String)
  | .commitEpoch _ _ _ => Except StoreError Unit
  | .isBlocked _ _ => Bool
  | .isUserOnlineCluster _ => Bool
  | .sendToUser _ _ => Unit
  | .connSend _ => Unit
  | .broadcastAll _ _ => Unit
  | .notifyOffline _ _ _ => Unit

inductive Choice where
  | ok
  | fail
  /-- The caller sees a failure, but the write took effect. -/
  | failApplied
  | uuid (id : UUID)
  | answer (b : Bool)
  deriving DecidableEq

/-- Third-party code and settings outside the repository. -/
structure Platform where
  /-- `uuid.Parse`. -/
  parseUUID : String → Option UUID
  /-- `proto.Unmarshal` into a `Packet`. -/
  unmarshalPacket : Bytes → Option Packet
  /-- `Format("2006-01")` in the server's time zone. -/
  formatBucket : Nat → String

/-- UUIDs of the first seconds of May 2024. -/
def sampleUUIDs : List UUID := [
  ⟨139338432000000000, "ceeb8000-0790-11ef-8000-00155d000001"⟩,
  ⟨139338432010000000, "cf841680-0790-11ef-8000-00155d000002"⟩]

def sampleClock : Nat := 1714550400 * second

/-- A platform that meets no UUIDs but those of the samples, and no packets. -/
def samplePlatform : Platform where
  parseUUID text := sampleUUIDs.find? (·.text = text)
  unmarshalPacket _ := none
  formatBucket _ := "2024-05"

/-- A message of Alice to Bob. -/
def sampleRow : StoredMessage where
  conversationID := "dm:alice:bob"
  bucket := "2024-05"
  messageID := ⟨139338432000000000, "ceeb8000-0790-11ef-8000-00155d000001"⟩
  sequenceNum := 1
  senderID := "alice"
  clientMsgID := "c1"
  encryptedPayload := [1, 2, 3]
  senderRatchetKey := []
  messageIndex := 0
  createdAt := sampleClock
  deduplicated := false
  ephemeralTTLSec := 0

structure Server where
  db : Store
  seqs : Table String Int
  clock : Nat
  /-- The members of each channel, by the text of its id. -/
  channelMembers : Table String (List String)
  /-- Bookkeeping: the message each UUID was generated for, by the text of the UUID. -/
  issued : Table String StoredMessage
  deriving DecidableEq

namespace Server

def empty (clock : Nat) : Server := ⟨.empty, ∅, clock, ∅, ∅⟩

/-- A query: it answers or fails. -/
def query {α : Type} (s : Server) (a : α) : Choice → Option (Except StoreError α × Server)
  | .ok => some (.ok a, s)
  | .fail => some (.error .failed, s)
  | _ => none

/-- A write: applied or not, and reported as such or not. -/
def write (s : Server) (db : Store) : Choice → Option (Except StoreError Unit × Server)
  | .ok => some (.ok (), { s with db := db })
  | .fail => some (.error .failed, s)
  | .failApplied => some (.error .failed, { s with db := db })
  | _ => none

/-- A question whose answer nothing here decides. -/
def ask (s : Server) : Choice → Option (Bool × Server)
  | .answer b => some (b, s)
  | _ => none

def done (s : Server) : Choice → Option (Unit × Server)
  | .ok => some ((), s)
  | _ => none

/-- ScyllaDB refuses a TTL of more than 20 years. -/
def acceptsTTL (ttlSec : Int) : Bool := ttlSec ≤ 630720000

/-- gocql refuses to marshal a larger `message_index` into an `INT`. -/
def acceptsRow (row : StoredMessage) : Bool :=
  row.messageIndex < 2 ^ 31 && acceptsTTL row.ephemeralTTLSec

def members (S : Platform) (s : Server) (channelID : String) : Option (List String) :=
  (S.parseUUID channelID).map fun id => (s.channelMembers.lookup id.text).getD []

def exec (S : Platform) (s : Server) : (op : Op) → Choice → Option (Ret op × Server)
  | .queryDedup msg, c => s.query (s.db.selectDedup s.clock msg.conversationID msg.clientMsgID) c
  | .queryDedupLegacy msg, c =>
    s.query ((s.db.selectDedup s.clock msg.conversationID msg.clientMsgID).map fun r =>
      { r with sequenceNum := 0 }) c
  | .incrSeq k, c =>
    let n := (s.seqs.lookup k).getD 0 + 1
    match c with
    | .ok => some (.ok n, { s with seqs := s.seqs.insert k n })
    | .fail => some (.error .failed, s)
    | .failApplied => some (.error .failed, { s with seqs := s.seqs.insert k n })
    | _ => none
  | .now, c => match c with
    | .ok => some (s.clock, s)
    | _ => none
  | .newUUID draft, c => match c with
    | .uuid id =>
      if s.issued.lookup id.text = none then
        some (id, { s with issued := s.issued.insert id.text { draft with messageID := id } })
      else none
    | _ => none
  | .recordAuthor k mid u, c => s.write (s.db.insertAuthor s.clock k mid u) c
  | .insertRow row, c =>
    if acceptsRow row then s.write (s.db.insertRow s.clock row) c else some (.error .failed, s)
  | .insertDedup k cid mid n ttl, c =>
    if acceptsTTL ttl then s.write (s.db.insertDedup s.clock k cid mid n ttl) c
    else some (.error .failed, s)
  | .selectMessages k bucket limit before, c =>
    s.query (s.db.selectMessages s.clock k bucket limit before) c
  | .updateDelivered k u mid n, c => s.write (s.db.updateReceipt s.clock k u fun r =>
      { r with lastDelivered := some (mid, n), updatedAt := s.clock }) c
  | .updateRead k u mid n, c => s.write (s.db.updateReceipt s.clock k u fun r =>
      { r with lastRead := some (mid, n), updatedAt := s.clock }) c
  | .selectAuthor k mid, c => s.query (s.db.selectAuthor k mid) c
  | .insertEvent k mid type actor ct, c =>
    s.write (s.db.insertEvent ⟨k, mid, type⟩ ⟨actor, ct, s.clock⟩) c
  | .selectEvents k mid, c => s.query (s.db.selectEvents k mid) c
  | .rpcRequest _, c => s.ask c
  | .rpcReply _, c => s.ask c
  | .getChannelMembers id, c => match s.members S id with
    | some ms => s.query ms c
    | none => s.query [] .fail
  | .commitEpoch _ _ _, c => s.query () c
  | .isBlocked _ _, c => s.ask c
  | .isUserOnlineCluster _, c => s.ask c
  | .sendToUser _ _, c => s.done c
  | .connSend _, c => s.done c
  | .broadcastAll _ _, c => s.done c
  | .notifyOffline _ _ _, c => s.done c

/-! ## Answers -/

variable {s s' : Server} {c : Choice}

@[simp] theorem query_eq_some {α : Type} {a : α} {r : Except StoreError α} :
    s.query a c = some (r, s') ↔
      s' = s ∧ (c = .ok ∧ r = .ok a ∨ c = .fail ∧ r = .error .failed) := by
  cases c <;> simp [query, eq_comm, and_comm]

@[simp] theorem write_eq_some {db : Store} {r : Except StoreError Unit} :
    s.write db c = some (r, s') ↔
      c = .ok ∧ r = .ok () ∧ s' = { s with db := db } ∨
      c = .fail ∧ r = .error .failed ∧ s' = s ∨
      c = .failApplied ∧ r = .error .failed ∧ s' = { s with db := db } := by
  cases c <;> simp [write, eq_comm]

@[simp] theorem ask_eq_some {b : Bool} : s.ask c = some (b, s') ↔ c = .answer b ∧ s' = s := by
  cases c <;> simp [ask, eq_comm]

@[simp] theorem done_eq_some {u : Unit} : s.done c = some (u, s') ↔ c = .ok ∧ s' = s := by
  cases c <;> simp [done, eq_comm]

theorem getChannelMembers_cases {S : Platform} {id : String}
    {r : Except StoreError (List String)}
    (h : s.exec S (.getChannelMembers id) c = some (r, s')) :
    s' = s ∧ (r = .error .failed ∨ ∃ ms, s.members S id = some ms ∧ r = .ok ms) := by
  simp only [exec] at h
  cases found : s.members S id with
  | none =>
    rw [found] at h
    cases h
    exact ⟨rfl, .inl rfl⟩
  | some ms =>
    rw [found] at h
    obtain ⟨rfl, ⟨-, rfl⟩ | ⟨-, rfl⟩⟩ := query_eq_some.mp h
    · exact ⟨rfl, .inr ⟨ms, rfl, rfl⟩⟩
    · exact ⟨rfl, .inl rfl⟩

end Server

/-- The operations over a server state. -/
abbrev system (S : Platform) : System Op Ret := ⟨Server, Choice, Server.exec S⟩

/-- Some UUID has not been handed out yet. -/
theorem Server.exists_fresh (s : Server) : ∃ id : UUID, s.issued.lookup id.text = none := by
  obtain ⟨text, fresh⟩ := Infinite.exists_notMem_finset s.issued.keys.toFinset
  refine ⟨⟨0, text⟩, AList.lookup_eq_none.mpr fun mem => fresh ?_⟩
  simpa [AList.mem_keys] using mem

/-- No operation ever gets stuck. -/
theorem system_live (S : Platform) (s : Server) (op : Op) :
    ∃ c r s', (system S).exec s op c = some (r, s') := by
  cases op
  case newUUID draft =>
    obtain ⟨id, fresh⟩ := s.exists_fresh
    exact ⟨.uuid id, id, _, by simp [system, Server.exec, fresh]; rfl⟩
  case isBlocked => exact ⟨.answer true, true, s, rfl⟩
  case isUserOnlineCluster => exact ⟨.answer true, true, s, rfl⟩
  case rpcRequest => exact ⟨.answer true, true, s, rfl⟩
  case rpcReply => exact ⟨.answer true, true, s, rfl⟩
  case getChannelMembers id =>
    refine ⟨.fail, .error .failed, s, ?_⟩
    simp only [system, Server.exec]
    split <;> rfl
  case insertRow row =>
    refine ⟨.fail, .error .failed, s, ?_⟩
    simp only [system, Server.exec]
    split <;> rfl
  case insertDedup k cid mid n ttl =>
    refine ⟨.fail, .error .failed, s, ?_⟩
    simp only [system, Server.exec]
    split <;> rfl
  all_goals exact ⟨.ok, _, _, rfl⟩

/-- What happens between the operations of the threads. -/
inductive Change where
  | tick (nanoseconds : Nat)
  | setMembers (channelID : String) (userIDs : List String)
  deriving DecidableEq

def Server.change (s : Server) : Change → Option Server
  | .tick n => some { s with clock := s.clock + n }
  | .setMembers id userIDs =>
    some { s with channelMembers := s.channelMembers.insert id userIDs }

/-! ## Operations as programs -/

abbrev Proc := Prog Op Ret

section Operations

@[simp] def issue (op : Op) : Proc (Ret op) := Prog.perform op

@[simp] def queryDedup (msg : Message) : Proc (Except StoreError (Option DedupRecord)) :=
  issue (.queryDedup msg)

@[simp] def queryDedupLegacy (msg : Message) : Proc (Except StoreError (Option DedupRecord)) :=
  issue (.queryDedupLegacy msg)

@[simp] def incrSeq (conversationID : String) : Proc (Except StoreError Int) :=
  issue (.incrSeq conversationID)

@[simp] def now : Proc Nat := issue .now

@[simp] def newUUID (draft : StoredMessage) : Proc UUID := issue (.newUUID draft)

@[simp] def recordAuthor (conversationID messageID senderID : String) :
    Proc (Except StoreError Unit) := issue (.recordAuthor conversationID messageID senderID)

@[simp] def insertRow (row : StoredMessage) : Proc (Except StoreError Unit) :=
  issue (.insertRow row)

@[simp] def insertDedup (conversationID clientMsgID : String) (messageID : UUID)
    (sequenceNum ttlSec : Int) : Proc (Except StoreError Unit) :=
  issue (.insertDedup conversationID clientMsgID messageID sequenceNum ttlSec)

@[simp] def selectMessages (conversationID bucket : String) (limit : Int)
    (beforeID : Option UUID) : Proc (Except StoreError (List StoredMessage)) :=
  issue (.selectMessages conversationID bucket limit beforeID)

@[simp] def updateDelivered (conversationID userID : String) (messageID : UUID)
    (sequenceNum : Int) : Proc (Except StoreError Unit) :=
  issue (.updateDelivered conversationID userID messageID sequenceNum)

@[simp] def updateRead (conversationID userID : String) (messageID : UUID)
    (sequenceNum : Int) : Proc (Except StoreError Unit) :=
  issue (.updateRead conversationID userID messageID sequenceNum)

@[simp] def selectAuthor (conversationID messageID : String) :
    Proc (Except StoreError (Option MessageAuthor)) :=
  issue (.selectAuthor conversationID messageID)

@[simp] def insertEvent (conversationID messageID eventType actorID : String)
    (newCiphertext : Bytes) : Proc (Except StoreError Unit) :=
  issue (.insertEvent conversationID messageID eventType actorID newCiphertext)

@[simp] def selectEvents (conversationID messageID : String) :
    Proc (Except StoreError (List MessageEvent)) :=
  issue (.selectEvents conversationID messageID)

@[simp] def rpcRequest (method : RpcMethod) : Proc Bool := issue (.rpcRequest method)

@[simp] def rpcReply (method : RpcMethod) : Proc Bool := issue (.rpcReply method)

@[simp] def getChannelMembers (channelID : String) : Proc (Except StoreError (List String)) :=
  issue (.getChannelMembers channelID)

@[simp] def commitEpoch (channelID : String) (epoch : Int) (commitData : Bytes) :
    Proc (Except StoreError Unit) := issue (.commitEpoch channelID epoch commitData)

@[simp] def isBlocked (blocker blocked : String) : Proc Bool := issue (.isBlocked blocker blocked)

@[simp] def isUserOnlineCluster (userID : String) : Proc Bool :=
  issue (.isUserOnlineCluster userID)

@[simp] def sendToUser (userID : String) (frame : Frame) : Proc Unit :=
  issue (.sendToUser userID frame)

@[simp] def connSend (frame : Frame) : Proc Unit := issue (.connSend frame)

@[simp] def broadcastAll (excludeUserID : String) (frame : Frame) : Proc Unit :=
  issue (.broadcastAll excludeUserID frame)

@[simp] def notifyOffline (recipientUserID channelID : String) (seqNum : Nat) : Proc Unit :=
  issue (.notifyOffline recipientUserID channelID seqNum)

end Operations

end GenChat.Gateway
