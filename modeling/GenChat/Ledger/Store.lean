import Mathlib.Data.List.AList
import Mathlib.Data.List.Sort
import Mathlib.Tactic

/-!
# The tables of the message ledger

`ScyllaStore` keeps its tables under the primary keys of `001_messages.cql`, one association list
each, so a second row under one key is impossible. Rows written with a TTL stay in the table and
are skipped by reads once they have expired. Times are nanoseconds.
-/
namespace GenChat.Ledger

abbrev Bytes := List UInt8

/-- A version 1 UUID: its timestamp and its canonical text. -/
structure UUID where
  time : Nat
  text : String
  deriving DecidableEq

namespace UUID

def zero : UUID := ⟨0, "00000000-0000-0000-0000-000000000000"⟩

/-- The order of the `timeuuid` type. -/
def before (a b : UUID) : Bool := a.time < b.time || (a.time == b.time && a.text < b.text)

end UUID

structure Message where
  conversationID : String
  senderID : String
  clientMsgID : String
  encryptedPayload : Bytes
  senderRatchetKey : Bytes
  messageIndex : Nat
  ephemeralTTLSec : Int
  deriving DecidableEq

structure StoredMessage where
  conversationID : String
  bucket : String
  messageID : UUID
  sequenceNum : Int
  senderID : String
  clientMsgID : String
  encryptedPayload : Bytes
  senderRatchetKey : Bytes
  messageIndex : Nat
  createdAt : Nat
  deduplicated : Bool
  ephemeralTTLSec : Int
  deriving DecidableEq

structure MessageKey where
  conversationID : String
  bucket : String
  messageID : UUID
  deriving DecidableEq

def StoredMessage.key (m : StoredMessage) : MessageKey := ⟨m.conversationID, m.bucket, m.messageID⟩

structure DedupRecord where
  messageID : UUID
  sequenceNum : Int
  createdAt : Nat
  deriving DecidableEq

structure MessageAuthor where
  senderID : String
  createdAt : Nat
  deriving DecidableEq

structure Receipt where
  lastDelivered : Option (UUID × Int)
  lastRead : Option (UUID × Int)
  updatedAt : Nat
  deriving DecidableEq

structure MessageEvent where
  conversationID : String
  messageID : String
  eventType : String
  actorID : String
  newCiphertext : Bytes
  createdAt : Nat
  deriving DecidableEq

structure EventKey where
  conversationID : String
  messageID : String
  eventType : String
  deriving DecidableEq

/-- The columns of `message_events` outside its primary key. -/
structure EventColumns where
  actorID : String
  newCiphertext : Bytes
  createdAt : Nat
  deriving DecidableEq

def EventColumns.event (k : EventKey) (c : EventColumns) : MessageEvent :=
  ⟨k.conversationID, k.messageID, k.eventType, c.actorID, c.newCiphertext, c.createdAt⟩

/-- A row with the time at which its TTL has run out. -/
structure Cell (α : Type) where
  row : α
  expiresAt : Option Nat
  deriving DecidableEq

def Cell.live {α : Type} (now : Nat) (c : Cell α) : Bool :=
  match c.expiresAt with
  | none => true
  | some t => now < t

abbrev Table (κ α : Type) := AList fun _ : κ => α

/-- What a table holds after an insert was inserted or was there before. -/
theorem lookup_insert_cases {κ α : Type} [DecidableEq κ] {t : Table κ α} {k k' : κ} {a a' : α}
    (h : (t.insert k' a').lookup k = some a) : t.lookup k = some a ∨ k = k' ∧ a = a' := by
  by_cases same : k = k'
  · subst same
    rw [AList.lookup_insert] at h
    cases h
    exact .inr ⟨rfl, rfl⟩
  · rw [AList.lookup_insert_ne same] at h
    exact .inl h

def second : Nat := 1000000000

/-- A row of a table without default TTL, written with `USING TTL` when `ttlSec` is positive. -/
def expiry (now : Nat) (ttlSec : Int) : Option Nat :=
  if 0 < ttlSec then some (now + ttlSec.toNat * second) else none

/-- `client_dedup` has a default TTL of a day. -/
def dedupExpiry (now : Nat) (ttlSec : Int) : Option Nat :=
  if 0 < ttlSec then some (now + ttlSec.toNat * second) else some (now + 86400 * second)

structure Store where
  messages : Table MessageKey (Cell StoredMessage)
  authors : Table (String × String) MessageAuthor
  clientDedup : Table (String × String) (Cell DedupRecord)
  receipts : Table (String × String) Receipt
  events : Table EventKey EventColumns
  deriving DecidableEq

namespace Store

def empty : Store := ⟨∅, ∅, ∅, ∅, ∅⟩

variable (db : Store) (now : Nat)

/-! ## Queries -/

def selectDedup (conversationID clientMsgID : String) : Option DedupRecord :=
  ((db.clientDedup.lookup (conversationID, clientMsgID)).filter (·.live now)).map Cell.row

def selectAuthor (conversationID messageID : String) : Option MessageAuthor :=
  db.authors.lookup (conversationID, messageID)

/-- The rows of a table in no particular order. -/
def rows {κ α : Type} (t : Table κ α) : List α := t.entries.map Sigma.snd

def eventRows : List MessageEvent := db.events.entries.map fun e => e.2.event e.1

/-- `TTL(encrypted_payload)`: the seconds a row has left, 0 without TTL. -/
def remaining (c : Cell StoredMessage) : Int :=
  match c.expiresAt with
  | none => 0
  | some t => ((t - now) / second : Nat)

/-- A partition in clustering order, newest first. -/
def selectMessages (conversationID bucket : String) (limit : Int) (beforeID : Option UUID) :
    List StoredMessage :=
  let partition := (rows db.messages).filter fun c => c.row.conversationID = conversationID ∧
    c.row.bucket = bucket ∧ c.live now ∧
    (match beforeID with
      | none => true
      | some id => c.row.messageID.before id) = true
  let sorted := partition.insertionSort fun a b => ¬ a.row.messageID.before b.row.messageID
  (sorted.take limit.toNat).map fun c => { c.row with ephemeralTTLSec := remaining now c }

def selectEvents (conversationID messageID : String) : List MessageEvent :=
  db.eventRows.filter fun e => e.conversationID = conversationID ∧
    (messageID = "" ∨ e.messageID = messageID)

/-! ## Writes, all of them upserts -/

def insertRow (m : StoredMessage) : Store :=
  { db with messages := db.messages.insert m.key ⟨m, expiry now m.ephemeralTTLSec⟩ }

def insertAuthor (conversationID messageID senderID : String) : Store :=
  { db with authors := db.authors.insert (conversationID, messageID) ⟨senderID, now⟩ }

def insertDedup (conversationID clientMsgID : String) (messageID : UUID)
    (sequenceNum ttlSec : Int) : Store :=
  let cell := ⟨⟨messageID, sequenceNum, now⟩, dedupExpiry now ttlSec⟩
  { db with clientDedup := db.clientDedup.insert (conversationID, clientMsgID) cell }

def updateReceipt (conversationID userID : String) (change : Receipt → Receipt) : Store :=
  let old := (db.receipts.lookup (conversationID, userID)).getD ⟨none, none, now⟩
  { db with receipts := db.receipts.insert (conversationID, userID) (change old) }

def insertEvent (k : EventKey) (c : EventColumns) : Store :=
  { db with events := db.events.insert k c }

/-! ## What the tables hold -/

/-- The row is in the table, expired or not. -/
def Holds (m : StoredMessage) : Prop := ∃ c, db.messages.lookup m.key = some c ∧ c.row = m

/-- The row is in the table and has not expired. -/
def HoldsLive (m : StoredMessage) : Prop :=
  ∃ c, db.messages.lookup m.key = some c ∧ c.row = m ∧ c.live now

end Store
end GenChat.Ledger
