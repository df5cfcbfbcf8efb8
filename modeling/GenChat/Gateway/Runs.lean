import GenChat.Gateway.Footprint
import GenChat.Library.Concurrent

/-!
# Runs of the gateway

The gateway and the ledger as a service: any user sends any bytes at any time, every frame is
handled by a thread of its own, and the threads interleave operation by operation.
-/
namespace GenChat.Gateway
open Library Ledger

/-! ## What one operation changes -/

/-- The store after the operation took effect. -/
def Op.effect (now : Nat) (db : Store) : Op → Store
  | .recordAuthor k mid u => db.insertAuthor now k mid u
  | .insertRow row => db.insertRow now row
  | .insertDedup k clientMsgID mid n ttlSec => db.insertDedup now k clientMsgID mid n ttlSec
  | .updateDelivered k u mid n => db.updateReceipt now k u fun r =>
    { r with lastDelivered := some (mid, n), updatedAt := now }
  | .updateRead k u mid n => db.updateReceipt now k u fun r =>
    { r with lastRead := some (mid, n), updatedAt := now }
  | .insertEvent k mid type actor ct => db.insertEvent ⟨k, mid, type⟩ ⟨actor, ct, now⟩
  | _ => db

namespace Server
variable {S : Platform} {s s' : Server} {op : Op} {c : Choice} {r : Ret op}

theorem newUUID_cases {draft : StoredMessage} {id : UUID}
    (h : s.exec S (.newUUID draft) c = some (id, s')) : s.issued.lookup id.text = none ∧
      s' = { s with issued := s.issued.insert id.text { draft with messageID := id } } := by
  cases c with
  | uuid id =>
    simp only [exec] at h
    split at h <;> cases h
    exact ⟨‹_›, rfl⟩
  | _ => cases h

/-- An operation changes nothing, or applies its effect to the store, or counts up a sequence,
or hands out a UUID that was not handed out before. -/
theorem exec_cases (h : s.exec S op c = some (r, s')) :
    s' = s ∨ s' = { s with db := op.effect s.clock s.db } ∨
    (∃ k, op = .incrSeq k ∧
      s' = { s with seqs := s.seqs.insert k ((s.seqs.lookup k).getD 0 + 1) }) ∨
    ∃ draft id, op = .newUUID draft ∧ s.issued.lookup id.text = none ∧
      s' = { s with issued := s.issued.insert id.text { draft with messageID := id } } := by
  by_cases silent : op.silent
  · exact .inl (exec_silent silent h)
  · cases op with
    | recordAuthor | updateDelivered | updateRead | insertEvent =>
      rcases write_eq_some.mp h with ⟨-, -, rfl⟩ | ⟨-, -, rfl⟩ | ⟨-, -, rfl⟩
      · exact .inr (.inl rfl)
      · exact .inl rfl
      · exact .inr (.inl rfl)
    | insertRow | insertDedup =>
      simp only [exec] at h
      split at h
      · rcases write_eq_some.mp h with ⟨-, -, rfl⟩ | ⟨-, -, rfl⟩ | ⟨-, -, rfl⟩
        · exact .inr (.inl rfl)
        · exact .inl rfl
        · exact .inr (.inl rfl)
      · cases h
        exact .inl rfl
    | incrSeq k =>
      cases c <;> cases h
      · exact .inr (.inr (.inl ⟨k, rfl, rfl⟩))
      · exact .inl rfl
      · exact .inr (.inr (.inl ⟨k, rfl, rfl⟩))
    | newUUID draft =>
      obtain ⟨fresh, rfl⟩ := newUUID_cases h
      exact .inr (.inr (.inr ⟨draft, r, rfl, fresh, rfl⟩))
    | _ => exact absurd trivial silent

theorem exec_db (h : s.exec S op c = some (r, s')) :
    s'.db = s.db ∨ s'.db = op.effect s.clock s.db := by
  rcases exec_cases h with rfl | rfl | ⟨k, -, rfl⟩ | ⟨draft, id, -, -, rfl⟩
  · exact .inl rfl
  · exact .inr rfl
  · exact .inl rfl
  · exact .inl rfl

theorem exec_clock (h : s.exec S op c = some (r, s')) : s'.clock = s.clock := by
  rcases exec_cases h with rfl | rfl | ⟨k, -, rfl⟩ | ⟨draft, id, -, -, rfl⟩ <;> rfl

/-- An id that was handed out stays with its message. -/
theorem exec_issued (h : s.exec S op c = some (r, s')) {id : String} {m : StoredMessage}
    (issued : s.issued.lookup id = some m) : s'.issued.lookup id = some m := by
  rcases exec_cases h with rfl | rfl | ⟨k, -, rfl⟩ | ⟨draft, new, -, fresh, rfl⟩
  · exact issued
  · exact issued
  · exact issued
  · have distinct : id ≠ new.text := by
      rintro rfl
      rw [fresh] at issued
      cases issued
    simpa [AList.lookup_insert_ne distinct] using issued

theorem change_db {e : Change} (h : s.change e = some s') : s'.db = s.db := by
  cases e <;> cases h <;> rfl

theorem change_issued {e : Change} (h : s.change e = some s') : s'.issued = s.issued := by
  cases e <;> cases h <;> rfl

/-- Rows come from row inserts. -/
theorem exec_holds (h : s.exec S op c = some (r, s')) {m : StoredMessage} (hm : s'.db.Holds m) :
    s.db.Holds m ∨ op = .insertRow m := by
  rcases exec_db h with same | applied
  · rw [same] at hm
    exact .inl hm
  · rw [applied] at hm
    cases op with
    | insertRow row =>
      obtain ⟨cell, found, rfl⟩ := hm
      rcases lookup_insert_cases found with old | ⟨-, rfl⟩
      · exact .inl ⟨cell, old, rfl⟩
      · exact .inr rfl
    | _ => exact .inl hm

/-- Every row stands under its key, and its id was handed out for it. -/
def Recorded (s : Server) : Prop := ∀ key cell, s.db.messages.lookup key = some cell →
  cell.row.key = key ∧ s.issued.lookup cell.row.messageID.text = some cell.row

theorem Recorded.holds (h : s.Recorded) {m : StoredMessage} (hm : s.db.Holds m) :
    s.issued.lookup m.messageID.text = some m := by
  obtain ⟨cell, found, rfl⟩ := hm
  exact (h _ cell found).2

theorem Recorded.exec (h : s.Recorded) (hr : s.exec S op c = some (r, s'))
    (row : ∀ m, op = .insertRow m → s.issued.lookup m.messageID.text = some m) :
    s'.Recorded := by
  intro key cell found
  have known : cell.row.key = key ∧ s.issued.lookup cell.row.messageID.text = some cell.row := by
    rcases exec_db hr with same | applied
    · exact h key cell (by rwa [same] at found)
    · rw [applied] at found
      cases op with
      | insertRow m =>
        rcases lookup_insert_cases found with old | ⟨rfl, rfl⟩
        · exact h key cell old
        · exact ⟨rfl, row m rfl⟩
      | _ => exact h key cell found
  exact ⟨known.1, exec_issued hr known.2⟩

/-- Rows stay. -/
theorem Recorded.keeps (h : s.Recorded) (hr : s.exec S op c = some (r, s'))
    (row : ∀ m, op = .insertRow m → s.issued.lookup m.messageID.text = some m) {m : StoredMessage}
    (hm : s.db.Holds m) : s'.db.Holds m := by
  rcases exec_db hr with same | applied
  · rwa [same]
  · rw [applied]
    cases op with
    | insertRow new =>
      by_cases key : m.key = new.key
      · have issued := row new rfl
        rw [← show m.messageID = new.messageID from congrArg MessageKey.messageID key,
          h.holds hm] at issued
        cases issued
        exact ⟨_, AList.lookup_insert _, rfl⟩
      · obtain ⟨cell, found, rfl⟩ := hm
        exact ⟨cell, (AList.lookup_insert_ne key).trans found, rfl⟩
    | _ => exact hm

theorem Recorded.change (h : s.Recorded) {e : Change} (hc : s.change e = some s') :
    s'.Recorded := by
  rw [Recorded, change_db hc, change_issued hc]
  exact h

theorem recorded_empty (clock : Nat) : (Server.empty clock).Recorded := nofun

end Server

/-! ## The service -/

/-- A frame of a user. -/
structure Inbound where
  conn : Conn
  data : Bytes

abbrev gateway (S : Platform) (r : Router) :
    Service Op Ret (Except RelayError Unit) Inbound Change where
  system := system S
  init s := ∃ clock, s = Server.empty clock
  env := Server.change
  body t := r.Handle S t.conn t.data

section Runs
variable (S : Platform) (r : Router) (ok : Pool (gateway S r) → PoolLabel (gateway S r) → Prop)
  [∀ p l, Decidable (ok p l)]

/-- The run of the given labels from an empty ledger. -/
def runFrom (clock : Nat) (labels : List (PoolLabel (gateway S r))) : Option (Pool (gateway S r)) :=
  (Pool.machine (gateway S r)).follow ok (Pool.start _ (Server.empty clock)) labels

variable {S r ok}

theorem runFrom_reach {clock : Nat} {labels : List (PoolLabel (gateway S r))}
    {p : Pool (gateway S r)} (h : runFrom S r ok clock labels = some p) :
    (Pool.machine (gateway S r)).Reach ok p := by
  have start : (Pool.machine (gateway S r)).Reach ok (Pool.start _ (Server.empty clock)) :=
    .start ⟨_, ⟨clock, rfl⟩, rfl⟩
  exact start.follow h

end Runs

/-- `send_message` to Bob. -/
def helloFrame : Bytes :=
  ("\x7b\"action\":\"send_message\",\"channel_id\":\"bob\",\"client_msg_id\":\"c1\"," ++
    "\"ciphertext_base64\":\"AQID\"\x7d").toUTF8.data.toList

/-- Alice sends it, and the row is stored. -/
def helloLabels : List (PoolLabel (gateway samplePlatform sampleRouter)) := [
  .spawn ⟨⟨"alice", .json⟩, helloFrame⟩, .run 0 (.answer true), .run 0 .ok, .run 0 .ok,
  .run 0 .ok, .run 0 (.uuid sampleRow.messageID), .run 0 .ok, .run 0 .ok, .run 0 .ok]

end GenChat.Gateway
