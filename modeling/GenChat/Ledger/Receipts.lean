import GenChat.Gateway.Runs
import GenChat.Library.Emits

/-!
# Receipts

`UpsertReceipt` writes the id and the sequence number it is given over those it finds: a row of
`message_receipts` holds the receipt of each kind that was accepted last, whichever is the highest.
-/
namespace GenChat.Ledger
open Library Gateway

inductive ReceiptKind where
  | delivered
  | read
  deriving DecidableEq

/-- The columns of a kind: message id and sequence number. -/
def ReceiptKind.columns (kind : ReceiptKind) (r : Receipt) : Option (UUID × Int) :=
  match kind with
  | .delivered => r.lastDelivered
  | .read => r.lastRead

/-! ## The highest of several values -/

section Highest
variable {xs ys : List (UUID × Int)} {a b : Option (UUID × Int)}

/-- The value with the highest sequence number, or nothing where there is no value. -/
def IsHighest (xs : List (UUID × Int)) (a : Option (UUID × Int)) : Prop :=
  (∀ x ∈ xs, ∃ y, a = some y ∧ x.2 ≤ y.2) ∧ ∀ y, a = some y → y ∈ xs

/-- No value has a higher sequence number than the last one. -/
def HighestLast (xs : List (UUID × Int)) : Prop :=
  ∀ y, xs.getLast? = some y → ∀ x ∈ xs, x.2 ≤ y.2

theorem isHighest_getLast? : IsHighest xs xs.getLast? ↔ HighestLast xs := by
  constructor
  · intro ⟨highest, _⟩ y last x hx
    obtain ⟨z, same, le⟩ := highest x hx
    cases last.symm.trans same
    exact le
  · intro h
    refine ⟨fun x hx => ?_, fun y last => List.mem_of_getLast? last⟩
    have last := List.getLast?_eq_some_getLast (List.ne_nil_of_mem hx)
    exact ⟨_, last, h _ last x hx⟩

/-- The highest sequence number depends on the values alone. -/
theorem IsHighest.seq_eq (ha : IsHighest xs a) (hb : IsHighest ys b) (same : xs.Perm ys) :
    a.map Prod.snd = b.map Prod.snd := by
  cases a with
  | none =>
    cases b with
    | none => rfl
    | some y =>
      obtain ⟨_, found, -⟩ := ha.1 y (same.mem_iff.mpr (hb.2 y rfl))
      cases found
  | some x =>
    obtain ⟨y, rfl, le⟩ := hb.1 x (same.mem_iff.mp (ha.2 x rfl))
    obtain ⟨_, found, ge⟩ := ha.1 y (same.mem_iff.mpr (hb.2 y rfl))
    cases found
    have seqs : x.2 = y.2 := by omega
    simp [seqs]

/-- So does its id, where every sequence number belongs to one id. -/
theorem IsHighest.eq (ha : IsHighest xs a) (hb : IsHighest ys b) (same : xs.Perm ys)
    (one : ∀ x ∈ xs, ∀ y ∈ xs, x.2 = y.2 → x = y) : a = b := by
  have seqs := ha.seq_eq hb same
  cases a with
  | none => simpa [eq_comm] using seqs
  | some x =>
    cases b with
    | none => cases seqs
    | some y =>
      have eq : x.2 = y.2 := by simpa using seqs
      rw [one x (ha.2 x rfl) y (same.mem_iff.mpr (hb.2 y rfl)) eq]

end Highest

/-! ## Calls -/

structure UpdateReceiptRequest where
  conversationId : String
  userId : String
  receiptType : String
  messageId : String
  sequenceNum : Int
  deriving DecidableEq

/-- Any number of calls of `UpdateReceipt` at a time, from a ledger without receipts. -/
abbrev receiving (S : Platform) :
    Service Op Ret (Except Status Unit) UpdateReceiptRequest Change where
  system := system S
  init s := s.db.receipts = ∅
  env := Server.change
  body req := LedgerHandler.updateReceipt S req.conversationId req.userId req.receiptType
    req.messageId req.sequenceNum

section Calls
variable {S : Platform} (k u : String)

/-- The receipt that an operation writes for the user in the conversation. -/
def receiptOf : Op → Option (ReceiptKind × UUID × Int)
  | .updateDelivered k' u' id n => if k' = k ∧ u' = u then some (.delivered, id, n) else none
  | .updateRead k' u' id n => if k' = k ∧ u' = u then some (.read, id, n) else none
  | _ => none

/-- The receipt that a step accepts: its write takes effect. -/
def accepted (p : Pool (receiving S)) : PoolLabel (receiving S) → List (ReceiptKind × UUID × Int)
  | .run i c => if c = .fail then [] else ((p.next i).bind fun x => receiptOf k u x.2).toList
  | _ => []

/-- What the table has for the user. -/
def stored (s : Server) (kind : ReceiptKind) : Option (UUID × Int) :=
  (s.db.receipts.lookup (k, u)).bind kind.columns

def valuesOf (kind : ReceiptKind) (receipts : List (ReceiptKind × UUID × Int)) :
    List (UUID × Int) :=
  (receipts.filter fun x => x.1 = kind).map Prod.snd

variable {k u} {s t : Server} {kind : ReceiptKind}

theorem valuesOf_append (xs ys : List (ReceiptKind × UUID × Int)) :
    valuesOf kind (xs ++ ys) = valuesOf kind xs ++ valuesOf kind ys := by
  simp [valuesOf]

theorem valuesOf_option {receipt : Option (ReceiptKind × UUID × Int)} {a : Option (UUID × Int)} :
    (valuesOf kind receipt.toList).getLast?.or a = match receipt with
      | some (kind', x) => if kind' = kind then some x else a
      | none => a := by
  cases receipt with
  | none => rfl
  | some receipt =>
    obtain ⟨kind', x⟩ := receipt
    by_cases same : kind' = kind <;> simp [valuesOf, same]

/-- A write for one kind puts its receipt in the columns of that kind. -/
theorem stored_updateReceipt {k' u' : String} {now : Nat} {kind' : ReceiptKind} {x : UUID × Int}
    {change : Receipt → Receipt} (written : ∀ r, kind'.columns (change r) = some x)
    (others : ∀ r kind, kind ≠ kind' → kind.columns (change r) = kind.columns r) :
    stored k u { s with db := s.db.updateReceipt now k' u' change } kind =
      if (k' = k ∧ u' = u) ∧ kind' = kind then some x else stored k u s kind := by
  rw [stored, Store.updateReceipt]
  by_cases same : (k, u) = (k', u')
  · cases same
    rw [AList.lookup_insert, Option.bind_some]
    by_cases here : kind' = kind
    · subst here
      simp [written]
    · rw [others _ _ fun eq => here eq.symm, stored]
      cases s.db.receipts.lookup (k, u) with
      | none => cases kind <;> simp [here] <;> rfl
      | some row => simp [here]
  · have other : ¬ (k' = k ∧ u' = u) := by
      rintro ⟨rfl, rfl⟩
      exact same rfl
    simp [AList.lookup_insert_ne same, other, stored]

theorem stored_write {c : Choice} {answer : Except StoreError Unit} {k' u' : String} {now : Nat}
    {kind' : ReceiptKind} {x : UUID × Int} {change : Receipt → Receipt}
    (h : s.write (s.db.updateReceipt now k' u' change) c = some (answer, t))
    (written : ∀ r, kind'.columns (change r) = some x)
    (others : ∀ r kind, kind ≠ kind' → kind.columns (change r) = kind.columns r) :
    stored k u t kind = (valuesOf kind (if c = .fail then [] else
      (if k' = k ∧ u' = u then some (kind', x) else none).toList)).getLast?.or
        (stored k u s kind) := by
  rcases Server.write_eq_some.mp h with ⟨rfl, -, rfl⟩ | ⟨rfl, -, rfl⟩ | ⟨rfl, -, rfl⟩
  · rw [if_neg nofun, valuesOf_option, stored_updateReceipt written others]
    split_ifs <;> simp_all
  · rfl
  · rw [if_neg nofun, valuesOf_option, stored_updateReceipt written others]
    split_ifs <;> simp_all

/-- An operation that takes effect puts its receipt in the place of the one of its kind. -/
theorem stored_exec {op : Op} {c : Choice} {r : Ret op} (h : s.exec S op c = some (r, t)) :
    stored k u t kind =
      (valuesOf kind (if c = .fail then [] else (receiptOf k u op).toList)).getLast?.or
        (stored k u s kind) := by
  cases op with
  | updateDelivered k' u' id n =>
    exact stored_write h (fun _ => rfl) fun _ kind other => by
      cases kind
      · exact absurd rfl other
      · rfl
  | updateRead k' u' id n =>
    exact stored_write h (fun _ => rfl) fun _ kind other => by
      cases kind
      · rfl
      · exact absurd rfl other
  | _ =>
    have same : t.db.receipts = s.db.receipts := by
      rcases Server.exec_db h with same | applied
      · rw [same]
      · rw [applied]
        rfl
    simp [receiptOf, valuesOf, stored, same]

/-- The receipt of each kind that was accepted last stands in the table. -/
theorem stored_eq_last {p : Pool (receiving S)} {receipts : List (ReceiptKind × UUID × Int)}
    (run : (Pool.machine (receiving S)).Emits (accepted k u) p receipts) :
    stored k u p.shared kind = (valuesOf kind receipts).getLast? := by
  refine run.invariant
    (I := fun p receipts => stored k u p.shared kind = (valuesOf kind receipts).getLast?) ?_ ?_
  · rintro _ ⟨s, hs, rfl⟩
    have empty : s.db.receipts = ∅ := hs
    simp [Pool.start, stored, empty, valuesOf]
  · intro p l q receipts ih step
    cases l with
    | spawn req =>
      cases step
      simpa [accepted] using ih
    | env e =>
      obtain ⟨s, hs, rfl⟩ := Pool.env_cases step
      simpa [accepted, stored, Server.change_db hs] using ih
    | run i c =>
      obtain ⟨req, op, rest, x, s, thread, hr, rfl⟩ := Pool.run_cases step
      rw [stored_exec hr, ih, valuesOf_append, List.getLast?_append, accepted,
        Pool.next_call thread, Option.bind_some]

/-- The table holds the highest receipt of each kind exactly if it was the last of its kind. Then
another order of the same receipts for which that is so ends with the same. -/
theorem receipts_highest {p : Pool (receiving S)} {receipts : List (ReceiptKind × UUID × Int)}
    (run : (Pool.machine (receiving S)).Emits (accepted k u) p receipts) :
    ((∀ kind, IsHighest (valuesOf kind receipts) (stored k u p.shared kind)) ↔
      ∀ kind, HighestLast (valuesOf kind receipts)) ∧
    ∀ q reordered, (Pool.machine (receiving S)).Emits (accepted k u) q reordered →
      receipts.Perm reordered → (∀ kind, HighestLast (valuesOf kind receipts)) →
      (∀ kind, HighestLast (valuesOf kind reordered)) → ∀ kind,
        (stored k u p.shared kind).map Prod.snd = (stored k u q.shared kind).map Prod.snd ∧
        ((∀ x ∈ valuesOf kind receipts, ∀ y ∈ valuesOf kind receipts, x.2 = y.2 → x = y) →
          stored k u p.shared kind = stored k u q.shared kind) := by
  constructor
  · refine forall_congr' fun kind => ?_
    rw [stored_eq_last run]
    exact isHighest_getLast?
  · intro q reordered run' same last last' kind
    have highest : IsHighest (valuesOf kind receipts) (stored k u p.shared kind) := by
      rw [stored_eq_last run]
      exact isHighest_getLast?.mpr (last kind)
    have highest' : IsHighest (valuesOf kind reordered) (stored k u q.shared kind) := by
      rw [stored_eq_last run']
      exact isHighest_getLast?.mpr (last' kind)
    have values : (valuesOf kind receipts).Perm (valuesOf kind reordered) :=
      (same.filter _).map _
    exact ⟨highest.seq_eq highest' values, highest.eq highest' values⟩

end Calls

/-! ## Samples -/

def sampleReceipt (index : Nat) (n : Int) : UpdateReceiptRequest :=
  ⟨"dm:alice:bob", "bob", "read", (sampleUUIDs.getD index .zero).text, n⟩

/-- Bob's receipts for two messages, in the order in which they arrive. -/
def receiptLabels (first second : UpdateReceiptRequest) :
    List (PoolLabel (receiving samplePlatform)) :=
  [.spawn first, .run 0 .ok, .spawn second, .run 1 .ok]

abbrev receipts : Machine (Pool (receiving samplePlatform)) (PoolLabel (receiving samplePlatform)) :=
  Pool.machine (receiving samplePlatform)

def received (first second : UpdateReceiptRequest) :
    Option (Pool (receiving samplePlatform) × List (ReceiptKind × UUID × Int)) :=
  receipts.collect (accepted "dm:alice:bob" "bob") (Pool.start _ (Server.empty sampleClock))
    (receiptLabels first second)

theorem received_emits {first second : UpdateReceiptRequest}
    {run : Pool (receiving samplePlatform) × List (ReceiptKind × UUID × Int)}
    (h : received first second = some run) :
    receipts.Emits (accepted "dm:alice:bob" "bob") run.1 run.2 := by
  have start : receipts.Emits (accepted "dm:alice:bob" "bob")
      (Pool.start _ (Server.empty sampleClock)) [] := .start ⟨_, rfl, rfl⟩
  exact start.collect h

theorem inOrder_isSome : (received (sampleReceipt 0 1) (sampleReceipt 1 2)).isSome := by
  rfl

theorem late_isSome : (received (sampleReceipt 1 2) (sampleReceipt 0 1)).isSome := by
  rfl

/-- The receipts for the first and for the second message. -/
def inOrder : Pool (receiving samplePlatform) × List (ReceiptKind × UUID × Int) :=
  (received (sampleReceipt 0 1) (sampleReceipt 1 2)).get inOrder_isSome

/-- The same the other way round. -/
def late : Pool (receiving samplePlatform) × List (ReceiptKind × UUID × Int) :=
  (received (sampleReceipt 1 2) (sampleReceipt 0 1)).get late_isSome

theorem inOrder_emits : receipts.Emits (accepted "dm:alice:bob" "bob") inOrder.1 inOrder.2 :=
  received_emits (Option.some_get _).symm

theorem late_emits : receipts.Emits (accepted "dm:alice:bob" "bob") late.1 late.2 :=
  received_emits (Option.some_get _).symm

theorem inOrder_read : valuesOf .read inOrder.2 =
    [(sampleUUIDs.getD 0 .zero, 1), (sampleUUIDs.getD 1 .zero, 2)] := by rfl

theorem late_read : valuesOf .read late.2 =
    [(sampleUUIDs.getD 1 .zero, 2), (sampleUUIDs.getD 0 .zero, 1)] := by rfl

theorem receipts_highest_sample :
    ∃ y, stored "dm:alice:bob" "bob" inOrder.1.shared .read = some y ∧ y.2 = 2 ∧
      ∀ kind, IsHighest (valuesOf kind inOrder.2)
        (stored "dm:alice:bob" "bob" inOrder.1.shared kind) := by
  refine ⟨(sampleUUIDs.getD 1 .zero, 2), by rfl, rfl, ?_⟩
  refine (receipts_highest inOrder_emits).1.mpr fun kind y last x hx => ?_
  cases kind with
  | delivered =>
    have none : valuesOf .delivered inOrder.2 = [] := by rfl
    simp [none] at hx
  | read =>
    rw [inOrder_read] at last hx
    cases last
    fin_cases hx <;> decide

/-- The receipt for the first message, when it comes late, takes back that of the second, and the
two orders end apart. -/
theorem receipt_taken_back :
    receipts.Emits (accepted "dm:alice:bob" "bob") inOrder.1 inOrder.2 ∧
    receipts.Emits (accepted "dm:alice:bob" "bob") late.1 late.2 ∧ inOrder.2.Perm late.2 ∧
    stored "dm:alice:bob" "bob" inOrder.1.shared .read = some (sampleUUIDs.getD 1 .zero, 2) ∧
    stored "dm:alice:bob" "bob" late.1.shared .read = some (sampleUUIDs.getD 0 .zero, 1) ∧
    ¬ IsHighest (valuesOf .read late.2) (stored "dm:alice:bob" "bob" late.1.shared .read) := by
  have last : stored "dm:alice:bob" "bob" late.1.shared .read =
      some (sampleUUIDs.getD 0 .zero, 1) := by rfl
  refine ⟨inOrder_emits, late_emits, by decide, by decide, last, ?_⟩
  rintro ⟨highest, -⟩
  rw [late_read, last] at highest
  obtain ⟨y, same, le⟩ := highest _ List.mem_cons_self
  cases same
  exact absurd le (by decide)

end GenChat.Ledger
