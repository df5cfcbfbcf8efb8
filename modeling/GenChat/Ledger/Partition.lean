import GenChat.Gateway.Runs
import Mathlib.Data.String.Basic

/-!
# Partitions of the message table

What `FetchMessages` reads: the rows of one conversation and one month, newest first, from a cursor
on. Where no two rows of a partition share an id, a page is strictly sorted, and a row behind the
cursor that is not on the page is older than everything on it.
-/
namespace GenChat.Ledger

namespace UUID

theorem before_iff {a b : UUID} :
    a.before b = true ↔ a.time < b.time ∨ a.time = b.time ∧ a.text < b.text := by
  simp [before]

theorem before_irrefl (a : UUID) : a.before a = false := by
  simp [before]

theorem before_trans {a b c : UUID} (hab : a.before b = true) (hbc : b.before c = true) :
    a.before c = true := by
  rw [before_iff] at hab hbc ⊢
  rcases hab with hab | ⟨time, text⟩
  · rcases hbc with hbc | ⟨time, -⟩
    · exact .inl (by omega)
    · exact .inl (by omega)
  · rcases hbc with hbc | ⟨time', text'⟩
    · exact .inl (by omega)
    · exact .inr ⟨time.trans time', lt_trans text text'⟩

theorem before_asymm {a b : UUID} (hab : a.before b = true) : b.before a = false := by
  by_contra hba
  have loop := before_trans hab (by simpa using hba)
  rw [before_irrefl] at loop
  cases loop

theorem before_total {a b : UUID} (distinct : a ≠ b) : a.before b = true ∨ b.before a = true := by
  rw [before_iff, before_iff]
  rcases lt_trichotomy a.time b.time with time | time | time
  · exact .inl (.inl time)
  · rcases lt_trichotomy a.text b.text with text | text | text
    · exact .inl (.inr ⟨time, text⟩)
    · cases a
      cases b
      exact absurd (by simp_all) distinct
    · exact .inr (.inr ⟨time.symm, text⟩)
  · exact .inr (.inl time)

end UUID

/-- The row is newer than the other one. -/
def Cell.Newer (a b : Cell StoredMessage) : Prop := b.row.messageID.before a.row.messageID = true

instance : Std.Irrefl Cell.Newer where
  irrefl a := by simp [Cell.Newer, UUID.before_irrefl]

instance : Std.Antisymm Cell.Newer where
  antisymm a b hab hba := by
    rw [Cell.Newer, UUID.before_asymm hab] at hba
    cases hba

instance : IsTrans (Cell StoredMessage) Cell.Newer where
  trans _ _ _ hab hbc := UUID.before_trans hbc hab

/-- The order of a partition: not older. -/
def Cell.notOlder (a b : Cell StoredMessage) : Prop := ¬ a.row.messageID.before b.row.messageID

instance : DecidableRel Cell.notOlder := fun a b =>
  inferInstanceAs (Decidable (¬ a.row.messageID.before b.row.messageID = true))

instance : Std.Total Cell.notOlder where
  total a b := by
    by_cases older : a.row.messageID.before b.row.messageID = true
    · exact .inr (by simp [Cell.notOlder, UUID.before_asymm older])
    · exact .inl older

instance : IsTrans (Cell StoredMessage) Cell.notOlder where
  trans a b c hab hbc := by
    intro hac
    by_cases same : b.row.messageID = c.row.messageID
    · exact hab (same ▸ hac)
    · rcases UUID.before_total same with older | newer
      · exact hbc older
      · exact hab (UUID.before_trans hac newer)

namespace Store
variable (db : Store) (now : Nat) (k bucket : String)

/-- An unexpired row of the conversation. -/
def Unexpired (c : Cell StoredMessage) : Prop :=
  c ∈ rows db.messages ∧ c.row.conversationID = k ∧ c.live now = true

/-- The row is behind the cursor. -/
def behind (beforeID : Option UUID) (c : Cell StoredMessage) : Prop :=
  ∀ id ∈ beforeID, c.row.messageID.before id = true

/-- The rows of a partition behind the cursor, newest first. -/
def newestFirst (beforeID : Option UUID) : List (Cell StoredMessage) :=
  ((rows db.messages).filter fun c => c.row.conversationID = k ∧
    c.row.bucket = bucket ∧ c.live now ∧
    (match beforeID with
      | none => true
      | some id => c.row.messageID.before id) = true).insertionSort Cell.notOlder

/-- The rows that `selectMessages` returns. -/
def page (limit : Int) (beforeID : Option UUID) : List (Cell StoredMessage) :=
  (db.newestFirst now k bucket beforeID).take limit.toNat

theorem selectMessages_eq (limit : Int) (beforeID : Option UUID) :
    db.selectMessages now k bucket limit beforeID =
      (db.page now k bucket limit beforeID).map fun c =>
        { c.row with ephemeralTTLSec := remaining now c } := rfl

/-- Rows with the same id are the same row, and stand in the table once. -/
structure Distinct : Prop where
  eq : ∀ c ∈ rows db.messages, ∀ c' ∈ rows db.messages, c.row.messageID = c'.row.messageID → c = c'
  nodup : (rows db.messages).Nodup

variable {db now k bucket} {limit : Int} {beforeID : Option UUID} {c : Cell StoredMessage}

theorem mem_rows {κ α : Type} [DecidableEq κ] {t : Table κ α} {a : α} :
    a ∈ rows t ↔ ∃ key, t.lookup key = some a := by
  constructor
  · intro mem
    obtain ⟨⟨key, a'⟩, entry, rfl⟩ := List.mem_map.mp mem
    exact ⟨key, AList.mem_lookup_iff.mpr entry⟩
  · rintro ⟨key, found⟩
    exact List.mem_map.mpr ⟨⟨key, a⟩, AList.mem_lookup_iff.mp found, rfl⟩

/-- Rows that stand under their keys and have ids of their own are distinct. -/
theorem Distinct.of_keys (keys : ∀ key cell, db.messages.lookup key = some cell →
      cell.row.key = key)
    (ids : ∀ c ∈ rows db.messages, ∀ c' ∈ rows db.messages,
      c.row.messageID = c'.row.messageID → c.row = c'.row) : db.Distinct where
  eq c mem c' mem' same := by
    obtain ⟨key, found⟩ := mem_rows.mp mem
    obtain ⟨key', found'⟩ := mem_rows.mp mem'
    have row := ids c mem c' mem' same
    have at_same : key = key' := by
      rw [← keys key c found, ← keys key' c' found', row]
    subst at_same
    rw [found] at found'
    exact Option.some.inj found'
  nodup := by
    have nodupKeys := db.messages.nodupKeys
    refine List.Nodup.map_on ?_ (List.NodupKeys.nodup nodupKeys)
    intro e mem e' mem' same
    have key := keys e.1 e.2 (AList.mem_lookup_iff.mpr mem)
    have key' := keys e'.1 e'.2 (AList.mem_lookup_iff.mpr mem')
    have first : e.1 = e'.1 := by rw [← key, ← key', same]
    exact Sigma.ext first (heq_of_eq same)

theorem mem_newestFirst : c ∈ db.newestFirst now k bucket beforeID ↔
    db.Unexpired now k c ∧ c.row.bucket = bucket ∧ behind beforeID c := by
  rw [newestFirst, List.mem_insertionSort, List.mem_filter, decide_eq_true_eq]
  cases beforeID <;> simp [behind, Unexpired] <;> tauto

theorem newestFirst_sorted (distinct : db.Distinct) :
    (db.newestFirst now k bucket beforeID).Pairwise Cell.Newer := by
  have mem (c : Cell StoredMessage) (hc : c ∈ db.newestFirst now k bucket beforeID) :
      c ∈ rows db.messages := (mem_newestFirst.mp hc).1.1
  have nodup : (db.newestFirst now k bucket beforeID).Nodup :=
    (List.perm_insertionSort _ _).nodup_iff.mpr (distinct.nodup.filter _)
  refine ((List.pairwise_insertionSort Cell.notOlder _).and nodup).imp_of_mem ?_
  rintro a b ha hb ⟨notOlder, ne⟩
  have ids : a.row.messageID ≠ b.row.messageID := fun same =>
    ne (distinct.eq a (mem a ha) b (mem b hb) same)
  exact (UUID.before_total ids).resolve_left notOlder

theorem page_sorted (distinct : db.Distinct) :
    (db.page now k bucket limit beforeID).Pairwise Cell.Newer :=
  (newestFirst_sorted distinct).take

theorem mem_page (h : c ∈ db.page now k bucket limit beforeID) :
    db.Unexpired now k c ∧ c.row.bucket = bucket ∧ behind beforeID c :=
  mem_newestFirst.mp (List.mem_of_mem_take h)

/-- A row of the partition behind the cursor that is not on the page is older than its last row. -/
theorem older_of_not_mem_page (distinct : db.Distinct) (positive : 1 ≤ limit)
    (row : db.Unexpired now k c) (month : c.row.bucket = bucket) (cursor : behind beforeID c)
    (absent : c ∉ db.page now k bucket limit beforeID) :
    ∃ last, (db.page now k bucket limit beforeID).getLast? = some last ∧ Cell.Newer last c := by
  have here := mem_newestFirst.mpr ⟨row, month, cursor⟩
  have sorted : (db.newestFirst now k bucket beforeID).Pairwise Cell.Newer :=
    newestFirst_sorted distinct
  rw [← List.take_append_drop limit.toNat (db.newestFirst now k bucket beforeID)] at here sorted
  have later := (List.mem_append.mp here).resolve_left absent
  have full : db.page now k bucket limit beforeID ≠ [] := by
    intro empty
    have none := List.take_eq_nil_iff.mp empty
    rcases none with zero | none
    · omega
    · rw [none] at later
      simp at later
  refine ⟨_, List.getLast?_eq_some_getLast full, ?_⟩
  exact (List.pairwise_append.mp sorted).2.2 _ (List.getLast_mem full) _ later

/-- Rows with ids that were handed out for them are distinct. -/
theorem Distinct.of_recorded {s : Gateway.Server} (recorded : s.Recorded) : s.db.Distinct := by
  refine .of_keys (fun key cell found => (recorded key cell found).1) ?_
  intro c mem c' mem' same
  obtain ⟨key, found⟩ := mem_rows.mp mem
  obtain ⟨key', found'⟩ := mem_rows.mp mem'
  have issued := (recorded key c found).2
  rw [same, (recorded key' c' found').2] at issued
  exact (Option.some.inj issued).symm

end Store
end GenChat.Ledger
