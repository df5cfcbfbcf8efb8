import Mathlib.Data.List.Sort
import Mathlib.Tactic

/-!
# Stable sorting with ties

A stable sort by `r` of a list whose ties stand in the order `s` is sorted by `r` and then by `s`.
So two arrangements of the same elements are sorted alike if both arrange their ties alike.
-/
namespace GenChat.Library
variable {α : Type} {r s : α → α → Prop} [DecidableRel r] [Std.Total r] [IsTrans α r]

/-- By `r`, and among equals by `s`. -/
def Then (r s : α → α → Prop) (a b : α) : Prop := r a b ∧ (r b a → s a b)

theorem pairwise_orderedInsert_then {a : α} {l : List α} (sorted : l.Pairwise (Then r s))
    (ties : ∀ b ∈ l, r a b → r b a → s a b) : (l.orderedInsert r a).Pairwise (Then r s) := by
  induction l with
  | nil => exact List.pairwise_singleton _ _
  | cons b l ih =>
    obtain ⟨first, rest⟩ := List.pairwise_cons.mp sorted
    rw [List.orderedInsert_cons]
    split
    case isTrue below =>
      refine List.pairwise_cons.mpr ⟨fun c hc => ?_, sorted⟩
      have le : r a c := by
        obtain rfl | hc := List.mem_cons.mp hc
        · exact below
        · exact Trans.trans below (first c hc).1
      exact ⟨le, ties c hc le⟩
    case isFalse above =>
      refine List.pairwise_cons.mpr ⟨fun c hc => ?_,
        ih rest fun c hc => ties c (List.mem_cons_of_mem _ hc)⟩
      obtain rfl | hc := (List.mem_orderedInsert r).mp hc
      · exact ⟨(total_of r _ _).resolve_left above, fun below => absurd below above⟩
      · exact first c hc

theorem pairwise_insertionSort_then {l : List α}
    (ties : l.Pairwise fun a b => r a b → r b a → s a b) :
    (l.insertionSort r).Pairwise (Then r s) := by
  induction l with
  | nil => exact List.Pairwise.nil
  | cons a l ih =>
    obtain ⟨first, rest⟩ := List.pairwise_cons.mp ties
    exact pairwise_orderedInsert_then (ih rest)
      fun b hb => first b ((List.mem_insertionSort r).mp hb)

theorem insertionSort_eq_of_perm {l l' : List α} (perm : l.Perm l')
    (ties : l.Pairwise fun a b => r a b → r b a → s a b)
    (ties' : l'.Pairwise fun a b => r a b → r b a → s a b)
    (anti : ∀ a ∈ l, ∀ b ∈ l, s a b → s b a → a = b) : l.insertionSort r = l'.insertionSort r := by
  refine List.Perm.eq_of_pairwise (fun a b ha hb hab hba => ?_) (pairwise_insertionSort_then ties)
    (pairwise_insertionSort_then ties') ?_
  · have ha := (List.mem_insertionSort r).mp ha
    have hb := perm.mem_iff.mpr ((List.mem_insertionSort r).mp hb)
    exact anti a ha b hb (hab.2 hba.1) (hba.2 hab.1)
  · exact ((List.perm_insertionSort r l).trans perm).trans (List.perm_insertionSort r l').symm

end GenChat.Library
