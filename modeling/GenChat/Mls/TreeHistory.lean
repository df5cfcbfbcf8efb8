import GenChat.Mls.Tree

/-!
# Histories of the ratchet tree

An index stays with its member through every sequence of additions and removals: `addLeaf` takes
the first blank or the end, `blankLeaf` changes one slot, and `activeMembers` lists the other
slots by their indices.
-/
namespace GenChat.Mls
variable {Block : Type}

/-- A call of `add_leaf` or of `blank_leaf`. -/
inductive TreeChange (Block : Type) where
  | addLeaf (leaf : MlsLeafNode Block)
  | blankLeaf (leafIdx : Nat)

namespace TreeKemTree

def change (t : TreeKemTree Block) : TreeChange Block → TreeKemTree Block
  | .addLeaf leaf => (t.addLeaf leaf).1
  | .blankLeaf leafIdx => t.blankLeaf leafIdx

def changeAll (t : TreeKemTree Block) (changes : List (TreeChange Block)) : TreeKemTree Block :=
  changes.foldl change t

/-- `t'` is `t` with `leaf` at `idx`, which is the first blank slot or else the end. -/
structure Places (t : TreeKemTree Block) (leaf : MlsLeafNode Block) (t' : TreeKemTree Block)
    (idx : Nat) : Prop where
  slot : (∃ old, t.leaves[idx]? = some old ∧ old.isBlank = true) ∨ idx = t.leaves.length
  first : ∀ (j : Nat) old, j < idx → t.leaves[j]? = some old → old.isBlank = false
  placed : t'.leaves[idx]? = some leaf
  others : ∀ j : Nat, j ≠ idx → t'.leaves[j]? = t.leaves[j]?

/-- `t'` is `t` with the leaf at `idx` inactive. -/
structure Blanks (t : TreeKemTree Block) (idx : Nat) (t' : TreeKemTree Block) : Prop where
  blanked : t'.leaves[idx]? = t.leaves[idx]?.map fun l => { l with isBlank := true }
  others : ∀ j : Nat, j ≠ idx → t'.leaves[j]? = t.leaves[j]?

/-! ## Single operations -/

theorem isBlank_of_lt_nextIndex {t : TreeKemTree Block} {j : Nat} {old : MlsLeafNode Block}
    (lt : j < t.nextIndex) (here : t.leaves[j]? = some old) : old.isBlank = false := by
  obtain ⟨bound, rfl⟩ := List.getElem?_eq_some_iff.mp here
  simpa using List.not_of_lt_findIdx lt

theorem nextIndex_le (t : TreeKemTree Block) : t.nextIndex ≤ t.leaves.length :=
  List.findIdx_le_length

theorem addLeaf_places (t : TreeKemTree Block) (leaf : MlsLeafNode Block) :
    t.Places leaf (t.addLeaf leaf).1 (t.addLeaf leaf).2 := by
  rw [addLeaf_snd]
  refine ⟨?_, fun j old => isBlank_of_lt_nextIndex, ?_, fun j other => ?_⟩
  · rcases Nat.lt_or_eq_of_le t.nextIndex_le with lt | last
    · have here := List.getElem?_eq_getElem lt
      exact .inl ⟨_, here, isBlank_of_nextIndex t here⟩
    · exact .inr last
  · rw [getElem?_addLeaf, if_pos rfl]
  · rw [getElem?_addLeaf, if_neg other]

theorem blankLeaf_blanks (t : TreeKemTree Block) (idx : Nat) : t.Blanks idx (t.blankLeaf idx) where
  blanked := by rw [getElem?_blankLeaf, if_pos rfl]
  others j other := by rw [getElem?_blankLeaf, if_neg other]

theorem mem_activeMembers {t : TreeKemTree Block} {i : Nat} {leaf : MlsLeafNode Block} :
    (i, leaf) ∈ t.activeMembers ↔ t.leaves[i]? = some leaf ∧ leaf.isBlank = false := by
  simp only [activeMembers, List.mem_filter, List.mem_map, Bool.not_eq_true']
  refine and_congr_left fun _ => ?_
  constructor
  · rintro ⟨⟨leaf', i'⟩, mem, same⟩
    cases same
    exact List.mem_zipIdx_iff_getElem?.mp mem
  · intro here
    exact ⟨(leaf, i), List.mem_zipIdx_iff_getElem?.mpr here, rfl⟩

/-- No index is listed twice. -/
theorem nodup_activeMembers (t : TreeKemTree Block) : (t.activeMembers.map Prod.fst).Nodup := by
  have all : (t.leaves.zipIdx.map fun p => (p.2, p.1)).map Prod.fst =
      List.range' 0 t.leaves.length := by
    rw [List.map_map]
    exact List.zipIdx_map_snd 0 t.leaves
  have sub : (t.activeMembers.map Prod.fst).Sublist (List.range' 0 t.leaves.length) := by
    rw [← all]
    exact List.filter_sublist.map Prod.fst
  exact sub.nodup List.nodup_range'

/-! ## Sequences of operations -/

/-- One operation leaves an active leaf alone, unless it blanks it. -/
theorem active_change {t : TreeKemTree Block} {i : Nat} {leaf : MlsLeafNode Block}
    (here : (i, leaf) ∈ t.activeMembers) (c : TreeChange Block) (stays : c ≠ .blankLeaf i) :
    (i, leaf) ∈ (t.change c).activeMembers := by
  obtain ⟨slot, active⟩ := mem_activeMembers.mp here
  apply mem_activeMembers.mpr
  refine ⟨?_, active⟩
  cases c with
  | addLeaf new =>
    have other : i ≠ t.nextIndex := by
      rintro rfl
      have blank := isBlank_of_nextIndex t slot
      rw [active] at blank
      cases blank
    rw [change, getElem?_addLeaf, if_neg other, slot]
  | blankLeaf idx =>
    have other : i ≠ idx := by
      rintro rfl
      exact stays rfl
    rw [change, (blankLeaf_blanks t idx).others i other, slot]

theorem active_changeAll {changes : List (TreeChange Block)} {t : TreeKemTree Block} {i : Nat}
    {leaf : MlsLeafNode Block} (here : (i, leaf) ∈ t.activeMembers)
    (stays : .blankLeaf i ∉ changes) : (i, leaf) ∈ (t.changeAll changes).activeMembers := by
  induction changes generalizing t with
  | nil => exact here
  | cons c changes ih =>
    rw [List.mem_cons, not_or] at stays
    exact ih (active_change here c (Ne.symm stays.1)) stays.2

/-- After any sequence of operations the next one is local, the active leaves are listed once each,
and whoever was not blanked is where they were. -/
theorem tree_operations_local (t : TreeKemTree Block) (changes : List (TreeChange Block)) :
    let s := t.changeAll changes
    (∀ leaf, s.Places leaf (s.addLeaf leaf).1 (s.addLeaf leaf).2) ∧
    (∀ idx, s.Blanks idx (s.blankLeaf idx)) ∧
    (s.activeMembers.map Prod.fst).Nodup ∧
    (∀ i leaf, (i, leaf) ∈ s.activeMembers ↔
      s.leaves[i]? = some leaf ∧ leaf.isBlank = false) ∧
    ∀ i leaf, (i, leaf) ∈ t.activeMembers → .blankLeaf i ∉ changes →
      (i, leaf) ∈ s.activeMembers := by
  intro s
  refine ⟨s.addLeaf_places, s.blankLeaf_blanks, s.nodup_activeMembers,
    fun i leaf => mem_activeMembers, ?_⟩
  intro i leaf here stays
  exact active_changeAll here stays

end TreeKemTree
end GenChat.Mls
