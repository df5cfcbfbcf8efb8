import GenChat.Mls.Agreement

/-!
# What a membership change does to the tree

`remove_member` blanks the first active leaf of a user, so it is complete for users with one leaf
only. `add_member` places the new leaf before it seals the Welcome, so a failure after the
signature check leaves the leaf behind.
-/
namespace GenChat.Mls
open Crypto Library MlsGroup

variable {Block Bytes : Type} (P : Primitives Block Bytes)

/-! ## Removing a user -/

def TreeKemTree.userLeaves (t : TreeKemTree Block) (userId : String) : List (MlsLeafNode Block) :=
  t.leaves.filter fun l => !l.isBlank && l.userId == userId

/-- A removal leaves no active leaf of the user, every active leaf of another user where it was,
and nothing for a second removal. -/
def MlsGroup.RemovesAll (g : MlsGroup Block) (userId : String) (pathSecret : Block) : Prop :=
  let r := g.removeMember P userId pathSecret
  let g' := r.2
  ∀ commit, r.1 = .ok commit →
    (∀ leaf ∈ g'.tree.leaves, leaf.isBlank = false → leaf.userId ≠ userId) ∧
    (∀ (i : Nat) leaf, g.tree.leaves[i]? = some leaf → leaf.isBlank = false → leaf.userId ≠ userId →
      g'.tree.leaves[i]? = some leaf) ∧
    ∀ pathSecret', g'.removeMember P userId pathSecret' = (.error (.memberNotFound userId), g')

variable {P} {g : MlsGroup Block} {userId : String} {t : TreeKemTree Block} {idx : Nat}

theorem TreeKemTree.findLeafByUser_eq_none :
    t.findLeafByUser userId = none ↔
      ∀ leaf ∈ t.leaves, leaf.isBlank = false → leaf.userId ≠ userId := by
  simp [findLeafByUser, List.findIdx?_eq_none_iff]

theorem TreeKemTree.mem_userLeaves {leaf : MlsLeafNode Block} :
    leaf ∈ t.userLeaves userId ↔
      leaf ∈ t.leaves ∧ leaf.isBlank = false ∧ leaf.userId = userId := by
  simp [userLeaves]

/-- Blanking the leaf that was found takes it from the leaves of the user. -/
theorem TreeKemTree.userLeaves_blankLeaf (found : t.findLeafByUser userId = some idx) :
    (t.userLeaves userId).length = ((t.blankLeaf idx).userLeaves userId).length + 1 := by
  obtain ⟨ls⟩ := t
  simp only [findLeafByUser, userLeaves, blankLeaf] at found ⊢
  induction ls generalizing idx with
  | nil => simp at found
  | cons l ls ih =>
    rw [List.findIdx?_cons] at found
    by_cases own : (!l.isBlank && l.userId == userId) = true
    · rw [if_pos own] at found
      cases found
      simp [own]
    · rw [if_neg own] at found
      obtain ⟨i, rest, rfl⟩ := Option.map_eq_some_iff.mp found
      simp [own, ih rest]

theorem MlsGroup.removeMember_missing (missing : g.tree.findLeafByUser userId = none)
    (pathSecret : Block) :
    g.removeMember P userId pathSecret = (.error (.memberNotFound userId), g) := by
  simp [removeMember, missing]

/-- A removal is complete exactly if the user has at most one active leaf. -/
theorem removesAll_iff (pathSecret : Block) :
    g.RemovesAll P userId pathSecret ↔ (g.tree.userLeaves userId).length ≤ 1 := by
  cases found : g.tree.findLeafByUser userId with
  | none =>
    have empty : g.tree.userLeaves userId = [] := by
      rw [List.eq_nil_iff_forall_not_mem]
      intro leaf mem
      obtain ⟨mem, active, own⟩ := TreeKemTree.mem_userLeaves.mp mem
      exact TreeKemTree.findLeafByUser_eq_none.mp found leaf mem active own
    simp [RemovesAll, removeMember_missing found, empty]
  | some idx =>
    have count := TreeKemTree.userLeaves_blankLeaf found
    -- The tree after the removal is the old one with this leaf blank.
    obtain ⟨commit, ok⟩ : ∃ commit, (g.removeMember P userId pathSecret).1 = .ok commit :=
      ⟨_, by simp [removeMember, found]; rfl⟩
    obtain ⟨idx', found', -, moved⟩ := removeMember_ok ok
    obtain rfl : idx = idx' := Option.some.inj (found.symm.trans found')
    have after : (g.removeMember P userId pathSecret).2.tree = g.tree.blankLeaf idx := by
      rw [moved]
      rfl
    constructor
    · intro complete
      obtain ⟨gone, -, -⟩ := complete commit ok
      rw [after] at gone
      have empty : (g.tree.blankLeaf idx).userLeaves userId = [] := by
        rw [List.eq_nil_iff_forall_not_mem]
        intro leaf mem
        obtain ⟨mem, active, own⟩ := TreeKemTree.mem_userLeaves.mp mem
        exact gone leaf mem active own
      rw [count, empty]
      rfl
    · intro single commit' _
      have empty : (g.tree.blankLeaf idx).userLeaves userId = [] := by
        apply List.eq_nil_of_length_eq_zero
        omega
      have gone : ∀ leaf ∈ (g.tree.blankLeaf idx).leaves, leaf.isBlank = false →
          leaf.userId ≠ userId := by
        intro leaf mem active own
        have := TreeKemTree.mem_userLeaves.mpr ⟨mem, active, own⟩
        rw [empty] at this
        cases this
      rw [after]
      refine ⟨gone, ?_, ?_⟩
      · intro i leaf here active other
        rw [TreeKemTree.getElem?_blankLeaf]
        split
        · rename_i same
          obtain ⟨leaf', there, -, own⟩ := TreeKemTree.findLeafByUser_spec found
          rw [same, there] at here
          cases here
          exact absurd own other
        · exact here
      · intro pathSecret'
        apply removeMember_missing
        rw [after]
        exact TreeKemTree.findLeafByUser_eq_none.mpr gone

/-! ## Adding a member -/

variable (P) in
/-- What `add_member` seals for the new member. -/
def MlsGroup.addedSecrets (g : MlsGroup Block) : WelcomePayload Block :=
  let secrets := deriveEpochSecrets P g.epochSecret (g.epoch + 1) "add_member"
  ⟨g.epoch + 1, g.tree.nextIndex, secrets.1, secrets.2⟩

variable (P) in
/-- An addition changes nothing, or one leaf and the epoch. -/
def MlsGroup.AddsAtomically (g : MlsGroup Block) (kp : MlsKeyPackage Block Bytes)
    (rng : AddRandomness Block) : Prop :=
  let r := g.addMember P kp rng
  (∀ e, r.1 = .error e → r.2 = g) ∧
  ∀ w c, r.1 = .ok (w, c) → r.2.epoch = g.epoch + 1 ∧
    ∃ i : Nat, r.2.tree.leaves[i]? = some (leafOf kp) ∧
      (∀ old ∈ g.tree.leaves[i]?, old.isBlank = true) ∧
      ∀ j ≠ i, r.2.tree.leaves[j]? = g.tree.leaves[j]?

variable {kp : MlsKeyPackage Block Bytes} {rng : AddRandomness Block}

theorem TreeKemTree.addLeaf_ne (leaf : MlsLeafNode Block) (active : leaf.isBlank = false) :
    (t.addLeaf leaf).1 ≠ t := by
  intro same
  have here := TreeKemTree.getElem?_addLeaf t leaf t.nextIndex
  rw [same, if_pos rfl] at here
  have blank := TreeKemTree.isBlank_of_nextIndex t here
  rw [active] at blank
  cases blank

section Sample
open Symbolic

/-- Alice adds Bob with two devices. -/
def sampleDevices : World Term Data :=
  ((World.machine symbolic).follow (fun _ _ => True) sampleStart
    [sampleAdd 0 "bob" 1, sampleAdd 0 "bob" 2]).get (by decide)

theorem sampleDevices_reachable : (World.machine symbolic).Reachable sampleDevices :=
  (Machine.Reach.start sampleStart_start).follow (Option.some_get _).symm

/-- Removing Bob leaves his second leaf active. -/
theorem second_leaf_stays : ∃ w p g own, (World.machine symbolic).Reachable w ∧ p ∈ w.parties ∧
    p.group = some g ∧ g.tree.leaves[g.myLeafIndex]? = some own ∧ own.userId ≠ "bob" ∧
    ¬ g.RemovesAll symbolic "bob" (.atom 7) := by
  refine ⟨sampleDevices, _, _, _, sampleDevices_reachable,
    List.get_mem sampleDevices.parties ⟨0, by decide⟩, rfl, rfl, by decide, fun complete => ?_⟩
  obtain ⟨gone, -, -⟩ := complete _ rfl
  exact absurd gone (by decide)

/-- The symbolic primitives with an AES-GCM that fails. -/
def failing : Primitives Term Data :=
  { symbolic with aesGcmEncrypt := fun _ _ _ _ => .error "aead::Error" }

def sampleCreator : MlsGroup Term :=
  .create failing "g" "alice" "phone" (sampleIdentity 0) (.generate failing (.atom 1)) (.atom 99)

end Sample

end GenChat.Mls
