import GenChat.Crypto.Primitives

/-!
# The ratchet tree of `mls.rs`

`TreeKemTree` is a vector of leaves. A removed member leaves a blank behind, and `addLeaf` fills
the first blank before it extends the vector.
-/
namespace GenChat.Mls
open Crypto

structure MlsLeafNode (Block : Type) where
  userId : String
  deviceId : String
  identityKey : Block
  publicKey : Block
  isBlank : Bool
  deriving DecidableEq

structure TreeKemTree (Block : Type) where
  leaves : List (MlsLeafNode Block)
  deriving DecidableEq

namespace TreeKemTree
variable {Block : Type}

def new : TreeKemTree Block := ⟨[]⟩

def leafCount (t : TreeKemTree Block) : Nat := t.leaves.length

def findLeafByUser (t : TreeKemTree Block) (userId : String) : Option Nat :=
  t.leaves.findIdx? fun l => !l.isBlank && l.userId == userId

/-- The loop of `add_leaf`: overwrite the first blank leaf, or push at the end. -/
def placeLeaf (leaf : MlsLeafNode Block) : List (MlsLeafNode Block) → List (MlsLeafNode Block) × Nat
  | [] => ([leaf], 0)
  | existing :: rest =>
    if existing.isBlank then (leaf :: rest, 0)
    else
      let placed := placeLeaf leaf rest
      (existing :: placed.1, placed.2 + 1)

def addLeaf (t : TreeKemTree Block) (leaf : MlsLeafNode Block) : TreeKemTree Block × Nat :=
  let placed := placeLeaf leaf t.leaves
  (⟨placed.1⟩, placed.2)

def blankLeaf (t : TreeKemTree Block) (leafIdx : Nat) : TreeKemTree Block :=
  ⟨t.leaves.modify leafIdx fun l => { l with isBlank := true }⟩

def activeMembers (t : TreeKemTree Block) : List (Nat × MlsLeafNode Block) :=
  (t.leaves.zipIdx.map fun p => (p.2, p.1)).filter fun p => !p.2.isBlank

/-- The index `addLeaf` chooses does not depend on the leaf. -/
def nextIndex (t : TreeKemTree Block) : Nat :=
  t.leaves.findIdx fun l => l.isBlank

/-! ## Adding a leaf -/

theorem placeLeaf_snd (leaf : MlsLeafNode Block) (ls : List (MlsLeafNode Block)) :
    (placeLeaf leaf ls).2 = ls.findIdx fun l => l.isBlank := by
  induction ls with
  | nil => rfl
  | cons existing rest ih =>
    by_cases blank : existing.isBlank = true
    · simp [placeLeaf, List.findIdx_cons, blank]
    · simp [placeLeaf, List.findIdx_cons, blank, ih]

@[simp] theorem addLeaf_snd (t : TreeKemTree Block) (leaf : MlsLeafNode Block) :
    (t.addLeaf leaf).2 = t.nextIndex := placeLeaf_snd leaf t.leaves

theorem getElem?_placeLeaf (leaf : MlsLeafNode Block) (ls : List (MlsLeafNode Block)) (i : Nat) :
    (placeLeaf leaf ls).1[i]? = if i = (placeLeaf leaf ls).2 then some leaf else ls[i]? := by
  induction ls generalizing i with
  | nil => cases i <;> simp [placeLeaf]
  | cons existing rest ih =>
    by_cases blank : existing.isBlank = true
    · cases i <;> simp [placeLeaf, blank]
    · cases i with
      | zero => simp [placeLeaf, blank]
      | succ i => simp [placeLeaf, blank, ih]

/-- The chosen slot holds the new leaf, every other slot is as before. -/
theorem getElem?_addLeaf (t : TreeKemTree Block) (leaf : MlsLeafNode Block) (i : Nat) :
    (t.addLeaf leaf).1.leaves[i]? = if i = t.nextIndex then some leaf else t.leaves[i]? := by
  have h := getElem?_placeLeaf leaf t.leaves i
  rwa [placeLeaf_snd] at h

/-- The slot `addLeaf` overwrites held no active leaf. -/
theorem isBlank_of_nextIndex (t : TreeKemTree Block) {old : MlsLeafNode Block}
    (h : t.leaves[t.nextIndex]? = some old) : old.isBlank = true := by
  obtain ⟨lt, eq⟩ := List.getElem?_eq_some_iff.mp h
  have := List.findIdx_getElem (p := fun l : MlsLeafNode Block => l.isBlank) (w := lt)
  rwa [← eq]

/-! ## Blanking a leaf -/

theorem getElem?_blankLeaf (t : TreeKemTree Block) (leafIdx i : Nat) :
    (t.blankLeaf leafIdx).leaves[i]? =
      if i = leafIdx then t.leaves[i]?.map fun l => { l with isBlank := true }
      else t.leaves[i]? := by
  simp only [blankLeaf, List.getElem?_modify, eq_comm (a := leafIdx)]
  split <;> simp_all

/-! ## Finding a user -/

theorem findLeafByUser_spec {t : TreeKemTree Block} {userId : String} {idx : Nat}
    (h : t.findLeafByUser userId = some idx) :
    ∃ leaf, t.leaves[idx]? = some leaf ∧ leaf.isBlank = false ∧ leaf.userId = userId := by
  obtain ⟨lt, found, _⟩ := List.findIdx?_eq_some_iff_getElem.mp h
  refine ⟨t.leaves[idx], List.getElem?_eq_getElem lt, ?_⟩
  simpa using found

end TreeKemTree
end GenChat.Mls
