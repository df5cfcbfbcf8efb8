import Mathlib.Data.Set.Basic

/-!
# What a party can compute

A deduction system gives, for each rule, the premises it consumes and the value it produces.
`Deduces known x` says that a party holding `known` computes `x` by applying rules finitely
often. Nothing is assumed about the values: treating an operation as ideal means that this is
the only way to obtain its results.
-/
namespace GenChat.Library

/-- `rule premises value`: one application of a public operation. -/
abbrev Rule (α : Type) := List α → α → Prop

inductive Deduces {α : Type} (rule : Rule α) (known : Set α) : α → Prop where
  | known {x : α} : x ∈ known → Deduces rule known x
  | apply {xs : List α} {x : α} : rule xs x → (∀ y ∈ xs, Deduces rule known y) →
      Deduces rule known x

namespace Deduces
variable {α : Type} {rule : Rule α} {known more : Set α} {x y : α}

theorem mono (sub : known ⊆ more) (h : Deduces rule known x) : Deduces rule more x := by
  induction h with
  | known hx => exact .known (sub hx)
  | apply hr _ ih => exact .apply hr ih

/-- Deduced values may be used as if they had been known. -/
theorem cut (h : ∀ y ∈ more, Deduces rule known y) (hx : Deduces rule more x) :
    Deduces rule known x := by
  induction hx with
  | known hx => exact h _ hx
  | apply hr _ ih => exact .apply hr ih

theorem unary (hr : rule [y] x) (hy : Deduces rule known y) : Deduces rule known x :=
  .apply hr (by simpa using hy)

end Deduces
end GenChat.Library
