import GenChat.Library.Prog

/-!
# What a program is sure to do

`Issues φ R p`: before `p` returns a result with `R`, it issues an operation with `φ`. The dual of
a footprint. And with the outcome of every operation given, a program has one result.
-/
namespace GenChat.Library.Prog
variable {Op : Type} {Ret : Op → Type} {α β : Type}

def Issues (φ : Op → Prop) (R : α → Prop) : Prog Op Ret α → Prop
  | pure a => ¬ R a
  | call op k => φ op ∨ ∀ r, Issues φ R (k r)

variable {φ : Op → Prop} {Q : α → Prop} {R : β → Prop} {p : Prog Op Ret α} {f : α → Prog Op Ret β}

@[simp] theorem issues_pure (a : α) : Issues φ Q (pure a : Prog Op Ret α) ↔ ¬ Q a := Iff.rfl

/-- If the first part has not issued the operation, then its result is not `Q`. -/
theorem Issues.bind (hp : Issues φ Q p) (hf : ∀ a, ¬ Q a → Issues φ R (f a)) :
    Issues φ R (p.bind f) := by
  induction p with
  | pure a => exact hf a hp
  | call op k ih => exact hp.imp id fun later r => ih r (later r)

theorem Issues.bind_first (hp : Issues φ (fun _ => True) p) : Issues φ R (p.bind f) :=
  hp.bind fun _ none => absurd trivial none

theorem issues_false (p : Prog Op Ret α) : Issues φ (fun _ => False) p := by
  induction p with
  | pure a => exact id
  | call op k ih => exact .inr ih

theorem Issues.bind_last (hf : ∀ a, Issues φ R (f a)) : Issues φ R (p.bind f) :=
  (issues_false p).bind fun a _ => hf a

theorem Issues.executes {S : System Op Ret} {s t : S.State} {trace : List (Op × S.Choice)} {a : α}
    (run : Executes S p s trace a t) (hp : Issues φ Q p) (ha : Q a) : ∃ x ∈ trace, φ x.1 := by
  induction run with
  | pure => exact absurd ha hp
  | call _ _ ih =>
    rcases hp with now | later
    · exact ⟨_, List.mem_cons_self, now⟩
    · obtain ⟨x, hx, h⟩ := ih (later _) ha
      exact ⟨x, List.mem_cons_of_mem _ hx, h⟩

end GenChat.Library.Prog

namespace GenChat.Library
variable {Op : Type} {Ret : Op → Type} {α : Type} {S : System Op Ret} {p : Prog Op Ret α}

theorem Executes.unique (pick : Op → S.Choice) {s t t' : S.State}
    {trace trace' : List (Op × S.Choice)} {a a' : α} (one : Executes S p s trace a t) (two : Executes S p s trace' a' t')
    (picked : ∀ x ∈ trace, x.2 = pick x.1) (picked' : ∀ x ∈ trace', x.2 = pick x.1) :
    a = a' ∧ t = t' := by
  induction one generalizing trace' with
  | pure => exact (executes_pure.mp two).2
  | call hr _ ih =>
    obtain ⟨c, r, u, later, hr', rest, rfl⟩ := executes_call.mp two
    obtain ⟨now, after⟩ := List.forall_mem_cons.mp picked
    obtain ⟨now', after'⟩ := List.forall_mem_cons.mp picked'
    dsimp only at now now'
    subst now now'
    rw [hr] at hr'
    cases hr'
    exact ih rest after after'

end GenChat.Library
