import GenChat.Library.Machine

/-!
# Programs that call an interface

`Prog Op Ret α` is a computation that issues operations and continues with their results; `Ret op`
is the type of the answer to `op`. A `System` says what an operation does to a state, with a
choice that settles what the caller cannot know in advance (a failure, a random value).

Judgements about programs, each with a rule for sequencing. `All φ p` bounds the operations `p` can
ever issue, whatever the answers. `Executes` runs `p` alone from a state; `Reaches` and `May` say
what some run returns and issues. `Meets` is for programs among others: between two operations the
state may change as the contract's `rely` says, and every operation is issued in a state that
meets the contract's `req`.
-/
namespace GenChat.Library

inductive Prog (Op : Type) (Ret : Op → Type) (α : Type) where
  | pure (a : α)
  | call (op : Op) (k : Ret op → Prog Op Ret α)

namespace Prog
variable {Op : Type} {Ret : Op → Type} {α β γ : Type}

def bind : Prog Op Ret α → (α → Prog Op Ret β) → Prog Op Ret β
  | pure a, f => f a
  | call op k, f => call op fun r => (k r).bind f

instance : Monad (Prog Op Ret) where
  pure := pure
  bind := bind

/-- Issue one operation. -/
def perform (op : Op) : Prog Op Ret (Ret op) := call op pure

@[simp] theorem monad_pure (a : α) : (Pure.pure a : Prog Op Ret α) = pure a := rfl
@[simp] theorem monad_bind (p : Prog Op Ret α) (f : α → Prog Op Ret β) : p >>= f = p.bind f := rfl
@[simp] theorem pure_bind (a : α) (f : α → Prog Op Ret β) : (pure a).bind f = f a := rfl
@[simp] theorem call_bind (op : Op) (k : Ret op → Prog Op Ret α) (f : α → Prog Op Ret β) :
    (call op k).bind f = call op fun r => (k r).bind f := rfl
@[simp] theorem perform_bind (op : Op) (f : Ret op → Prog Op Ret β) :
    (perform op).bind f = call op f := rfl

@[simp] theorem bind_assoc (p : Prog Op Ret α) (f : α → Prog Op Ret β) (g : β → Prog Op Ret γ) :
    (p.bind f).bind g = p.bind fun a => (f a).bind g := by
  induction p with
  | pure a => rfl
  | call op k ih => simp [ih]

theorem ite_bind {c : Prop} [Decidable c] (p q : Prog Op Ret α) (f : α → Prog Op Ret β) :
    (if c then p else q).bind f = if c then p.bind f else q.bind f := by
  split <;> rfl

/-- The operation a program issues next. -/
def next : Prog Op Ret α → Option Op
  | pure _ => none
  | call op _ => some op

/-- What a program that has come to its end returns. -/
def result : Prog Op Ret α → Option α
  | pure a => some a
  | call _ _ => none

theorem result_eq_some {p : Prog Op Ret α} {a : α} : p.result = some a ↔ p = pure a := by
  cases p <;> simp [result]

/-! ## Footprints -/

/-- Every operation the program may issue satisfies `φ`. -/
def All (φ : Op → Prop) : Prog Op Ret α → Prop
  | pure _ => True
  | call op k => φ op ∧ ∀ r, All φ (k r)

section All
variable {φ ψ : Op → Prop} {p : Prog Op Ret α} {f : α → Prog Op Ret β}

@[simp] theorem all_pure (a : α) : All φ (pure a : Prog Op Ret α) := trivial

@[simp] theorem all_call (op : Op) (k : Ret op → Prog Op Ret α) :
    All φ (call op k) ↔ φ op ∧ ∀ r, All φ (k r) := Iff.rfl

@[simp] theorem all_perform (op : Op) : All φ (perform op : Prog Op Ret (Ret op)) ↔ φ op := by
  simp [perform]

theorem all_ite {c : Prop} [Decidable c] {q : Prog Op Ret α} :
    All φ (if c then p else q) ↔ (c → All φ p) ∧ (¬ c → All φ q) := by
  split <;> simp [*]

theorem All.bind (hp : All φ p) (hf : ∀ a, All φ (f a)) : All φ (p.bind f) := by
  induction p with
  | pure a => exact hf a
  | call op k ih => exact ⟨hp.1, fun r => ih r (hp.2 r)⟩

theorem all_true (p : Prog Op Ret α) : All (fun _ => True) p := by
  induction p with
  | pure a => trivial
  | call op k ih => exact ⟨trivial, ih⟩

theorem All.mono (imp : ∀ op, φ op → ψ op) (hp : All φ p) : All ψ p := by
  induction p with
  | pure a => trivial
  | call op k ih => exact ⟨imp op hp.1, fun r => ih r (hp.2 r)⟩

end All

/-! ## Implementations of an interface -/

section Implement
variable {Op' : Type} {Ret' : Op' → Type}

/-- Replace every operation by a program over another interface. -/
def implement (σ : (op : Op) → Prog Op' Ret' (Ret op)) : Prog Op Ret α → Prog Op' Ret' α
  | pure a => pure a
  | call op k => (σ op).bind fun r => implement σ (k r)

variable {σ : (op : Op) → Prog Op' Ret' (Ret op)}

theorem All.implement {φ : Op → Prop} {ψ : Op' → Prop} {p : Prog Op Ret α} (hp : All φ p)
    (h : ∀ op, φ op → All ψ (σ op)) : All ψ (p.implement σ) := by
  induction p with
  | pure a => trivial
  | call op k ih => exact (h op hp.1).bind fun r => ih r (hp.2 r)

end Implement

/-- As long as the answers are `ok`, every operation satisfies `φ`, and `Q` holds at the end. -/
def AllIf (ok : (op : Op) → Ret op → Prop) (φ : Op → Prop) (Q : α → Prop) : Prog Op Ret α → Prop
  | pure a => Q a
  | call op k => φ op ∧ ∀ r, ok op r → AllIf ok φ Q (k r)

section AllIf
variable {ok : (op : Op) → Ret op → Prop} {φ : Op → Prop} {Q : α → Prop} {R : β → Prop}
  {p : Prog Op Ret α} {f : α → Prog Op Ret β}

@[simp] theorem allIf_pure (a : α) : AllIf ok φ Q (pure a : Prog Op Ret α) ↔ Q a := Iff.rfl

@[simp] theorem allIf_call (op : Op) (k : Ret op → Prog Op Ret α) :
    AllIf ok φ Q (call op k) ↔ φ op ∧ ∀ r, ok op r → AllIf ok φ Q (k r) := Iff.rfl

theorem All.allIf (hp : All φ p) : AllIf ok φ (fun _ => True) p := by
  induction p with
  | pure a => trivial
  | call op k ih => exact ⟨hp.1, fun r _ => ih r (hp.2 r)⟩

theorem all_iff_allIf : p.All φ ↔ p.AllIf (fun _ _ => True) φ fun _ => True := by
  refine ⟨All.allIf, fun h => ?_⟩
  induction p with
  | pure a => trivial
  | call op k ih => exact ⟨h.1, fun r => ih r (h.2 r trivial)⟩

theorem AllIf.mono {ok' : (op : Op) → Ret op → Prop} {φ' : Op → Prop} {Q' : α → Prop}
    (answers : ∀ op r, ok' op r → ok op r) (ops : ∀ op, φ op → φ' op) (imp : ∀ a, Q a → Q' a)
    (hp : AllIf ok φ Q p) : AllIf ok' φ' Q' p := by
  induction p with
  | pure a => exact imp a hp
  | call op k ih => exact ⟨ops op hp.1, fun r hr => ih r (hp.2 r (answers op r hr))⟩

theorem AllIf.bind (hp : AllIf ok φ Q p) (hf : ∀ a, Q a → AllIf ok φ R (f a)) :
    AllIf ok φ R (p.bind f) := by
  induction p with
  | pure a => exact hf a hp
  | call op k ih => exact ⟨hp.1, fun r hr => ih r (hp.2 r hr)⟩

end AllIf

/-- Whatever the program returns satisfies `ψ`. -/
def Returns (ψ : α → Prop) : Prog Op Ret α → Prop
  | pure a => ψ a
  | call _ k => ∀ r, Returns ψ (k r)

theorem returns_true (p : Prog Op Ret α) : Returns (fun _ => True) p := by
  induction p with
  | pure a => trivial
  | call op k ih => exact ih

theorem Returns.bind {ψ : α → Prop} {χ : β → Prop} {p : Prog Op Ret α} {f : α → Prog Op Ret β}
    (hp : Returns ψ p) (hf : ∀ a, ψ a → Returns χ (f a)) : Returns χ (p.bind f) := by
  induction p with
  | pure a => exact hf a hp
  | call op k ih => exact fun r => ih r (hp r)

end Prog

structure System (Op : Type) (Ret : Op → Type) where
  State : Type
  Choice : Type
  exec : State → (op : Op) → Choice → Option (Ret op × State)

variable {Op : Type} {Ret : Op → Type} {α β : Type} (S : System Op Ret)

/-! ## Running alone -/

/-- `Executes S p s trace a t`: run alone from `s`, the program issues the operations of `trace`
under its choices, returns `a` and leaves `t`. -/
inductive Executes : Prog Op Ret α → S.State → List (Op × S.Choice) → α → S.State → Prop where
  | pure (a : α) (s : S.State) : Executes (.pure a) s [] a s
  | call {op : Op} {k : Ret op → Prog Op Ret α} {s s' t : S.State} {c : S.Choice} {r : Ret op}
      {trace : List (Op × S.Choice)} {a : α} : S.exec s op c = some (r, s') →
      Executes (k r) s' trace a t → Executes (.call op k) s ((op, c) :: trace) a t

/-- Run a program with given choices. -/
def play : Prog Op Ret α → S.State → List S.Choice → Option (List (Op × S.Choice) × α × S.State)
  | .pure a, s, [] => some ([], a, s)
  | .pure _, _, _ :: _ => none
  | .call _ _, _, [] => none
  | .call op k, s, c :: cs => (S.exec s op c).bind fun r => (play (k r.1) r.2 cs).map fun run =>
    ((op, c) :: run.1, run.2)

section Executes
variable {S} {φ : Op → Prop} {p : Prog Op Ret α} {f : α → Prog Op Ret β} {s t : S.State}
  {trace : List (Op × S.Choice)} {a : α} {b : β}

@[simp] theorem executes_pure {a' : α} : Executes S (.pure a' : Prog Op Ret α) s trace a t ↔
    trace = [] ∧ a' = a ∧ s = t := by
  constructor
  · rintro ⟨⟩
    exact ⟨rfl, rfl, rfl⟩
  · rintro ⟨rfl, rfl, rfl⟩
    exact .pure a' s

theorem executes_call {op : Op} {k : Ret op → Prog Op Ret α} :
    Executes S (.call op k) s trace a t ↔ ∃ c r s' later, S.exec s op c = some (r, s') ∧
      Executes S (k r) s' later a t ∧ trace = (op, c) :: later := by
  constructor
  · rintro (_ | ⟨hr, run⟩)
    exact ⟨_, _, _, _, hr, run, rfl⟩
  · rintro ⟨c, r, s', later, hr, run, rfl⟩
    exact .call hr run

/-- The run of a sequence is a run of its parts. -/
theorem executes_bind : Executes S (p.bind f) s trace b t ↔ ∃ first a u later,
    Executes S p s first a u ∧ Executes S (f a) u later b t ∧ trace = first ++ later := by
  induction p generalizing s trace with
  | pure a =>
    simp only [Prog.pure_bind, executes_pure]
    constructor
    · intro run
      exact ⟨[], a, s, trace, ⟨rfl, rfl, rfl⟩, run, rfl⟩
    · rintro ⟨_, _, _, later, ⟨rfl, rfl, rfl⟩, run, rfl⟩
      exact run
  | call op k ih =>
    simp only [Prog.call_bind, executes_call, ih]
    constructor
    · rintro ⟨c, r, s', _, hr, ⟨first, a, u, later, one, two, rfl⟩, rfl⟩
      exact ⟨_, a, u, later, ⟨c, r, s', first, hr, one, rfl⟩, two, rfl⟩
    · rintro ⟨_, a, u, later, ⟨c, r, s', first, hr, one, rfl⟩, two, rfl⟩
      exact ⟨c, r, s', _, hr, ⟨first, a, u, later, one, two, rfl⟩, rfl⟩

theorem Executes.of_play (choices : List S.Choice)
    (h : play S p s choices = some (trace, a, t)) : Executes S p s trace a t := by
  induction p generalizing s choices trace with
  | pure a =>
    cases choices with
    | nil =>
      cases h
      exact .pure _ _
    | cons => cases h
  | call op k ih =>
    cases choices with
    | nil => cases h
    | cons c cs =>
      obtain ⟨⟨r, s'⟩, hr, h⟩ := Option.bind_eq_some_iff.mp h
      obtain ⟨⟨rest, last⟩, later, h⟩ := Option.map_eq_some_iff.mp h
      cases h
      exact .call hr (ih r cs later)

/-- A run all of whose operations are `calm` gets answers that are `ok`, as long as the state keeps
`P`. -/
theorem Executes.allIf {ok : (op : Op) → Ret op → Prop} {Q : α → Prop} {P : S.State → Prop}
    {calm : Op → S.Choice → Prop} (run : Executes S p s trace a t) (h : p.AllIf ok φ Q) (hs : P s)
    (allowed : ∀ x ∈ trace, calm x.1 x.2)
    (step : ∀ s op c r s', P s → φ op → calm op c → S.exec s op c = some (r, s') →
      ok op r ∧ P s') : (∀ x ∈ trace, φ x.1) ∧ Q a ∧ P t := by
  induction run with
  | pure a s => exact ⟨by simp, h, hs⟩
  | call hr _ ih =>
    obtain ⟨now, later⟩ := List.forall_mem_cons.mp allowed
    obtain ⟨answer, hs'⟩ := step _ _ _ _ _ hs h.1 now hr
    obtain ⟨rest, result⟩ := ih (h.2 _ answer) hs' later
    exact ⟨List.forall_mem_cons.mpr ⟨h.1, rest⟩, result⟩

/-- What holds at the end but not at the start was brought about by an operation. -/
theorem Executes.exists_step {P : S.State → Prop} (run : Executes S p s trace a t) (hs : ¬ P s)
    (ht : P t) : ∃ x ∈ trace, ∃ u r v, ¬ P u ∧ P v ∧ S.exec u x.1 x.2 = some (r, v) := by
  induction run with
  | pure => exact absurd ht hs
  | @call op _ s s' _ c r _ _ hr _ ih =>
    by_cases now : P s'
    · exact ⟨(op, c), List.mem_cons_self, s, r, s', hs, now, hr⟩
    · obtain ⟨x, hx, step⟩ := ih now ht
      exact ⟨x, List.mem_cons_of_mem _ hx, step⟩

theorem Executes.all (run : Executes S p s trace a t) (h : p.All φ) : ∀ x ∈ trace, φ x.1 := by
  induction run with
  | pure a s => simp
  | call _ _ ih => exact List.forall_mem_cons.mpr ⟨h.1, ih (h.2 _)⟩

end Executes

/-- Some run from `s` returns `a` and leaves `t`. -/
def Reaches (a : α) (t : S.State) : Prog Op Ret α → S.State → Prop
  | .pure b, s => b = a ∧ s = t
  | .call op k, s => ∃ c r s', S.exec s op c = some (r, s') ∧ Reaches a t (k r) s'

/-- Some run from `s`, all of whose operations are `calm`, ends with `Q`. -/
def Can (calm : Op → S.Choice → Prop) (Q : α → S.State → Prop) : Prog Op Ret α → S.State → Prop
  | .pure a, s => Q a s
  | .call op k, s => ∃ c r s', calm op c ∧ S.exec s op c = some (r, s') ∧ Can calm Q (k r) s'

/-- Some run from `s` issues an operation with `φ`. -/
def May (φ : Op → Prop) : Prog Op Ret α → S.State → Prop
  | .pure _, _ => False
  | .call op k, s => φ op ∨ ∃ c r s', S.exec s op c = some (r, s') ∧ May φ (k r) s'

section Alone
variable {S} {φ : Op → Prop} {p : Prog Op Ret α} {s t : S.State} {a : α}

@[simp] theorem reaches_pure (b : α) : Reaches S a t (.pure b) s ↔ b = a ∧ s = t := Iff.rfl

theorem reaches_call (op : Op) (k : Ret op → Prog Op Ret α) :
    Reaches S a t (.call op k) s ↔
      ∃ c r s', S.exec s op c = some (r, s') ∧ Reaches S a t (k r) s' := Iff.rfl

@[simp] theorem may_pure (a : α) : May S φ (.pure a : Prog Op Ret α) s ↔ False := Iff.rfl

theorem may_call (op : Op) (k : Ret op → Prog Op Ret α) : May S φ (.call op k) s ↔
    φ op ∨ ∃ c r s', S.exec s op c = some (r, s') ∧ May S φ (k r) s' := Iff.rfl

theorem may_ite {c : Prop} [Decidable c] {q : Prog Op Ret α} :
    May S φ (if c then p else q) s ↔ c ∧ May S φ p s ∨ ¬ c ∧ May S φ q s := by
  split <;> simp [*]

/-- An operation of a sequence is issued in its first part, or after a run through it. -/
theorem may_bind {f : α → Prog Op Ret β} :
    May S φ (p.bind f) s ↔ May S φ p s ∨ ∃ a t, Reaches S a t p s ∧ May S φ (f a) t := by
  induction p generalizing s with
  | pure b =>
    simp only [Prog.pure_bind, may_pure, reaches_pure, false_or]
    constructor
    · exact fun h => ⟨b, s, ⟨rfl, rfl⟩, h⟩
    · rintro ⟨_, _, ⟨rfl, rfl⟩, h⟩
      exact h
  | call op k ih =>
    simp only [Prog.call_bind, may_call, reaches_call, ih]
    constructor
    · rintro (now | ⟨c, r, s', hr, first | ⟨a, t, reach, later⟩⟩)
      · exact .inl (.inl now)
      · exact .inl (.inr ⟨c, r, s', hr, first⟩)
      · exact .inr ⟨a, t, ⟨c, r, s', hr, reach⟩, later⟩
    · rintro ((now | ⟨c, r, s', hr, first⟩) | ⟨a, t, ⟨c, r, s', hr, reach⟩, later⟩)
      · exact .inl now
      · exact .inr ⟨c, r, s', hr, .inl first⟩
      · exact .inr ⟨c, r, s', hr, .inr ⟨a, t, reach, later⟩⟩

section Can
variable {calm : Op → S.Choice → Prop} {Q : α → S.State → Prop} {R : β → S.State → Prop}

theorem Can.call {op : Op} {k : Ret op → Prog Op Ret α} (c : S.Choice) (r : Ret op) (s' : S.State)
    (allowed : calm op c) (hr : S.exec s op c = some (r, s')) (later : Can S calm Q (k r) s') :
    Can S calm Q (.call op k) s := ⟨c, r, s', allowed, hr, later⟩

theorem Can.mono {Q' : α → S.State → Prop} (imp : ∀ a t, Q a t → Q' a t)
    (h : Can S calm Q p s) : Can S calm Q' p s := by
  induction p generalizing s with
  | pure a => exact imp a s h
  | call op k ih =>
    obtain ⟨c, r, s', allowed, hr, later⟩ := h
    exact ⟨c, r, s', allowed, hr, ih r later⟩

theorem Can.bind {f : α → Prog Op Ret β} (h : Can S calm (fun a t => Can S calm R (f a) t) p s) :
    Can S calm R (p.bind f) s := by
  induction p generalizing s with
  | pure a => exact h
  | call op k ih =>
    obtain ⟨c, r, s', allowed, hr, later⟩ := h
    exact ⟨c, r, s', allowed, hr, ih r later⟩

theorem Can.executes (h : Can S calm Q p s) :
    ∃ trace a t, Executes S p s trace a t ∧ (∀ x ∈ trace, calm x.1 x.2) ∧ Q a t := by
  induction p generalizing s with
  | pure a => exact ⟨[], a, s, .pure a s, by simp, h⟩
  | call op k ih =>
    obtain ⟨c, r, s', allowed, hr, later⟩ := h
    obtain ⟨trace, a, t, run, calm, hq⟩ := ih r later
    exact ⟨_, a, t, .call hr run, List.forall_mem_cons.mpr ⟨allowed, calm⟩, hq⟩

end Can

theorem May.of_all (h : May S φ p s) {ψ : Op → Prop} (all : p.All ψ) : ∃ op, φ op ∧ ψ op := by
  induction p generalizing s with
  | pure a => exact h.elim
  | call op k ih =>
    rcases h with now | ⟨c, r, s', -, later⟩
    · exact ⟨op, now, all.1⟩
    · exact ih r later (all.2 r)

/-- Where no operation gets stuck, every program has a run to its end. -/
theorem Executes.exists_calm {calm : Op → S.Choice → Prop}
    (live : ∀ s op, ∃ c r s', calm op c ∧ S.exec s op c = some (r, s')) (p : Prog Op Ret α)
    (s : S.State) : ∃ trace a t, Executes S p s trace a t ∧ ∀ x ∈ trace, calm x.1 x.2 := by
  induction p generalizing s with
  | pure a => exact ⟨[], a, s, .pure a s, by simp⟩
  | call op k ih =>
    obtain ⟨c, r, s', allowed, hr⟩ := live s op
    obtain ⟨trace, a, t, run, rest⟩ := ih r s'
    exact ⟨_, a, t, .call hr run, List.forall_mem_cons.mpr ⟨allowed, rest⟩⟩

theorem Executes.exists (live : ∀ s op, ∃ c r s', S.exec s op c = some (r, s'))
    (p : Prog Op Ret α) (s : S.State) : ∃ trace a t, Executes S p s trace a t := by
  have free (s : S.State) (op : Op) : ∃ c r s', True ∧ S.exec s op c = some (r, s') := by
    simpa using live s op
  obtain ⟨trace, a, t, run, -⟩ := Executes.exists_calm free p s
  exact ⟨trace, a, t, run⟩

theorem Executes.reaches {trace : List (Op × S.Choice)} (run : Executes S p s trace a t) :
    Reaches S a t p s := by
  induction run with
  | pure a s => exact ⟨rfl, rfl⟩
  | call hr _ ih => exact ⟨_, _, _, hr, ih⟩

theorem Executes.may {trace : List (Op × S.Choice)} (run : Executes S p s trace a t)
    {x : Op × S.Choice} (hx : x ∈ trace) (h : φ x.1) : May S φ p s := by
  induction run with
  | pure => cases hx
  | call hr _ ih =>
    rcases List.mem_cons.mp hx with rfl | later
    · exact .inl h
    · exact .inr ⟨_, _, _, hr, ih later⟩

theorem May.executes (live : ∀ s op, ∃ c r s', S.exec s op c = some (r, s'))
    (h : May S φ p s) : ∃ trace a t, Executes S p s trace a t ∧ ∃ x ∈ trace, φ x.1 := by
  induction p generalizing s with
  | pure a => exact h.elim
  | call op k ih =>
    rcases h with now | ⟨c, r, s', hr, later⟩
    · obtain ⟨c, r, s', hr⟩ := live s op
      obtain ⟨trace, a, t, run⟩ := Executes.exists live (k r) s'
      exact ⟨_, a, t, .call hr run, _, List.mem_cons_self, now⟩
    · obtain ⟨trace, a, t, run, x, hx, bad⟩ := ih r later
      exact ⟨_, a, t, .call hr run, x, List.mem_cons_of_mem _ hx, bad⟩

/-- No run issues an operation with `φ` exactly if none may. -/
theorem executes_avoid (live : ∀ s op, ∃ c r s', S.exec s op c = some (r, s')) :
    (∀ trace a t, Executes S p s trace a t → ∀ x ∈ trace, ¬ φ x.1) ↔ ¬ May S φ p s := by
  constructor
  · intro avoid h
    obtain ⟨trace, a, t, run, x, hx, bad⟩ := h.executes live
    exact avoid trace a t run x hx bad
  · exact fun h trace a t run x hx bad => h (run.may hx bad)

end Alone

/-! ## Running among others -/

/-- What a program may assume about the steps of others and must guarantee at its own. -/
structure Contract where
  inv : S.State → Prop
  rely : S.State → S.State → Prop
  rely_refl : ∀ s, rely s s
  rely_trans : ∀ {s t u}, rely s t → rely t u → rely s u
  /-- The choices the environment may make at an operation. -/
  admits : S.State → Op → S.Choice → Prop
  /-- What must hold where the operation is issued. -/
  req : S.State → Op → Prop

variable {S} {C : Contract S}

/-- The program keeps its contract from `s` on, and `Q` holds when it returns. -/
def Meets (C : Contract S) (Q : α → S.State → Prop) : Prog Op Ret α → S.State → Prop
  | .pure a, s => ∀ s', C.rely s s' → C.inv s' → Q a s'
  | .call op k, s => ∀ s', C.rely s s' → C.inv s' → C.req s' op ∧
      ∀ c r s'', C.admits s' op c → S.exec s' op c = some (r, s'') → Meets C Q (k r) s''

namespace Meets
variable {Q Q' : α → S.State → Prop} {R : β → S.State → Prop} {p : Prog Op Ret α}
  {f : α → Prog Op Ret β} {s s' : S.State}

/-- What others do in between cannot break it. -/
theorem stable (h : Meets C Q p s) (rely : C.rely s s') : Meets C Q p s' := by
  cases p with
  | pure a => exact fun t ht => h t (C.rely_trans rely ht)
  | call op k => exact fun t ht => h t (C.rely_trans rely ht)

theorem pure {a : α} (h : ∀ s', C.rely s s' → C.inv s' → Q a s') : Meets C Q (.pure a) s := h

/-- It is enough to look at the states in which the program is resumed. -/
theorem of_resumed (h : ∀ s', C.rely s s' → C.inv s' → Meets C Q p s') : Meets C Q p s := by
  cases p with
  | pure a => exact fun t ht hi => h t ht hi t (C.rely_refl t) hi
  | call op k => exact fun t ht hi => h t ht hi t (C.rely_refl t) hi

theorem mono (imp : ∀ a s, Q a s → Q' a s) (h : Meets C Q p s) : Meets C Q' p s := by
  induction p generalizing s with
  | pure a => exact fun t ht hi => imp a t (h t ht hi)
  | call op k ih =>
    intro t ht hi
    obtain ⟨req, rest⟩ := h t ht hi
    exact ⟨req, fun c r u hc hr => ih r (rest c r u hc hr)⟩

theorem returns {ψ : α → Prop} (h : Meets C Q p s) (hψ : p.Returns ψ) :
    Meets C (fun a s => Q a s ∧ ψ a) p s := by
  induction p generalizing s with
  | pure a => exact fun t ht hi => ⟨h t ht hi, hψ⟩
  | call op k ih =>
    intro t ht hi
    obtain ⟨req, rest⟩ := h t ht hi
    exact ⟨req, fun c r u hc hr => ih r (rest c r u hc hr) (hψ r)⟩

/-- Sequencing: the second part starts where the first one returned. -/
theorem bind (h : Meets C (fun a s => Meets C R (f a) s) p s) : Meets C R (p.bind f) s := by
  induction p generalizing s with
  | pure a => exact of_resumed h
  | call op k ih =>
    intro t ht hi
    obtain ⟨req, rest⟩ := h t ht hi
    exact ⟨req, fun c r u hc hr => ih r (rest c r u hc hr)⟩

/-- A program that issues only operations with `φ`, which `P` allows and which keep `P`. -/
theorem of_all {φ : Op → Prop} {P : S.State → Prop}
    (stable : ∀ s t, P s → C.rely s t → P t)
    (kept : ∀ s op c r t, P s → φ op → C.admits s op c → S.exec s op c = some (r, t) → P t)
    (free : ∀ s op, C.inv s → P s → φ op → C.req s op) (hs : P s) (h : p.All φ) :
    Meets C (fun _ => P) p s := by
  induction p generalizing s with
  | pure a => exact fun t ht _ => stable s t hs ht
  | call op k ih =>
    intro t ht hi
    have now := stable s t hs ht
    exact ⟨free t op hi now h.1, fun c r u hc hr => ih r (kept t op c r u now h.1 hc hr) (h.2 r)⟩

/-- A program all of whose operations are unconditionally allowed. -/
theorem of_free (h : p.All fun op => ∀ s, C.req s op) : Meets C (fun _ _ => True) p s :=
  of_all (fun _ _ _ _ => trivial) (fun _ _ _ _ _ _ _ _ _ => trivial)
    (fun s _ _ _ free => free s) trivial h

/-- The requirement on the next operation holds now. -/
theorem next {op : Op} {k : Ret op → Prog Op Ret α} (h : Meets C Q (.call op k) s)
    (inv : C.inv s) : C.req s op := (h s (C.rely_refl s) inv).1

end Meets

end GenChat.Library
