import GenChat.Library.Concurrent

/-!
# Phases of threads

A typestate gives a thread a ghost phase, which its operations and their answers move on. A program
follows the typestate if it issues only operations that its phase allows. `Pool.phased` then trades
the programs of a pool for their phases, so that what holds across threads can be stated and proved
about the shared state and the phases alone.
-/
namespace GenChat.Library

structure Typestate (Tag Op : Type) (Ret : Op → Type) where
  Phase : Type
  start : Tag → Phase
  allows : Tag → Phase → Op → Prop
  next : Phase → (op : Op) → Ret op → Phase

variable {Op : Type} {Ret : Op → Type} {α β Tag Env : Type}

section Follows
variable (T : Typestate Tag Op Ret) (t : Tag)

/-- From its phase on, the program issues only allowed operations, and `Q` holds at its end. -/
def Follows (Q : α → T.Phase → Prop) : Prog Op Ret α → T.Phase → Prop
  | .pure a, φ => Q a φ
  | .call op k, φ => T.allows t φ op ∧ ∀ r, Follows Q (k r) (T.next φ op r)

variable {T t} {Q Q' : α → T.Phase → Prop} {R : β → T.Phase → Prop} {p : Prog Op Ret α}
  {f : α → Prog Op Ret β} {φ : T.Phase}

theorem Follows.mono (h : Follows T t Q p φ) (imp : ∀ a φ, Q a φ → Q' a φ) :
    Follows T t Q' p φ := by
  induction p generalizing φ with
  | pure a => exact imp a φ h
  | call op k ih => exact ⟨h.1, fun r => ih r (h.2 r)⟩

theorem Follows.bind (h : Follows T t Q p φ) (hf : ∀ a φ, Q a φ → Follows T t R (f a) φ) :
    Follows T t R (p.bind f) φ := by
  induction p generalizing φ with
  | pure a => exact hf a φ h
  | call op k ih => exact ⟨h.1, fun r => ih r (h.2 r)⟩

/-- A program whose operations leave the phase as it is. -/
theorem Follows.of_all {q : Prog Op Ret β} {g : β → Prog Op Ret α} {ok : Op → Prop}
    (all : q.All ok) (keeps : ∀ op, ok op → T.allows t φ op ∧ ∀ r, T.next φ op r = φ)
    (hg : ∀ b, Follows T t Q (g b) φ) : Follows T t Q (q.bind g) φ := by
  induction q with
  | pure b => exact hg b
  | call op k ih =>
    obtain ⟨allowed, same⟩ := keeps op all.1
    refine ⟨allowed, fun r => ?_⟩
    rw [same r]
    exact ih r (all.2 r)

end Follows

/-! ## Lists of phases -/

theorem getElem?_concat_cases {l : List α} {x y : α} {i : Nat} (h : (l ++ [y])[i]? = some x) :
    l[i]? = some x ∨ x = y := by
  rw [List.getElem?_append] at h
  split at h
  · exact .inl h
  · rw [List.getElem?_singleton] at h
    split at h <;> cases h
    exact .inr rfl

theorem getElem?_set_cases {l : List α} {x y : α} {i j : Nat} (h : (l.set i y)[j]? = some x) :
    j = i ∧ x = y ∨ j ≠ i ∧ l[j]? = some x := by
  by_cases same : i = j
  · subst same
    obtain ⟨lt, -⟩ := List.getElem?_eq_some_iff.mp h
    rw [List.getElem?_set_self (by simpa using lt)] at h
    cases h
    exact .inl ⟨rfl, rfl⟩
  · rw [List.getElem?_set_ne same] at h
    exact .inr ⟨Ne.symm same, h⟩

theorem countP_set_add {l : List α} {a : α → Bool} {x y : α} {i : Nat} (here : l[i]? = some x) :
    (l.set i y).countP a + (if a x then 1 else 0) = l.countP a + if a y then 1 else 0 := by
  obtain ⟨lt, rfl⟩ := List.getElem?_eq_some_iff.mp here
  have one := List.boole_getElem_le_countP (p := a) lt
  rw [List.countP_set lt]
  omega

theorem sum_map_set {l : List α} {g : α → Nat} {x y : α} {i : Nat} (here : l[i]? = some x) :
    ((l.set i y).map g).sum + g x = (l.map g).sum + g y := by
  induction l generalizing i with
  | nil => cases here
  | cons z l ih =>
    cases i with
    | zero =>
      cases here
      simp only [List.set_cons_zero, List.map_cons, List.sum_cons]
      omega
    | succ i =>
      have rest := ih (i := i) here
      simp only [List.set_cons_succ, List.map_cons, List.sum_cons]
      omega

theorem countP_le_of_getElem? {l : List α} {l' : List β} {a : α → Bool} {b : β → Bool}
    (length_eq : l.length = l'.length)
    (imp : ∀ (i : Nat) x y, l[i]? = some x → l'[i]? = some y → a x = true → b y = true) :
    l.countP a ≤ l'.countP b := by
  induction l generalizing l' with
  | nil => exact Nat.zero_le _
  | cons x l ih =>
    cases l' with
    | nil => cases length_eq
    | cons y l' =>
      have rest := ih (Nat.succ.inj length_eq) fun i x y hx hy => imp (i + 1) x y hx hy
      have first := imp 0 x y rfl rfl
      rw [List.countP_cons, List.countP_cons]
      by_cases counted : a x = true
      · rw [if_pos counted, if_pos (first counted)]
        omega
      · rw [if_neg counted]
        omega

/-! ## Pools -/

namespace Pool
variable {V : Service Op Ret α Tag Env} (T : Typestate Tag Op Ret) (Q : Tag → α → T.Phase → Prop)

/-- The phases of the threads, each with the tag of its thread. -/
structure Phased (p : Pool V) (phases : List (Tag × T.Phase)) : Prop where
  length_eq : phases.length = p.threads.length
  follows : ∀ (i : Nat) (t : Tag) (program : Prog Op Ret α), p.threads[i]? = some (t, program) →
    ∃ φ : T.Phase, phases[i]? = some (t, φ) ∧ Follows T t (Q t) program φ

variable {T Q}

theorem Phased.thread {p : Pool V} {phases : List (Tag × T.Phase)} (h : Phased T Q p phases)
    {i : Nat} {t : Tag} {φ : T.Phase} (now : phases[i]? = some (t, φ)) :
    ∃ program, p.threads[i]? = some (t, program) ∧ Follows T t (Q t) program φ := by
  obtain ⟨lt, -⟩ := List.getElem?_eq_some_iff.mp now
  have thread := List.getElem?_eq_getElem (h.length_eq ▸ lt)
  obtain ⟨φ', same, follows⟩ := h.follows i _ _ thread
  rw [now] at same
  cases same
  exact ⟨_, thread, follows⟩

/-- Threads in some phases are counted by their programs. -/
theorem Phased.countP_le {p : Pool V} {phases : List (Tag × T.Phase)} (h : Phased T Q p phases)
    {a : Tag × T.Phase → Bool} {b : Tag × Prog Op Ret α → Bool}
    (imp : ∀ t φ program, Follows T t (Q t) program φ → a (t, φ) = true → b (t, program) = true) :
    phases.countP a ≤ p.threads.countP b := by
  refine countP_le_of_getElem? h.length_eq ?_
  rintro i ⟨t, φ⟩ ⟨t', program⟩ now thread
  obtain ⟨φ', same, follows⟩ := h.follows i t' program thread
  rw [now] at same
  cases same
  exact imp _ _ program follows

theorem Phased.spawn {p : Pool V} {phases : List (Tag × T.Phase)} (h : Phased T Q p phases)
    {t : Tag} (body : Follows T t (Q t) (V.body t) (T.start t)) :
    Phased T Q { p with threads := p.threads ++ [(t, V.body t)] }
      (phases ++ [(t, T.start t)]) where
  length_eq := by simp [h.length_eq]
  follows i t' program thread := by
    rcases Nat.lt_or_ge i p.threads.length with old | new
    · rw [List.getElem?_append_left old] at thread
      rw [List.getElem?_append_left (h.length_eq ▸ old)]
      exact h.follows i t' program thread
    · rw [List.getElem?_append_right new] at thread
      rw [List.getElem?_append_right (h.length_eq ▸ new), h.length_eq]
      cases here : i - p.threads.length with
      | zero =>
        rw [here] at thread
        cases thread
        exact ⟨_, rfl, body⟩
      | succ n =>
        rw [here] at thread
        cases thread

theorem Phased.run {p : Pool V} {phases : List (Tag × T.Phase)} (h : Phased T Q p phases) {i : Nat}
    {t : Tag} {op : Op} {k : Ret op → Prog Op Ret α} {φ : T.Phase}
    (now : phases[i]? = some (t, φ)) (moved : ∀ r, Follows T t (Q t) (k r) (T.next φ op r))
    (r : Ret op) (s : V.system.State) (log : List (Tag × Op)) :
    Phased T Q { shared := s, threads := p.threads.set i (t, k r), log := log }
      (phases.set i (t, T.next φ op r)) where
  length_eq := by simp [h.length_eq]
  follows j t' program thread := by
    obtain ⟨lt, -⟩ := List.getElem?_eq_some_iff.mp now
    by_cases same : i = j
    · subst same
      rw [List.getElem?_set_self (h.length_eq ▸ lt)] at thread
      cases thread
      exact ⟨_, List.getElem?_set_self lt, moved r⟩
    · rw [List.getElem?_set_ne same] at thread ⊢
      exact h.follows j t' program thread

variable {ok : Pool V → PoolLabel V → Prop} {I : V.system.State → List (Tag × T.Phase) → Prop}

/-- An invariant of the shared state and the phases. -/
theorem phased (body : ∀ p t, ok p (.spawn t) → Follows T t (Q t) (V.body t) (T.start t))
    (init : ∀ s, V.init s → I s [])
    (spawn : ∀ p phases t, ok p (.spawn t) → I p.shared phases →
      I p.shared (phases ++ [(t, T.start t)]))
    (run : ∀ p phases i c t op k φ r s, Phased T Q p phases → ok p (.run i c) →
      p.threads[i]? = some (t, .call op k) → phases[i]? = some (t, φ) → T.allows t φ op →
      V.system.exec p.shared op c = some (r, s) → I p.shared phases →
      I s (phases.set i (t, T.next φ op r)))
    (env : ∀ p phases e s, Phased T Q p phases → ok p (.env e) → V.env p.shared e = some s →
      I p.shared phases → I s phases)
    {p : Pool V} (hp : (machine V).Reach ok p) :
    ∃ phases, Phased T Q p phases ∧ I p.shared phases := by
  refine hp.invariant (I := fun p => ∃ phases, Phased T Q p phases ∧ I p.shared phases) ?_ ?_
  · rintro _ ⟨s, hs, rfl⟩
    exact ⟨[], ⟨rfl, nofun⟩, init s hs⟩
  · rintro p l p' ⟨phases, hphases, hI⟩ hok step
    cases l with
    | spawn t =>
      cases step
      exact ⟨_, hphases.spawn (body p t hok), spawn p phases t hok hI⟩
    | run i c =>
      obtain ⟨t, op, k, r, s, thread, hr, rfl⟩ := run_cases step
      obtain ⟨φ, now, allowed, moved⟩ := hphases.follows i t _ thread
      exact ⟨_, hphases.run now moved r s _,
        run p phases i c t op k φ r s hphases hok thread now allowed hr hI⟩
    | env e =>
      obtain ⟨s, hs, rfl⟩ := env_cases step
      exact ⟨phases, ⟨hphases.length_eq, hphases.follows⟩, env p phases e s hphases hok hs hI⟩

end Pool
end GenChat.Library
