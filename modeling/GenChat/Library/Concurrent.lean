import GenChat.Library.Prog

/-!
# Pools of threads

A pool runs any number of programs over one shared state, one operation at a time. A thread is
spawned from a tag, which fixes its program; the environment may change the shared state between
operations. `log` records the operations in the order in which they were executed.

Four rules turn facts about single programs into facts about every run: `Pool.log_all` for
footprints, `Pool.threads_allIf` for results, `Pool.written` for what the state holds, `Pool.safe`
for contracts.
-/
namespace GenChat.Library

variable {Op : Type} {Ret : Op → Type} {α Tag Env : Type}

/-- A system with an environment and a program for each tag. -/
structure Service (Op : Type) (Ret : Op → Type) (α Tag Env : Type) where
  system : System Op Ret
  init : system.State → Prop
  env : system.State → Env → Option system.State
  body : Tag → Prog Op Ret α

structure Pool (V : Service Op Ret α Tag Env) where
  shared : V.system.State
  threads : List (Tag × Prog Op Ret α)
  log : List (Tag × Op)

inductive PoolLabel (V : Service Op Ret α Tag Env) where
  | spawn (t : Tag)
  | run (i : Nat) (c : V.system.Choice)
  | env (e : Env)

variable (V : Service Op Ret α Tag Env)

namespace Pool

def start (s : V.system.State) : Pool V := ⟨s, [], []⟩

variable {V}

def run (p : Pool V) (i : Nat) (c : V.system.Choice) : Option (Pool V) :=
  match p.threads[i]? with
  | some (t, .call op k) => (V.system.exec p.shared op c).map fun r =>
    { shared := r.2, threads := p.threads.set i (t, k r.1), log := p.log ++ [(t, op)] }
  | _ => none

def step (p : Pool V) : PoolLabel V → Option (Pool V)
  | .spawn t => some { p with threads := p.threads ++ [(t, V.body t)] }
  | .run i c => p.run i c
  | .env e => (V.env p.shared e).map fun s => { p with shared := s }

variable (V) in
def machine : Machine (Pool V) (PoolLabel V) where
  start p := ∃ s, V.init s ∧ p = Pool.start V s
  step := step

/-- The operation thread `i` issues next. -/
def next (p : Pool V) (i : Nat) : Option (Tag × Op) :=
  p.threads[i]?.bind fun t => t.2.next.map fun op => (t.1, op)

theorem next_call {p : Pool V} {i : Nat} {t : Tag} {op : Op} {k : Ret op → Prog Op Ret α}
    (h : p.threads[i]? = some (t, .call op k)) : p.next i = some (t, op) := by
  simp [next, h, Prog.next]

theorem call_of_next {p : Pool V} {i : Nat} {t : Tag} {op : Op} (h : p.next i = some (t, op)) :
    ∃ k, p.threads[i]? = some (t, .call op k) := by
  obtain ⟨⟨t', program⟩, thread, issues⟩ := Option.bind_eq_some_iff.mp h
  cases program with
  | pure a => cases issues
  | call op' k =>
    cases issues
    exact ⟨k, thread⟩

theorem run_cases {p p' : Pool V} {i : Nat} {c : V.system.Choice} (h : p.run i c = some p') :
    ∃ t op k r s, p.threads[i]? = some (t, .call op k) ∧
      V.system.exec p.shared op c = some (r, s) ∧
      p' = { shared := s, threads := p.threads.set i (t, k r), log := p.log ++ [(t, op)] } := by
  unfold run at h
  split at h
  · rename_i t op k thread
    obtain ⟨⟨r, s⟩, hr, rfl⟩ := Option.map_eq_some_iff.mp h
    exact ⟨t, op, k, r, s, thread, hr, rfl⟩
  · cases h

theorem env_cases {p p' : Pool V} {e : Env} (h : p.step (.env e) = some p') :
    ∃ s, V.env p.shared e = some s ∧ p' = { p with shared := s } := by
  obtain ⟨s, hs, rfl⟩ := Option.map_eq_some_iff.mp h
  exact ⟨s, hs, rfl⟩

variable {ok : Pool V → PoolLabel V → Prop} {p : Pool V}

/-! ## Footprints -/

theorem threads_all (φ : Tag → Op → Prop)
    (body : ∀ p t, ok p (.spawn t) → (V.body t).All (φ t)) (hp : (machine V).Reach ok p) :
    (∀ x ∈ p.threads, x.2.All (φ x.1)) ∧ ∀ x ∈ p.log, φ x.1 x.2 := by
  refine hp.invariant
    (I := fun p => (∀ x ∈ p.threads, x.2.All (φ x.1)) ∧ ∀ x ∈ p.log, φ x.1 x.2) ?_ ?_
  · rintro _ ⟨s, -, rfl⟩
    exact ⟨nofun, nofun⟩
  · rintro p l p' ⟨threads, log⟩ hok step
    cases l with
    | spawn t =>
      cases step
      refine ⟨fun x hx => ?_, log⟩
      rcases List.mem_append.mp hx with old | new
      · exact threads x old
      · rw [List.mem_singleton.mp new]
        exact body p t hok
    | run i c =>
      obtain ⟨t, op, k, r, s, thread, -, rfl⟩ := run_cases step
      obtain ⟨now, later⟩ := threads _ (List.mem_of_getElem? thread)
      refine ⟨fun x hx => ?_, fun x hx => ?_⟩
      · rcases List.mem_or_eq_of_mem_set hx with old | rfl
        · exact threads x old
        · exact later r
      · rcases List.mem_append.mp hx with old | new
        · exact log x old
        · rw [List.mem_singleton.mp new]
          exact now
    | env e =>
      obtain ⟨s, -, rfl⟩ := env_cases step
      exact ⟨threads, log⟩

/-- Every executed operation lies in the footprint of its thread. -/
theorem log_all (φ : Tag → Op → Prop)
    (body : ∀ p t, ok p (.spawn t) → (V.body t).All (φ t)) (hp : (machine V).Reach ok p) :
    ∀ x ∈ p.log, φ x.1 x.2 := (threads_all φ body hp).2

/-- Answers that are justified from their step on justify what the programs return. -/
theorem threads_allIf (φ : Tag → Op → Prop) (answers : Pool V → (op : Op) → Ret op → Prop)
    (Q : Tag → Pool V → α → Prop)
    (body : ∀ p t q, ok p (.spawn t) → (V.body t).AllIf (answers q) (φ t) (Q t q))
    (run : ∀ p i c t op r s p' q, (machine V).Reach ok p → ok p (.run i c) →
      p.next i = some (t, op) → V.system.exec p.shared op c = some (r, s) →
      p.step (.run i c) = some p' → ((machine V).resume p').Reach ok q → answers q op r)
    (hp : (machine V).Reach ok p) : ∀ x ∈ p.threads, ∀ q, ((machine V).resume p).Reach ok q →
      x.2.AllIf (answers q) (φ x.1) (Q x.1 q) := by
  induction hp with
  | start hs =>
    obtain ⟨s, -, rfl⟩ := hs
    exact nofun
  | @step p p' l hp hok step ih =>
    have one : ((machine V).resume p).Reach ok p' := .step (.start rfl) hok step
    have before {q : Pool V} (later : ((machine V).resume p').Reach ok q) :
        ((machine V).resume p).Reach ok q := one.resume_trans later
    cases l with
    | spawn t =>
      cases step
      intro x hx q later
      rcases List.mem_append.mp hx with old | new
      · exact ih x old q (before later)
      · rw [List.mem_singleton.mp new]
        exact body p t q hok
    | run i c =>
      obtain ⟨t, op, k, r, s, thread, hr, rfl⟩ := run_cases step
      intro x hx q later
      rcases List.mem_or_eq_of_mem_set hx with old | rfl
      · exact ih x old q (before later)
      · have program := ih _ (List.mem_of_getElem? thread) q (before later)
        exact program.2 r (run p i c t op r s _ q hp hok (next_call thread) hr step later)
    | env e =>
      obtain ⟨s, -, rfl⟩ := env_cases step
      exact fun x hx q later => ih x hx q (before later)

/-! ## Where the contents of the state come from -/

/-- What the state holds was written by some thread. -/
theorem written {Fact : Type} (holds : V.system.State → Fact → Prop) (writes : Op → Fact → Prop)
    (init : ∀ s f, V.init s → ¬ holds s f)
    (exec : ∀ s op c r s' f, V.system.exec s op c = some (r, s') → holds s' f →
      holds s f ∨ writes op f)
    (env : ∀ s e s' f, V.env s e = some s' → holds s' f → holds s f)
    (hp : (machine V).Reach ok p) {f : Fact} (h : holds p.shared f) :
    ∃ x ∈ p.log, writes x.2 f := by
  refine hp.invariant (I := fun p => ∀ f, holds p.shared f → ∃ x ∈ p.log, writes x.2 f)
    ?_ ?_ f h
  · rintro _ ⟨s, hs, rfl⟩ f hf
    exact absurd hf (init s f hs)
  · intro p l p' ih _ step f hf
    cases l with
    | spawn t =>
      cases step
      exact ih f hf
    | run i c =>
      obtain ⟨t, op, k, r, s, -, hr, rfl⟩ := run_cases step
      rcases exec _ _ _ _ _ _ hr hf with old | new
      · obtain ⟨x, hx, w⟩ := ih f old
        exact ⟨x, List.mem_append_left _ hx, w⟩
      · exact ⟨(t, op), by simp, new⟩
    | env e =>
      obtain ⟨s, hs, rfl⟩ := env_cases step
      exact ih f (env _ _ _ _ hs hf)

/-- What happens from `p₀` on: the operations executed since lie in the footprints of their threads,
and what the state holds it held before, or it was written since. -/
theorem since {Fact : Type} {p₀ : Pool V} (φ : Tag → Op → Prop)
    (answers : Tag → (op : Op) → Ret op → Prop)
    (holds : V.system.State → Fact → Prop) (writes : Op → Fact → Prop)
    (old : ∀ x ∈ p₀.threads, x.2.AllIf (answers x.1) (φ x.1) fun _ => True)
    (body : ∀ p t, ok p (.spawn t) → (V.body t).AllIf (answers t) (φ t) fun _ => True)
    (run : ∀ p i c t op r s, ok p (.run i c) → p.next i = some (t, op) →
      V.system.exec p.shared op c = some (r, s) → answers t op r)
    (exec : ∀ s op c r s' f, V.system.exec s op c = some (r, s') → holds s' f →
      holds s f ∨ writes op f)
    (env : ∀ s e s' f, V.env s e = some s' → holds s' f → holds s f)
    (hp : ((machine V).resume p₀).Reach ok p) :
    ∃ later, p.log = p₀.log ++ later ∧ (∀ x ∈ later, φ x.1 x.2) ∧
      ∀ f, holds p.shared f → holds p₀.shared f ∨ ∃ x ∈ later, writes x.2 f := by
  have all : (∀ x ∈ p.threads, x.2.AllIf (answers x.1) (φ x.1) fun _ => True) ∧
      ∃ later, p.log = p₀.log ++ later ∧ (∀ x ∈ later, φ x.1 x.2) ∧
        ∀ f, holds p.shared f → holds p₀.shared f ∨ ∃ x ∈ later, writes x.2 f := by
    induction hp with
    | start same =>
      cases same
      exact ⟨old, [], by simp, nofun, fun _ => .inl⟩
    | @step p p' l _ hok step ih =>
      obtain ⟨threads, later, log, footprint, written⟩ := ih
      cases l with
      | spawn t =>
        cases step
        refine ⟨fun x hx => ?_, later, log, footprint, written⟩
        rcases List.mem_append.mp hx with old | new
        · exact threads x old
        · rw [List.mem_singleton.mp new]
          exact body p t hok
      | run i c =>
        obtain ⟨t, op, k, r, s, thread, hr, rfl⟩ := run_cases step
        obtain ⟨now, rest⟩ := threads _ (List.mem_of_getElem? thread)
        refine ⟨fun x hx => ?_, later ++ [(t, op)], by simp [log], fun x hx => ?_,
          fun f hf => ?_⟩
        · rcases List.mem_or_eq_of_mem_set hx with old | rfl
          · exact threads x old
          · exact rest r (run p i c t op r s hok (next_call thread) hr)
        · rcases List.mem_append.mp hx with old | new
          · exact footprint x old
          · rw [List.mem_singleton.mp new]
            exact now
        · rcases exec _ _ _ _ _ _ hr hf with before | now
          · refine (written f before).imp id ?_
            rintro ⟨x, hx, w⟩
            exact ⟨x, List.mem_append_left _ hx, w⟩
          · exact .inr ⟨(t, op), by simp, now⟩
      | env e =>
        obtain ⟨s, hs, rfl⟩ := env_cases step
        exact ⟨threads, later, log, footprint, fun f hf => written f (env _ _ _ _ hs hf)⟩
  exact all.2

/-! ## Contracts -/

/-- Contracts for all tags over one invariant and one rely condition, which every admitted step
respects, and bodies that meet them. -/
structure Protocol (V : Service Op Ret α Tag Env) (ok : Pool V → PoolLabel V → Prop) where
  contract : Tag → Contract V.system
  inv : V.system.State → Prop
  rely : V.system.State → V.system.State → Prop
  contract_inv : ∀ t, (contract t).inv = inv
  contract_rely : ∀ t, (contract t).rely = rely
  admitted : ∀ p i c t op k, ok p (.run i c) → p.threads[i]? = some (t, .call op k) →
    (contract t).admits p.shared op c
  init : ∀ s, V.init s → inv s
  exec : ∀ t s op c r s', inv s → (contract t).req s op → (contract t).admits s op c →
    V.system.exec s op c = some (r, s') → inv s' ∧ rely s s'
  env : ∀ p e s', ok p (.env e) → inv p.shared → V.env p.shared e = some s' →
    inv s' ∧ rely p.shared s'
  body : ∀ p t, ok p (.spawn t) → inv p.shared →
    Meets (contract t) (fun _ _ => True) (V.body t) p.shared

variable (π : Protocol V ok)

/-- In every reachable pool the invariant holds and every thread still keeps its contract. -/
theorem safe (hp : (machine V).Reach ok p) : π.inv p.shared ∧
    ∀ x ∈ p.threads, Meets (π.contract x.1) (fun _ _ => True) x.2 p.shared := by
  refine hp.invariant (I := fun p => π.inv p.shared ∧
    ∀ x ∈ p.threads, Meets (π.contract x.1) (fun _ _ => True) x.2 p.shared) ?_ ?_
  · rintro _ ⟨s, hs, rfl⟩
    exact ⟨π.init s hs, nofun⟩
  · rintro p l p' ⟨inv, threads⟩ hok step
    cases l with
    | spawn t =>
      cases step
      refine ⟨inv, fun x hx => ?_⟩
      rcases List.mem_append.mp hx with old | new
      · exact threads x old
      · rw [List.mem_singleton.mp new]
        exact π.body p t hok inv
    | run i c =>
      obtain ⟨t, op, k, r, s, thread, hr, rfl⟩ := run_cases step
      have meets := threads _ (List.mem_of_getElem? thread)
      have admits := π.admitted p i c t op k hok thread
      obtain ⟨req, rest⟩ := meets p.shared ((π.contract t).rely_refl _)
        (by rw [π.contract_inv]; exact inv)
      obtain ⟨inv', rely⟩ := π.exec t _ _ _ _ _ inv req admits hr
      refine ⟨inv', fun x hx => ?_⟩
      rcases List.mem_or_eq_of_mem_set hx with old | rfl
      · exact (threads x old).stable (by rw [π.contract_rely]; exact rely)
      · exact rest c r s admits hr
    | env e =>
      obtain ⟨s, hs, rfl⟩ := env_cases step
      obtain ⟨inv', rely⟩ := π.env p e s hok inv hs
      exact ⟨inv', fun x hx => (threads x hx).stable (by rw [π.contract_rely]; exact rely)⟩

/-- The requirement of an operation holds where a thread is about to issue it. -/
theorem safe_next (hp : (machine V).Reach ok p) {i : Nat} {t : Tag} {op : Op}
    {k : Ret op → Prog Op Ret α} (thread : p.threads[i]? = some (t, .call op k)) :
    (π.contract t).req p.shared op := by
  obtain ⟨inv, threads⟩ := safe π hp
  exact (threads _ (List.mem_of_getElem? thread)).next (by rw [π.contract_inv]; exact inv)

/-- What a requirement leaves behind for good holds of every executed operation. -/
theorem safe_log (noted : Tag → Op → V.system.State → Prop)
    (note : ∀ t s op c r s', π.inv s → (π.contract t).req s op → (π.contract t).admits s op c →
      V.system.exec s op c = some (r, s') → noted t op s')
    (keep : ∀ t op s s', noted t op s → π.rely s s' → noted t op s')
    (hp : (machine V).Reach ok p) : ∀ x ∈ p.log, noted x.1 x.2 p.shared := by
  induction hp with
  | start hs =>
    obtain ⟨s, -, rfl⟩ := hs
    exact nofun
  | @step p p' l hp hok step ih =>
    obtain ⟨inv, threads⟩ := safe π hp
    cases l with
    | spawn t =>
      cases step
      exact ih
    | run i c =>
      obtain ⟨t, op, k, r, s, thread, hr, rfl⟩ := run_cases step
      have admits := π.admitted p i c t op k hok thread
      have req := safe_next π hp thread
      obtain ⟨-, rely⟩ := π.exec t _ _ _ _ _ inv req admits hr
      intro x hx
      rcases List.mem_append.mp hx with old | new
      · exact keep _ _ _ _ (ih x old) rely
      · rw [List.mem_singleton.mp new]
        exact note t _ _ _ _ _ inv req admits hr
    | env e =>
      obtain ⟨s, hs, rfl⟩ := env_cases step
      obtain ⟨-, rely⟩ := π.env p e s hok inv hs
      exact fun x hx => keep _ _ _ _ (ih x hx) rely

end Pool
end GenChat.Library
