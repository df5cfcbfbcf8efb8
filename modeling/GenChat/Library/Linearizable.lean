import GenChat.Library.Emits
import GenChat.Library.Phases

/-!
# Objects that many call at once

A `Spec` says what an object does if one call comes after the other. In its machine each call takes
effect in one step, at some time between the call and the return. A machine is linearizable if
every history of calls and returns that it shows is one of the specification. For a machine whose
tasks take turns on a shared state, `Simulates` asks of each step of a task that it is the
effect of the task's call, or none, and that the other tasks do not notice.
-/
namespace GenChat.Library

/-- A choice settles what the specification leaves open. -/
structure Spec (Object Call Choice Answer : Type) where
  start : Object → Prop
  effect : Object → Call → Choice → Option (Answer × Object)

theorem Machine.collect_append {State Label W : Type} {M : Machine State Label}
    {out : State → Label → List W} {s t u : State} {ls ls' : List Label} {ws ws' : List W}
    (first : M.collect out s ls = some (t, ws)) (second : M.collect out t ls' = some (u, ws')) :
    M.collect out s (ls ++ ls') = some (u, ws ++ ws') := by
  induction ls generalizing s ws with
  | nil =>
    cases first
    exact second
  | cons l ls ih =>
    obtain ⟨v, step, rest⟩ := Option.bind_eq_some_iff.mp first
    obtain ⟨⟨t', ws'⟩, ran, same⟩ := Option.map_eq_some_iff.mp rest
    cases same
    simp [Machine.collect, step, ih ran]

/-- Calls are numbered in the order in which they are made. -/
inductive CallEvent (Call Answer : Type) where
  | called (c : Call)
  | returned (i : Nat) (answer : Answer)
  deriving DecidableEq

inductive Progress (Call Answer : Type) where
  | pending (c : Call)
  | done (answer : Answer)
  | returned

namespace Spec
variable {Object Call Choice Answer : Type} (S : Spec Object Call Choice Answer)

structure State (Object Call Answer : Type) where
  object : Object
  calls : List (Progress Call Answer)

inductive Label (Call Choice : Type) where
  | call (c : Call)
  | effect (i : Nat) (choice : Choice)
  | reply (i : Nat)

def step (s : State Object Call Answer) : Label Call Choice → Option (State Object Call Answer)
  | .call c => some { s with calls := s.calls ++ [.pending c] }
  | .effect i choice =>
    match s.calls[i]? with
    | some (.pending c) => (S.effect s.object c choice).map fun r =>
      ⟨r.2, s.calls.set i (.done r.1)⟩
    | _ => none
  | .reply i =>
    match s.calls[i]? with
    | some (.done _) => some { s with calls := s.calls.set i .returned }
    | _ => none

/-- What is seen of a step. -/
def history (s : State Object Call Answer) : Label Call Choice → List (CallEvent Call Answer)
  | .call c => [.called c]
  | .effect _ _ => []
  | .reply i =>
    match s.calls[i]? with
    | some (.done answer) => [.returned i answer]
    | _ => []

def machine : Machine (State Object Call Answer) (Label Call Choice) where
  start s := S.start s.object ∧ s.calls = []
  step := S.step

/-- A step of a task as the specification sees it: the effect of the call, or none. -/
inductive Moves : Object → Progress Call Answer → Object → Progress Call Answer → Prop where
  | stay (x : Object) (p : Progress Call Answer) : Moves x p x p
  | effect {x y : Object} {c : Call} {answer : Answer} (choice : Choice) :
      S.effect x c choice = some (answer, y) → Moves x (.pending c) y (.done answer)

end Spec

variable {State Label Object Call Choice Answer Shared Task : Type}

/-- Every history is one of the specification. -/
def Linearizable (M : Machine State Label) (history : State → Label → List (CallEvent Call Answer))
    (S : Spec Object Call Choice Answer) : Prop :=
  ∀ s events, M.Emits history s events → ∃ x, S.machine.Emits Spec.history x events

/-- A machine as tasks that take turns on a shared state. -/
structure Tasks (M : Machine State Label) (history : State → Label → List (CallEvent Call Answer))
    (Shared Task : Type) where
  shared : State → Shared
  tasks : State → List Task
  begin : Call → Task
  answer : Task → Option Answer
  /-- The steps of one task. -/
  Runs : Shared → Task → Shared → Task → Prop
  start : ∀ s, M.start s → tasks s = []
  step : ∀ s l s', M.step s l = some s' →
    (∃ c, history s l = [.called c] ∧ shared s' = shared s ∧ tasks s' = tasks s ++ [begin c]) ∨
    ∃ (i : Nat) (t t' : Task), history s l = (answer t').toList.map (.returned i) ∧
      (tasks s)[i]? = some t ∧ answer t = none ∧ Runs (shared s) t (shared s') t' ∧
      tasks s' = (tasks s).set i t'

section Rule
variable {M : Machine State Label} {history : State → Label → List (CallEvent Call Answer)}
  (T : Tasks M history Shared Task) (S : Spec Object Call Choice Answer)

/-- `agrees` relates the shared state to the object, and `fits` a task to how far its call is. -/
structure Tasks.Simulates (agrees : Shared → Object → Prop)
    (fits : Shared → Object → Task → Progress Call Answer → Prop) : Prop where
  start : ∀ s, M.start s → ∃ x, S.start x ∧ agrees (T.shared s) x
  call : ∀ s x c, fits s x (T.begin c) (.pending c)
  run : ∀ s (i : Nat) t r t' x p, M.Reachable s → (T.tasks s)[i]? = some t → T.answer t = none →
    T.Runs (T.shared s) t r t' → agrees (T.shared s) x → fits (T.shared s) x t p →
    ∃ x' p', S.Moves x p x' p' ∧ agrees r x' ∧ (T.answer t' = none → fits r x' t' p') ∧
      (∀ answer, T.answer t' = some answer → p' = .done answer) ∧
      ∀ (j : Nat) u q, j ≠ i → (T.tasks s)[j]? = some u → T.answer u = none →
        fits (T.shared s) x u q → fits r x' u q

/-- The tasks and the calls of the specification go together. -/
structure Tasks.Matches (agrees : Shared → Object → Prop)
    (fits : Shared → Object → Task → Progress Call Answer → Prop) (s : State)
    (x : Spec.State Object Call Answer) : Prop where
  reachable : M.Reachable s
  agrees : agrees (T.shared s) x.object
  length : x.calls.length = (T.tasks s).length
  fits : ∀ (i : Nat) t p, (T.tasks s)[i]? = some t → x.calls[i]? = some p → T.answer t = none →
    fits (T.shared s) x.object t p

variable {T S} {agrees : Shared → Object → Prop}
  {fits : Shared → Object → Task → Progress Call Answer → Prop}
  {s s' : State} {l : Label} {x : Spec.State Object Call Answer}

theorem Tasks.Matches.call {c : Call} (sim : T.Simulates S agrees fits)
    (h : T.Matches agrees fits s x) (step : M.step s l = some s')
    (shared : T.shared s' = T.shared s) (tasks : T.tasks s' = T.tasks s ++ [T.begin c]) :
    T.Matches agrees fits s' { x with calls := x.calls ++ [.pending c] } where
  reachable := h.reachable.step trivial step
  agrees := by
    rw [shared]
    exact h.agrees
  length := by simp [tasks, h.length]
  fits i t p there here unanswered := by
    rw [tasks] at there
    rw [shared]
    by_cases old : i < (T.tasks s).length
    · rw [List.getElem?_append_left old] at there
      rw [List.getElem?_append_left (h.length ▸ old)] at here
      exact h.fits i t p there here unanswered
    · obtain ⟨lt, -⟩ := List.getElem?_eq_some_iff.mp there
      have last : i = (T.tasks s).length := by
        simp only [List.length_append, List.length_singleton] at lt
        omega
      rw [last, List.getElem?_concat_length] at there
      rw [last, ← h.length, List.getElem?_concat_length] at here
      cases there
      cases here
      exact sim.call _ _ c

/-- A step of a task is at most one effect, followed by the return if there is an answer. -/
theorem Tasks.Matches.run {i : Nat} {t t' : Task} (sim : T.Simulates S agrees fits)
    (h : T.Matches agrees fits s x) (step : M.step s l = some s')
    (there : (T.tasks s)[i]? = some t) (unanswered : T.answer t = none)
    (ran : T.Runs (T.shared s) t (T.shared s') t') (tasks : T.tasks s' = (T.tasks s).set i t') :
    ∃ ls x', S.machine.collect Spec.history x ls =
      some (x', (T.answer t').toList.map (.returned i)) ∧ T.Matches agrees fits s' x' := by
  obtain ⟨lt, -⟩ := List.getElem?_eq_some_iff.mp there
  have lt' : i < x.calls.length := h.length ▸ lt
  obtain ⟨p, here⟩ : ∃ p, x.calls[i]? = some p := ⟨_, List.getElem?_eq_getElem lt'⟩
  obtain ⟨y, p', effect, agrees', fits', answered, others⟩ :=
    sim.run s i t _ t' x.object p h.reachable there unanswered ran h.agrees
      (h.fits i t p there here unanswered)
  -- The calls are as before, except for this one.
  have kept (p'' : Progress Call Answer) (same : T.answer t' = none → p'' = p') :
      T.Matches agrees fits s' ⟨y, x.calls.set i p''⟩ := by
    refine ⟨h.reachable.step trivial step, agrees', by simp [tasks, h.length], ?_⟩
    intro j u q there' here' unanswered'
    rw [tasks] at there'
    rcases getElem?_set_cases there' with ⟨rfl, rfl⟩ | ⟨ne, old⟩
    · have here' : (x.calls.set j p'')[j]? = some q := here'
      rw [List.getElem?_set_self lt'] at here'
      cases here'
      exact same unanswered' ▸ fits' unanswered'
    · have here' : (x.calls.set i p'')[j]? = some q := here'
      rw [List.getElem?_set_ne ne.symm] at here'
      exact others j u q ne old unanswered' (h.fits j u q old here' unanswered')
  have moves : ∃ ls, S.machine.collect Spec.history x ls = some (⟨y, x.calls.set i p'⟩, []) := by
    cases effect with
    | stay =>
      refine ⟨[], ?_⟩
      rw [← (List.getElem?_eq_some_iff.mp here).2, List.set_getElem_self]
      rfl
    | effect choice effect =>
      refine ⟨[.effect i choice], ?_⟩
      simp [Machine.collect, Spec.machine, Spec.step, Spec.history, here, effect]
  obtain ⟨ls, moved⟩ := moves
  cases done : T.answer t' with
  | none => exact ⟨ls, _, moved, kept p' fun _ => rfl⟩
  | some answer =>
    obtain rfl := answered answer done
    refine ⟨ls ++ [.reply i], _, ?_, kept .returned fun none => ?_⟩
    · refine Machine.collect_append moved ?_
      simp [Machine.collect, Spec.machine, Spec.step, Spec.history, lt']
    · rw [done] at none
      cases none

/-- Tasks whose steps are effects of their calls are linearizable. -/
theorem Tasks.Simulates.linearizable (sim : T.Simulates S agrees fits) :
    Linearizable M history S := by
  intro s events run
  suffices ∃ x, S.machine.Emits Spec.history x events ∧ T.Matches agrees fits s x from
    this.imp fun _ => And.left
  induction run with
  | start started =>
    obtain ⟨x, first, agree⟩ := sim.start _ started
    have none := T.start _ started
    refine ⟨⟨x, []⟩, .start ⟨first, rfl⟩, .start started, agree, by simp [none], ?_⟩
    intro i t p there
    rw [none] at there
    cases there
  | step _ step ih =>
    obtain ⟨x, emits, ih⟩ := ih
    rcases T.step _ _ _ step with ⟨c, seen, shared, tasks⟩ |
      ⟨i, t, t', seen, there, unanswered, ran, tasks⟩
    · rw [seen]
      exact ⟨_, emits.step (l := .call c) rfl, ih.call sim step shared tasks⟩
    · obtain ⟨ls, x', moved, next⟩ := ih.run sim step there unanswered ran tasks
      rw [seen]
      exact ⟨x', emits.collect moved, next⟩

end Rule

end GenChat.Library
