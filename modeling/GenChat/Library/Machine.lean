import Mathlib.Tactic

/-!
# Labelled machines and their runs

A machine has start states and a partial step function. A label carries every choice of the
environment (who moves, with which random values, which call fails), so a run is determined by
its labels. `Reach ok` collects the states of the runs all of whose steps meet `ok`, a condition
on the state before the step and the label taken there; `Reachable` imposes no condition.
-/
namespace GenChat.Library

structure Machine (State Label : Type) where
  start : State → Prop
  step : State → Label → Option State

namespace Machine
variable {State Label : Type} (M : Machine State Label)

/-- The states of runs whose steps all meet `ok`. -/
inductive Reach (ok : State → Label → Prop) : State → Prop where
  | start {s : State} : M.start s → Reach ok s
  | step {s t : State} {l : Label} : Reach ok s → ok s l → M.step s l = some t → Reach ok t

abbrev Reachable : State → Prop := M.Reach fun _ _ => True

variable {M}

/-- Induction over a run: an invariant of the start states that every admitted step preserves. -/
theorem Reach.invariant {ok : State → Label → Prop} {I : State → Prop}
    (init : ∀ s, M.start s → I s)
    (preserved : ∀ s l t, I s → ok s l → M.step s l = some t → I t)
    {s : State} (h : M.Reach ok s) : I s := by
  induction h with
  | start hs => exact init _ hs
  | step _ hok hstep ih => exact preserved _ _ _ ih hok hstep

theorem Reach.mono {ok ok' : State → Label → Prop} (imp : ∀ s l, ok s l → ok' s l) {s : State}
    (h : M.Reach ok s) : M.Reach ok' s := by
  induction h with
  | start hs => exact .start hs
  | step _ hok hstep ih => exact ih.step (imp _ _ hok) hstep

theorem Reach.reachable {ok : State → Label → Prop} {s : State} (h : M.Reach ok s) :
    M.Reachable s := h.mono fun _ _ _ => trivial

/-- The guard of a step may use anything that holds along the run. -/
theorem Reach.strengthen {ok : State → Label → Prop} {I : State → Prop}
    (inv : ∀ s, M.Reach ok s → I s) {s : State} (h : M.Reach ok s) :
    M.Reach (fun s l => ok s l ∧ I s) s := by
  induction h with
  | start hs => exact .start hs
  | step hr hok hstep ih => exact ih.step ⟨hok, inv _ hr⟩ hstep

/-- The machine that goes on from one state. -/
def resume (M : Machine State Label) (s : State) : Machine State Label := ⟨(· = s), M.step⟩

theorem Reach.of_resume {ok : State → Label → Prop} {s t : State} (hs : M.Reachable s)
    (h : (M.resume s).Reach ok t) : M.Reachable t := by
  induction h with
  | start same => exact same ▸ hs
  | step _ _ hstep ih => exact ih.step trivial hstep

theorem Reach.resume_trans {ok : State → Label → Prop} {s t u : State}
    (h : (M.resume s).Reach ok t) (h' : (M.resume t).Reach ok u) : (M.resume s).Reach ok u := by
  induction h' with
  | start same => exact same ▸ h
  | step _ hok hstep ih => exact ih.step hok hstep

section Follow
variable (M) (ok : State → Label → Prop) [∀ s l, Decidable (ok s l)]

/-- Run a list of labels, stopping at a step that is disabled or not admitted. -/
def follow : State → List Label → Option State
  | s, [] => some s
  | s, l :: ls => if ok s l then (M.step s l).bind fun t => follow t ls else none

variable {M ok}

theorem Reach.follow {s t : State} (h : M.Reach ok s) {ls : List Label}
    (run : M.follow ok s ls = some t) : M.Reach ok t := by
  induction ls generalizing s with
  | nil => cases run; exact h
  | cons l ls ih =>
    simp only [Machine.follow] at run
    split at run
    case isFalse => cases run
    case isTrue hok =>
      obtain ⟨u, hu, rest⟩ := Option.bind_eq_some_iff.mp run
      exact ih (h.step hok hu) rest

end Follow

end Machine
end GenChat.Library
