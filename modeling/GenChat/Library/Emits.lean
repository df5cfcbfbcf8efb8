import GenChat.Library.Machine

/-!
# What runs put out

`Emits out s ws` says that some run leads to `s` and that its steps, in their order, have put out
`ws`. It is for statements about all that has happened, where the state alone has forgotten it.
-/
namespace GenChat.Library.Machine

variable {State Label W : Type} (M : Machine State Label) (out : State → Label → List W)

inductive Emits : State → List W → Prop where
  | start {s : State} : M.start s → Emits s []
  | step {s t : State} {l : Label} {ws : List W} : Emits s ws → M.step s l = some t →
      Emits t (ws ++ out s l)

variable {M out}

theorem Emits.reachable {s : State} {ws : List W} (h : M.Emits out s ws) : M.Reachable s := by
  induction h with
  | start hs => exact .start hs
  | step _ hstep ih => exact ih.step trivial hstep

/-- Induction over a run and its output. -/
theorem Emits.invariant {I : State → List W → Prop} (init : ∀ s, M.start s → I s [])
    (preserved : ∀ s l t ws, I s ws → M.step s l = some t → I t (ws ++ out s l))
    {s : State} {ws : List W} (h : M.Emits out s ws) : I s ws := by
  induction h with
  | start hs => exact init _ hs
  | step _ hstep ih => exact preserved _ _ _ _ ih hstep

/-- A part of the output is the output of the same run, if each step puts out that part. -/
theorem Emits.filterMap {V : Type} {part : State → Label → List V} (f : W → Option V)
    (parts : ∀ s l t, M.step s l = some t → (out s l).filterMap f = part s l)
    {s : State} {ws : List W} (h : M.Emits out s ws) : M.Emits part s (ws.filterMap f) := by
  induction h with
  | start hs => exact .start hs
  | step _ hstep ih =>
    rw [List.filterMap_append, parts _ _ _ hstep]
    exact ih.step hstep

variable (M out) in
/-- Run a list of labels and collect what they put out. -/
def collect : State → List Label → Option (State × List W)
  | s, [] => some (s, [])
  | s, l :: ls => (M.step s l).bind fun t => (collect t ls).map fun r => (r.1, out s l ++ r.2)

theorem Emits.collect {s t : State} {ws more : List W} {ls : List Label} (h : M.Emits out s ws)
    (run : M.collect out s ls = some (t, more)) : M.Emits out t (ws ++ more) := by
  induction ls generalizing s ws more with
  | nil =>
    cases run
    simpa using h
  | cons l ls ih =>
    obtain ⟨u, hu, rest⟩ := Option.bind_eq_some_iff.mp run
    obtain ⟨⟨t', later⟩, hr, eq⟩ := Option.map_eq_some_iff.mp rest
    cases eq
    have next := ih (h.step hu) hr
    rwa [List.append_assoc] at next

end GenChat.Library.Machine
