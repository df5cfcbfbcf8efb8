import GenChat.Library.Concurrent

/-!
# What the threads of a pool return

`Pool.safe_returns` carries a postcondition of each program to the results in a pool.
`Pool.one_winner` is about races: many threads may try, but an answer that lets one of them win is
given at most once, because it closes the race for good.
-/
namespace GenChat.Library.Pool

variable {Op : Type} {Ret : Op → Type} {α Tag Env : Type} {V : Service Op Ret α Tag Env}
  {ok : Pool V → PoolLabel V → Prop} {p : Pool V}

/-! ## Postconditions -/

section Returns
variable (π : Protocol V ok) (Q : Tag → α → V.system.State → Prop)

/-- Programs that meet their contracts with a postcondition still do so in a reachable pool. -/
theorem safe_meets
    (body : ∀ p t, ok p (.spawn t) → π.inv p.shared →
      Meets (π.contract t) (Q t) (V.body t) p.shared)
    (hp : (machine V).Reach ok p) :
    ∀ x ∈ p.threads, Meets (π.contract x.1) (Q x.1) x.2 p.shared := by
  induction hp with
  | start hs =>
    obtain ⟨s, -, rfl⟩ := hs
    exact nofun
  | @step p p' l hp hok step ih =>
    obtain ⟨inv, -⟩ := safe π hp
    cases l with
    | spawn t =>
      cases step
      intro x hx
      rcases List.mem_append.mp hx with old | new
      · exact ih x old
      · rw [List.mem_singleton.mp new]
        exact body p t hok inv
    | run i c =>
      obtain ⟨t, op, k, r, s, thread, hr, rfl⟩ := run_cases step
      have meets := ih _ (List.mem_of_getElem? thread)
      have admits := π.admitted p i c t op k hok thread
      obtain ⟨req, rest⟩ := meets p.shared ((π.contract t).rely_refl _)
        (by rw [π.contract_inv]; exact inv)
      obtain ⟨-, rely⟩ := π.exec t _ _ _ _ _ inv req admits hr
      intro x hx
      rcases List.mem_or_eq_of_mem_set hx with old | rfl
      · exact (ih x old).stable (by rw [π.contract_rely]; exact rely)
      · exact rest c r s admits hr
    | env e =>
      obtain ⟨s, hs, rfl⟩ := env_cases step
      obtain ⟨-, rely⟩ := π.env p e s hok inv hs
      exact fun x hx => (ih x hx).stable (by rw [π.contract_rely]; exact rely)

/-- What a thread has returned satisfies its postcondition. -/
theorem safe_returns
    (body : ∀ p t, ok p (.spawn t) → π.inv p.shared →
      Meets (π.contract t) (Q t) (V.body t) p.shared)
    (hp : (machine V).Reach ok p) {t : Tag} {a : α} (h : (t, .pure a) ∈ p.threads) :
    Q t a p.shared := by
  have meets := safe_meets π Q body hp _ h
  exact meets p.shared ((π.contract t).rely_refl _) (by rw [π.contract_inv]; exact (safe π hp).1)

end Returns

/-! ## Races -/

section Race
variable (wins : (op : Op) → Ret op → Prop) (success : Tag → α → Prop)

/-- Unless an answer lets it win, the program does not succeed. -/
def Open (t : Tag) (program : Prog Op Ret α) : Prop :=
  program.AllIf (fun op r => ¬ wins op r) (fun _ => True) fun a => ¬ success t a

/-- A program that cannot succeed has not won. -/
theorem Open.of_failing {t : Tag} (h : ∀ a, ¬ success t a) (program : Prog Op Ret α) :
    Open wins success t program :=
  Prog.AllIf.mono (fun _ _ _ => trivial) (fun _ => id) (fun a _ => h a) (Prog.all_true _).allIf

/-- A winning answer is given while the race is open, and closes it. -/
structure Race (ok : Pool V → PoolLabel V → Prop) (closed : V.system.State → Prop) : Prop where
  body : ∀ t, Open wins success t (V.body t)
  won : ∀ p i c t op r s, (machine V).Reach ok p → ok p (.run i c) → p.next i = some (t, op) →
    V.system.exec p.shared op c = some (r, s) → wins op r → ¬ closed p.shared ∧ closed s
  kept : ∀ p l q, (machine V).Reach ok p → ok p l → p.step l = some q →
    closed p.shared → closed q.shared

variable {wins success} {closed : V.system.State → Prop}

/-- Whoever has won has closed the race, and has won alone. -/
theorem Race.alone (race : Race wins success ok closed) (hp : (machine V).Reach ok p) :
    (∀ x ∈ p.threads, ¬ Open wins success x.1 x.2 → closed p.shared) ∧
    ∀ (i j : Nat) (x y : Tag × Prog Op Ret α), p.threads[i]? = some x → p.threads[j]? = some y →
      ¬ Open wins success x.1 x.2 → ¬ Open wins success y.1 y.2 → i = j := by
  induction hp with
  | start hs =>
    obtain ⟨s, -, rfl⟩ := hs
    exact ⟨nofun, fun i j x y hx => by simp [start] at hx⟩
  | @step p p' l hp hok step ih =>
    obtain ⟨decided, alone⟩ := ih
    have kept := race.kept p l p' hp hok step
    cases l with
    | spawn t =>
      cases step
      refine ⟨fun x hx won => ?_, fun i j x y hx hy wonx wony => ?_⟩
      · rcases List.mem_append.mp hx with old | new
        · exact kept (decided x old won)
        · rw [List.mem_singleton.mp new] at won
          exact absurd (race.body t) won
      · have old {i : Nat} {x : Tag × Prog Op Ret α}
            (hx : (p.threads ++ [(t, V.body t)])[i]? = some x)
            (won : ¬ Open wins success x.1 x.2) : p.threads[i]? = some x := by
          by_cases lt : i < p.threads.length
          · rwa [List.getElem?_append_left lt] at hx
          · rw [List.getElem?_append_right (not_lt.mp lt)] at hx
            rw [List.mem_singleton.mp (List.mem_of_getElem? hx)] at won
            exact absurd (race.body t) won
        exact alone i j x y (old hx wonx) (old hy wony) wonx wony
    | run n c =>
      obtain ⟨t, op, k, r, s, thread, hr, rfl⟩ := run_cases step
      have here := List.mem_of_getElem? thread
      by_cases win : wins op r
      · -- Nobody has won before, so whoever has won now is the thread that ran.
        obtain ⟨free, shut⟩ := race.won p n c t op r s hp hok (next_call thread) hr win
        have only {i : Nat} {x : Tag × Prog Op Ret α} (hx : (p.threads.set n (t, k r))[i]? = some x)
            (won : ¬ Open wins success x.1 x.2) : i = n := by
          by_contra other
          rw [List.getElem?_set_ne (Ne.symm other)] at hx
          exact free (decided x (List.mem_of_getElem? hx) won)
        exact ⟨fun _ _ _ => shut, fun i j x y hx hy wonx wony =>
          (only hx wonx).trans (only hy wony).symm⟩
      · have before {i : Nat} {x : Tag × Prog Op Ret α}
            (hx : (p.threads.set n (t, k r))[i]? = some x) (won : ¬ Open wins success x.1 x.2) :
            ∃ y, p.threads[i]? = some y ∧ ¬ Open wins success y.1 y.2 := by
          by_cases same : i = n
          · subst same
            rw [List.getElem?_set_self (List.getElem?_eq_some_iff.mp thread).1] at hx
            cases hx
            exact ⟨_, thread, fun open' => won (open'.2 r win)⟩
          · rw [List.getElem?_set_ne (Ne.symm same)] at hx
            exact ⟨x, hx, won⟩
        refine ⟨fun x hx won => ?_, fun i j x y hx hy wonx wony => ?_⟩
        · obtain ⟨i, hi⟩ := List.mem_iff_getElem?.mp hx
          obtain ⟨y, hy, wony⟩ := before hi won
          exact kept (decided y (List.mem_of_getElem? hy) wony)
        · obtain ⟨x', hx', wonx'⟩ := before hx wonx
          obtain ⟨y', hy', wony'⟩ := before hy wony
          exact alone i j x' y' hx' hy' wonx' wony'
    | env e =>
      obtain ⟨s, hs, rfl⟩ := env_cases step
      exact ⟨fun x hx won => kept (decided x hx won), alone⟩

/-- At most one thread succeeds. -/
theorem Race.one_winner (race : Race wins success ok closed)
    (hp : (machine V).Reach ok p) {i j : Nat} {t t' : Tag} {a a' : α}
    (hi : p.threads[i]? = some (t, .pure a)) (hj : p.threads[j]? = some (t', .pure a'))
    (ha : success t a) (ha' : success t' a') : i = j :=
  (race.alone hp).2 i j _ _ hi hj (fun lost => lost ha) fun lost => lost ha'

end Race

end GenChat.Library.Pool
