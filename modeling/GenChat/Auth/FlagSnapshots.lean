import GenChat.Auth.FeatureFlags
import GenChat.Library.Linearizable

/-!
# Snapshots of the feature flags

Although `GetAllFlagsForUser` looks up flag after flag, and takes the lock again for each of them,
its answer is that of one moment: as long as it holds the lock no `SetFlag` writes. So the registry
is linearizable, and a call of it takes effect where it writes, checks a flag or begins its loop.
-/
namespace GenChat.Auth.Features
open Library
open Ledger (Table)

inductive Answer where
  | set
  | enabled (result : Bool)
  | all (res : List (String × Bool))
  deriving DecidableEq

variable (P : Platform)

/-- The registry if one call comes after the other. A choice is an order of the flags. -/
def registry : Spec (Table String FlagConfig) Call (List String) Answer where
  start flags := flags = initDefaults P
  effect flags
    | .setFlag name cfg, _ => some (.set, flags.insert name cfg)
    | .isEnabled flagName userID, _ => some (.enabled (isEnabled P flags flagName userID), flags)
    | .getAllFlagsForUser userID, order =>
      if order.Perm flags.keys then
        some (.all (order.map fun name => (name, isEnabled P flags name userID)), flags)
      else none

def Task.returns : Task → Option Answer
  | .set => some .set
  | .enabled result => some (.enabled result)
  | .all res => some (.all res)
  | _ => none

/-- The calls and the answers that a step shows. -/
def history (s : Server) : Label → List (CallEvent Call Answer)
  | .call c => [.called c]
  | .run i order => ((s.step P (.run i order)).bind fun s' =>
    s'.tasks[i]?.bind Task.returns).toList.map (.returned i)

/-- What the loop is going to return, if the flags stay as they are. -/
def Loop.total (flags : Table String FlagConfig) (l : Loop) : List (String × Bool) :=
  l.res ++ l.rest.map fun name => (name, isEnabled P flags name l.userID)

def Loop.answered (l : Loop) (flagName : String) (result : Bool) : Loop :=
  { l with res := l.res ++ [(flagName, result)] }

/-- How far the call of a task has come. -/
def Task.progress (flags : Table String FlagConfig) : Task → Progress Call Answer
  | .lock name cfg | .acquire name cfg | .write name cfg => .pending (.setFlag name cfg)
  | .unlock | .set => .done .set
  | .rLock none flagName userID | .queued none flagName userID _ | .check none flagName userID =>
    .pending (.isEnabled flagName userID)
  | .rUnlock none _ result | .enabled result => .done (.enabled result)
  | .rLockAll userID | .queuedAll userID _ | .range userID => .pending (.getAllFlagsForUser userID)
  | .rLock (some l) flagName userID | .queued (some l) flagName userID _
  | .check (some l) flagName userID =>
    .done (.all ((l.answered flagName (isEnabled P flags flagName userID)).total P flags))
  | .rUnlock (some l) flagName result => .done (.all ((l.answered flagName result).total P flags))
  | .loop l => .done (.all (l.total P flags))
  | .all res => .done (.all res)

/-! ## Steps -/

variable {P} {s : Server} {r r' : Registry} {t t' : Task} {order : List String}
  {flags flags' : Table String FlagConfig}

/-- A step is an effect of the call or goes unnoticed. -/
theorem run_effect (h : r.run P order t = some (r', t')) :
    (registry P).Moves r.flags (t.progress P r.flags) r'.flags (t'.progress P r'.flags) := by
  cases t with
  | lock name cfg =>
    obtain ⟨mu, -, same⟩ := Option.map_eq_some_iff.mp h
    cases same
    exact .stay _ _
  | acquire name cfg =>
    obtain ⟨mu, -, same⟩ := Option.map_eq_some_iff.mp h
    cases same
    exact .stay _ _
  | write name cfg =>
    cases h
    exact .effect [] rfl
  | unlock =>
    cases h
    exact .stay _ _
  | rLock caller flagName userID =>
    rw [Registry.run] at h
    split at h <;> cases h <;> cases caller <;> exact .stay _ _
  | queued caller flagName userID ticket =>
    rw [Registry.run] at h
    split at h <;> cases h
    cases caller <;> exact .stay _ _
  | check caller flagName userID =>
    cases h
    cases caller with
    | none => exact .effect [] rfl
    | some l => exact .stay _ _
  | rUnlock caller flagName result =>
    cases h
    cases caller <;> exact .stay _ _
  | rLockAll userID =>
    rw [Registry.run] at h
    split at h <;> cases h <;> exact .stay _ _
  | queuedAll userID ticket =>
    rw [Registry.run] at h
    split at h <;> cases h
    exact .stay _ _
  | range userID =>
    rw [Registry.run] at h
    split at h
    · rename_i complete
      cases h
      exact .effect order (if_pos complete)
    · cases h
  | loop l =>
    rw [Registry.run] at h
    split at h
    · rename_i none
      cases h
      have same : (Task.loop l).progress P r.flags = (Task.all l.res).progress P r.flags := by
        simp [Task.progress, Loop.total, none]
      rw [same]
      exact .stay _ _
    · rename_i name rest more
      cases h
      have same : (Task.loop l).progress P r.flags =
          (Task.rLock (some { l with rest := rest }) name l.userID).progress P r.flags := by
        simp [Task.progress, Loop.total, Loop.answered, more]
      rw [same]
      exact .stay _ _
  | set | enabled | all => cases h

/-- Flags change only under the lock. -/
theorem run_flags (h : r.run P order t = some (r', t')) (changed : r'.flags ≠ r.flags) :
    t.stance = .writing := by
  cases t with
  | write => rfl
  | lock | acquire =>
    obtain ⟨mu, -, same⟩ := Option.map_eq_some_iff.mp h
    cases same
    exact absurd rfl changed
  | unlock | check | rUnlock =>
    cases h
    exact absurd rfl changed
  | rLock | queued | rLockAll | queuedAll | range | loop =>
    rw [Registry.run] at h
    split at h <;> cases h <;> exact absurd rfl changed
  | set | enabled | all => cases h

/-- What a task without a read lock is going to return does not depend on the flags. -/
theorem progress_of_reads {rounds : Nat} (h : t.stance.reads rounds = 0) :
    t.progress P flags = t.progress P flags' := by
  cases t with
  | rLock caller | queued caller | check caller | rUnlock caller =>
    cases caller with
    | none => rfl
    | some l => simp [Task.stance, Stance.reads, outer] at h
  | loop => simp [Task.stance, Stance.reads] at h
  | _ => rfl

/-! ## Runs -/

/-- There are no readers while a writer holds the lock. -/
theorem reach_excludes (h : (server P).Reachable s) (holds : s.registry.mu.writer = .holding) :
    s.registry.mu.readers = 0 := by
  refine h.invariant (I := fun s => s.registry.mu.Excludes) ?_ ?_ holds
  · rintro _ rfl ⟨⟩
  · intro s l s' ih _ step
    rcases step_cases step with ⟨c, -, rfl⟩ | ⟨i, order, t, r, t', -, here, ran, rfl⟩
    · exact ih
    · exact (run_moves ran).excludes ih

/-- While a task writes, no other has a read lock. -/
theorem reads_eq_zero {i : Nat} (h : (server P).Reachable s) (here : s.tasks[i]? = some t)
    (writes : t.stance = .writing) (mem : t' ∈ s.tasks) :
    t'.stance.reads s.registry.mu.rounds = 0 := by
  refine (reach_balanced h).reads_eq_zero (reach_excludes h) ?_ (List.mem_map_of_mem mem)
  rw [← writes]
  exact List.mem_map_of_mem (List.mem_of_getElem? here)

variable (P) in
/-- The goroutines as tasks on the registry. -/
def goroutines : Tasks (server P) (history P) Registry Task where
  shared := Server.registry
  tasks := Server.tasks
  begin := Call.begin
  answer := Task.returns
  Runs r t r' t' := ∃ order, r.run P order t = some (r', t')
  start := by
    rintro _ rfl
    rfl
  step s l s' step := by
    rcases step_cases step with ⟨c, rfl, rfl⟩ | ⟨i, order, t, r, t', rfl, here, ran, rfl⟩
    · exact .inl ⟨c, rfl, rfl, rfl⟩
    · obtain ⟨lt, -⟩ := List.getElem?_eq_some_iff.mp here
      refine .inr ⟨i, t, t', ?_, here, ?_, ⟨order, ran⟩, rfl⟩
      · have same : (⟨r, s.tasks.set i t'⟩ : Server).tasks[i]? = some t' :=
          List.getElem?_set_self lt
        have step : s.step P (.run i order) = some ⟨r, s.tasks.set i t'⟩ := step
        rw [history, step, Option.bind_some, same, Option.bind_some]
      · cases t with
        | set | enabled | all => cases ran
        | _ => rfl

/-- Every history of calls and answers is one in which each call is answered at one moment between
its call and its return. -/
theorem registry_linearizable : Linearizable (server P) (history P) (registry P) := by
  suffices simulates : (goroutines P).Simulates (registry P) (fun r flags => r.flags = flags)
      fun _ flags t p => p = t.progress P flags from simulates.linearizable
  refine ⟨?_, ?_, ?_⟩
  · rintro _ rfl
    exact ⟨_, rfl, rfl⟩
  · intro _ _ c
    cases c <;> rfl
  · rintro s i t r t' _ _ reachable here unanswered ⟨order, ran⟩ rfl rfl
    refine ⟨_, _, run_effect ran, rfl, fun _ => rfl, fun answer answered => ?_, ?_⟩
    · cases t' with
      | set | enabled | all =>
        cases answered
        rfl
      | _ => cases answered
    · rintro j u _ - there - rfl
      by_cases changed : r.flags = s.registry.flags
      · rw [changed]
        rfl
      · have writes := run_flags ran changed
        exact progress_of_reads (reads_eq_zero reachable here writes (List.mem_of_getElem? there))

end GenChat.Auth.Features
