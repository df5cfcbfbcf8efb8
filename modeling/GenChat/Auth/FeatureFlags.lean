import GenChat.Library.RWMutex
import GenChat.Ledger.Store

/-!
# The feature registry

`flags.go`. Calls run as tasks that share one `sync.RWMutex`. `GetAllFlagsForUser` holds it for
reading and calls `IsEnabled` for each flag, which takes it for reading again; a `SetFlag` that
gets into line in between waits for the first lock, and the second one waits for `SetFlag`.
-/
namespace GenChat.Auth.Features
open Library
open Ledger (Table)

/-! ## Flags -/

structure FlagConfig where
  name : String
  enabled : Bool
  percentage : Int
  whitelisted : List String
  blacklisted : List String
  deriving DecidableEq

/-- Packages of the standard library, and the environment with the fallbacks `true` and `100`. -/
structure Platform where
  sum256 : List UInt8 → List UInt8
  equalFold : String → String → Bool
  getEnvBool : String → Bool
  getEnvInt : String → Int

variable (P : Platform)

def defaultFlag (name enabledKey percentageKey : String) : FlagConfig :=
  ⟨name, P.getEnvBool enabledKey, P.getEnvInt percentageKey, [], []⟩

/-- `initDefaults` on an empty map. -/
def initDefaults : Table String FlagConfig :=
  ((((∅ : Table String FlagConfig).insert "device_linking" (defaultFlag P "device_linking"
      "FEATURE_DEVICE_LINKING_ENABLED" "FEATURE_DEVICE_LINKING_PERCENTAGE")).insert
    "group_calling" (defaultFlag P "group_calling"
      "FEATURE_GROUP_CALLING_ENABLED" "FEATURE_GROUP_CALLING_PERCENTAGE")).insert
    "ai_summary" (defaultFlag P "ai_summary"
      "FEATURE_AI_SUMMARY_ENABLED" "FEATURE_AI_SUMMARY_PERCENTAGE")).insert
    "protobuf_wire" (defaultFlag P "protobuf_wire"
      "FEATURE_PROTOBUF_WIRE_ENABLED" "FEATURE_PROTOBUF_WIRE_PERCENTAGE")

/-- `binary.BigEndian.Uint32(h[:4]) % 100` for the hash of the flag and the user. -/
def bucket (flagName userID : String) : Nat :=
  let h := P.sum256 (flagName ++ ":" ++ userID).toUTF8.data.toList
  ((h.take 4).foldl (fun n b => n * 256 + b.toNat) 0) % 100

/-- The body of `IsEnabled` under the lock. -/
def isEnabled (flags : Table String FlagConfig) (flagName userID : String) : Bool :=
  match flags.lookup flagName with
  | none => false
  | some flag =>
    if !flag.enabled then false
    else if flag.blacklisted.any (P.equalFold · userID) then false
    else if flag.whitelisted.any (P.equalFold · userID) then true
    else if 100 ≤ flag.percentage then true
    else if flag.percentage ≤ 0 then false
    else if userID = "" then false
    else (bucket P flagName userID : Int) < flag.percentage

/-! ## Calls -/

structure Registry where
  mu : RWMutex
  flags : Table String FlagConfig

inductive Call where
  | setFlag (name : String) (cfg : FlagConfig)
  | isEnabled (flagName userID : String)
  | getAllFlagsForUser (userID : String)

/-- A `GetAllFlagsForUser` in its loop. -/
structure Loop where
  userID : String
  rest : List String
  res : List (String × Bool)
  deriving DecidableEq

/-- Where a call stands. A call of `IsEnabled` knows the loop that it was made from. -/
inductive Task where
  | lock (name : String) (cfg : FlagConfig)
  | acquire (name : String) (cfg : FlagConfig)
  | write (name : String) (cfg : FlagConfig)
  | unlock
  | rLock (caller : Option Loop) (flagName userID : String)
  | queued (caller : Option Loop) (flagName userID : String) (ticket : Nat)
  | check (caller : Option Loop) (flagName userID : String)
  | rUnlock (caller : Option Loop) (flagName : String) (result : Bool)
  | rLockAll (userID : String)
  | queuedAll (userID : String) (ticket : Nat)
  | range (userID : String)
  | loop (l : Loop)
  | set
  | enabled (result : Bool)
  | all (res : List (String × Bool))

def Call.begin : Call → Task
  | .setFlag name cfg => .lock name cfg
  | .isEnabled flagName userID => .rLock none flagName userID
  | .getAllFlagsForUser userID => .rLockAll userID

def Task.finished : Task → Bool
  | .set | .enabled _ | .all _ => true
  | _ => false

/-- `IsEnabled` returns to the loop or to the caller. -/
def Task.answer (result : Bool) (flagName : String) : Option Loop → Task
  | none => .enabled result
  | some l => .loop { l with res := l.res ++ [(flagName, result)] }

/-- The next step of a task; `order` is the order in which the map is walked through. -/
def Registry.run (s : Registry) (order : List String) : Task → Option (Registry × Task)
  | .lock name cfg => s.mu.lock.map fun mu => ({ s with mu := mu }, .acquire name cfg)
  | .acquire name cfg => s.mu.acquire.map fun mu => ({ s with mu := mu }, .write name cfg)
  | .write name cfg => some ({ s with flags := s.flags.insert name cfg }, .unlock)
  | .unlock => some ({ s with mu := s.mu.unlock }, .set)
  | .rLock caller flagName userID =>
    match s.mu.rLock with
    | (mu, none) => some ({ s with mu := mu }, .check caller flagName userID)
    | (mu, some ticket) => some ({ s with mu := mu }, .queued caller flagName userID ticket)
  | .queued caller flagName userID ticket =>
    if s.mu.admits ticket then some (s, .check caller flagName userID) else none
  | .check caller flagName userID =>
    some (s, .rUnlock caller flagName (isEnabled P s.flags flagName userID))
  | .rUnlock caller flagName result =>
    some ({ s with mu := s.mu.rUnlock }, .answer result flagName caller)
  | .rLockAll userID =>
    match s.mu.rLock with
    | (mu, none) => some ({ s with mu := mu }, .range userID)
    | (mu, some ticket) => some ({ s with mu := mu }, .queuedAll userID ticket)
  | .queuedAll userID ticket => if s.mu.admits ticket then some (s, .range userID) else none
  | .range userID => if order.Perm s.flags.keys then some (s, .loop ⟨userID, order, []⟩) else none
  | .loop l =>
    match l.rest with
    | [] => some ({ s with mu := s.mu.rUnlock }, .all l.res)
    | name :: rest => some (s, .rLock (some { l with rest := rest }) name l.userID)
  | .set | .enabled _ | .all _ => none

structure Server where
  registry : Registry
  tasks : List Task

inductive Label where
  | call (c : Call)
  | run (i : Nat) (order : List String)

def Server.step (s : Server) : Label → Option Server
  | .call c => some { s with tasks := s.tasks ++ [c.begin] }
  | .run i order => s.tasks[i]?.bind fun t =>
    (s.registry.run P order t).map fun r => ⟨r.1, s.tasks.set i r.2⟩

/-- Goroutines call the registry that `NewRegistry` made. -/
def server : Machine Server Label where
  start s := s = ⟨⟨.fresh, initDefaults P⟩, []⟩
  step := Server.step P

/-! ## The lock and its tasks -/

/-- The read lock of the loop that made the call. -/
def outer : Option Loop → Nat
  | none => 0
  | some _ => 1

def Task.stance : Task → Stance
  | .lock _ _ => .asking
  | .acquire _ _ => .waiting
  | .write _ _ | .unlock => .writing
  | .rLock caller _ _ => .free (outer caller)
  | .queued caller _ _ ticket => .queued (outer caller) ticket
  | .check caller _ _ | .rUnlock caller _ _ => .free (outer caller + 1)
  | .rLockAll _ => .free 0
  | .queuedAll _ ticket => .queued 0 ticket
  | .range _ | .loop _ => .free 1
  | .set | .enabled _ | .all _ => .finished

/-- There are calls that have not returned, and none of them can go on. -/
def Server.Stuck (s : Server) : Prop :=
  (∃ t ∈ s.tasks, t.finished = false) ∧
    ∀ (i : Nat) t, s.tasks[i]? = some t → t.finished = false →
      ∀ order, s.step P (.run i order) = none

/-- The task holds the lock for reading and has a flag left to look up. -/
def Task.rereads (rounds : Nat) : Task → Prop
  | .queuedAll _ ticket => ticket < rounds
  | .range _ => True
  | .loop l => l.rest ≠ []
  | .rLock (some _) _ _ | .queued (some _) _ _ _ => True
  | .check (some l) _ _ | .rUnlock (some l) _ _ => l.rest ≠ []
  | _ => False

instance (rounds : Nat) : ∀ t : Task, Decidable (t.rereads rounds)
  | .queuedAll _ ticket => inferInstanceAs (Decidable (ticket < rounds))
  | .loop l | .check (some l) _ _ | .rUnlock (some l) _ _ =>
    inferInstanceAs (Decidable (l.rest ≠ []))
  | .range _ | .rLock (some _) _ _ | .queued (some _) _ _ _ => .isTrue trivial
  | .lock _ _ | .acquire _ _ | .write _ _ | .unlock | .rLockAll _ | .rLock none _ _
  | .queued none _ _ _ | .check none _ _ | .rUnlock none _ _ | .set | .enabled _ | .all _ =>
    .isFalse id

/-- No `SetFlag` gets into line while a `GetAllFlagsForUser` holds the lock and has a flag left. -/
def Orderly (s : Server) : Label → Prop
  | .run i _ => s.tasks[i]?.map Task.stance = some .asking →
    ∀ t ∈ s.tasks, ¬ t.rereads s.registry.mu.rounds
  | .call _ => True

instance (s : Server) : ∀ l, Decidable (Orderly s l)
  | .run _ _ => inferInstanceAs (Decidable (_ → _))
  | .call _ => .isTrue trivial

/-! ## Runs -/

variable {P} {s : Server} {r r' : Registry} {t t' : Task} {order : List String}

/-- Every step is one of the lock's. -/
theorem run_moves (h : r.run P order t = some (r', t')) :
    Stance.Moves r.mu t.stance r'.mu t'.stance := by
  cases t with
  | lock name cfg =>
    obtain ⟨mu, locked, same⟩ := Option.map_eq_some_iff.mp h
    cases same
    unfold RWMutex.lock at locked
    split at locked <;> cases locked
    exact .lock ‹_›
  | acquire name cfg =>
    obtain ⟨mu, acquired, same⟩ := Option.map_eq_some_iff.mp h
    cases same
    unfold RWMutex.acquire at acquired
    split at acquired <;> cases acquired
    rename_i ready
    exact .acquire ready.1 ready.2
  | write name cfg =>
    cases h
    exact .stay _
  | unlock =>
    cases h
    exact .unlock
  | rLock caller flagName userID =>
    rw [Registry.run, RWMutex.rLock] at h
    by_cases absent : r.mu.writer = .absent
    · rw [if_pos absent] at h
      cases h
      exact .rLock _ absent
    · rw [if_neg absent] at h
      cases h
      exact .queue _ absent
  | queued caller flagName userID ticket =>
    rw [Registry.run] at h
    split at h <;> cases h
    exact .enter _ _ ‹_›
  | check caller flagName userID =>
    cases h
    exact .stay _
  | rUnlock caller flagName result =>
    cases h
    cases caller with
    | none => exact .leave
    | some l => exact .rUnlock 1
  | rLockAll userID =>
    rw [Registry.run, RWMutex.rLock] at h
    by_cases absent : r.mu.writer = .absent
    · rw [if_pos absent] at h
      cases h
      exact .rLock 0 absent
    · rw [if_neg absent] at h
      cases h
      exact .queue 0 absent
  | queuedAll userID ticket =>
    rw [Registry.run] at h
    split at h <;> cases h
    exact .enter 0 _ ‹_›
  | range userID =>
    rw [Registry.run] at h
    split at h <;> cases h
    exact .stay _
  | loop l =>
    rw [Registry.run] at h
    split at h <;> cases h
    · exact .leave
    · exact .stay _
  | set | enabled | all => cases h

theorem step_cases {l : Label} {s' : Server} (h : s.step P l = some s') :
    (∃ c, l = .call c ∧ s' = { s with tasks := s.tasks ++ [c.begin] }) ∨
      ∃ i order t r t', l = .run i order ∧ s.tasks[i]? = some t ∧
        s.registry.run P order t = some (r, t') ∧ s' = ⟨r, s.tasks.set i t'⟩ := by
  cases l with
  | call c =>
    cases h
    exact .inl ⟨c, rfl, rfl⟩
  | run i order =>
    obtain ⟨t, here, h⟩ := Option.bind_eq_some_iff.mp h
    obtain ⟨⟨r, t'⟩, step, rfl⟩ := Option.map_eq_some_iff.mp h
    exact .inr ⟨i, order, t, r, t', rfl, here, step, rfl⟩

/-- The lock agrees with the tasks. -/
theorem reach_balanced {ok : Server → Label → Prop} (h : (server P).Reach ok s) :
    Library.Balanced s.registry.mu (s.tasks.map Task.stance) := by
  refine h.invariant (I := fun s => Library.Balanced s.registry.mu (s.tasks.map Task.stance)) ?_ ?_
  · rintro _ rfl
    exact balanced_fresh
  · intro s l s' ih _ step
    rcases step_cases step with ⟨c, -, rfl⟩ | ⟨i, order, t, r, t', -, here, ran, rfl⟩
    · rw [List.map_append]
      refine ih.concat ?_
      cases c <;> simp [Call.begin, Task.stance, outer]
    · rw [List.map_set]
      exact ih.move (by rw [List.getElem?_map, here]; rfl) (run_moves ran)

/-- While there is a writer, no call can look up a flag under a lock that it holds. -/
def Clear (s : Server) : Prop :=
  s.registry.mu.writer ≠ .absent → ∀ t ∈ s.tasks, ¬ t.rereads s.registry.mu.rounds

/-- With a writer around, a step leads to none that looks up flags under a lock. -/
theorem run_clear (h : r.run P order t = some (r', t')) (writer : r.mu.writer ≠ .absent)
    (clear : ¬ t.rereads r.mu.rounds) (still : r'.mu.writer ≠ .absent) :
    r'.mu.rounds = r.mu.rounds ∧ ¬ t'.rereads r'.mu.rounds := by
  cases t with
  | lock name cfg =>
    obtain ⟨mu, locked, same⟩ := Option.map_eq_some_iff.mp h
    simp [RWMutex.lock, writer] at locked
  | acquire name cfg =>
    obtain ⟨mu, acquired, same⟩ := Option.map_eq_some_iff.mp h
    cases same
    unfold RWMutex.acquire at acquired
    split at acquired <;> cases acquired
    exact ⟨rfl, id⟩
  | write name cfg =>
    cases h
    exact ⟨rfl, id⟩
  | unlock =>
    cases h
    exact absurd rfl still
  | rLock caller flagName userID =>
    cases caller with
    | some l => exact absurd trivial clear
    | none =>
      rw [Registry.run, RWMutex.rLock] at h
      rw [if_neg writer] at h
      cases h
      exact ⟨rfl, id⟩
  | queued caller flagName userID ticket =>
    cases caller with
    | some l => exact absurd trivial clear
    | none =>
      rw [Registry.run] at h
      split at h <;> cases h
      exact ⟨rfl, id⟩
  | check caller flagName userID =>
    cases h
    cases caller with
    | none => exact ⟨rfl, id⟩
    | some l => exact ⟨rfl, clear⟩
  | rUnlock caller flagName result =>
    cases h
    cases caller with
    | none => exact ⟨rfl, id⟩
    | some l => exact ⟨rfl, clear⟩
  | rLockAll userID =>
    rw [Registry.run, RWMutex.rLock] at h
    rw [if_neg writer] at h
    cases h
    exact ⟨rfl, Nat.lt_irrefl _⟩
  | queuedAll userID ticket =>
    rw [Registry.run] at h
    split at h
    · rename_i admitted
      exact absurd (of_decide_eq_true admitted) clear
    · cases h
  | range userID => exact absurd trivial clear
  | loop l =>
    rw [Registry.run] at h
    split at h <;> cases h
    · exact ⟨rfl, id⟩
    · rename_i name rest more
      have left : l.rest ≠ [] := by simp [more]
      exact absurd left clear
  | set | enabled | all => cases h

theorem not_rereads_of_waiting {rounds : Nat} (h : t.stance = .waiting) : ¬ t.rereads rounds := by
  cases t <;> first | exact id | cases h

theorem reach_clear (h : (server P).Reach Orderly s) : Clear s := by
  refine h.invariant ?_ ?_
  · rintro _ rfl writer
    exact absurd rfl writer
  · intro s l s' ih ok step writer t' mem
    rcases step_cases step with ⟨c, -, rfl⟩ | ⟨i, order, t, r, new, rfl, here, ran, rfl⟩
    · rcases List.mem_append.mp mem with old | last
      · exact ih writer t' old
      · rw [List.mem_singleton.mp last]
        cases c <;> exact id
    · by_cases absent : s.registry.mu.writer = .absent
      · obtain ⟨asking, waiting, rounds⟩ := (run_moves ran).writer absent writer
        rcases List.mem_or_eq_of_mem_set mem with old | rfl
        · rw [rounds]
          exact ok (by rw [here, Option.map_some, asking]) t' old
        · exact not_rereads_of_waiting waiting
      · have clear := ih absent
        obtain ⟨rounds, kept⟩ := run_clear ran absent (clear t (List.mem_of_getElem? here)) writer
        rcases List.mem_or_eq_of_mem_set mem with old | rfl
        · rw [rounds]
          exact clear t' old
        · exact kept

/-! ## Stuck calls -/

theorem stance_finished : t.stance = .finished ↔ t.finished = true := by
  cases t <;> simp [Task.stance, Task.finished]

/-- A call that cannot take a step waits for the lock. -/
theorem blocked_of_run (h : ∀ order, r.run P order t = none) : t.stance.Blocked r.mu := by
  cases t with
  | lock name cfg => exact Option.map_eq_none_iff.mp (h [])
  | acquire name cfg => exact Option.map_eq_none_iff.mp (h [])
  | write | unlock | check | rUnlock => cases h []
  | rLock caller flagName userID =>
    have step := h []
    rw [Registry.run, RWMutex.rLock] at step
    split at step <;> cases step
  | rLockAll userID =>
    have step := h []
    rw [Registry.run, RWMutex.rLock] at step
    split at step <;> cases step
  | queued caller flagName userID ticket =>
    have step := h []
    rw [Registry.run] at step
    split at step
    · cases step
    · exact eq_false_of_ne_true ‹_›
  | queuedAll userID ticket =>
    have step := h []
    rw [Registry.run] at step
    split at step
    · cases step
    · exact eq_false_of_ne_true ‹_›
  | range userID =>
    have step := h r.flags.keys
    rw [Registry.run, if_pos (List.Perm.refl _)] at step
    cases step
  | loop l =>
    have step := h []
    rw [Registry.run] at step
    split at step <;> cases step
  | set | enabled | all => trivial

theorem rereads_of_queued {held ticket rounds : Nat}
    (h : t.stance = .queued (held + 1) ticket) : t.rereads rounds := by
  cases t with
  | queued caller flagName userID ticket =>
    cases caller with
    | none => cases h
    | some l => trivial
  | _ => cases h

/-- No call is stuck as long as no `SetFlag` gets into line while a `GetAllFlagsForUser` has the
lock and flags to look up. -/
theorem registry_never_stuck (h : (server P).Reach Orderly s) : ¬ s.Stuck P := by
  rintro ⟨⟨t, mem, unfinished⟩, stuck⟩
  have balanced := reach_balanced h
  have some : ∃ st ∈ s.tasks.map Task.stance, st ≠ .finished := by
    refine ⟨t.stance, List.mem_map_of_mem mem, fun finished => ?_⟩
    rw [stance_finished.mp finished] at unfinished
    cases unfinished
  have blocked : ∀ st ∈ s.tasks.map Task.stance, st.Blocked s.registry.mu := by
    intro st mem
    obtain ⟨t, present, rfl⟩ := List.mem_map.mp mem
    obtain ⟨i, here⟩ := List.getElem?_of_mem present
    cases finished : t.finished with
    | true =>
      rw [stance_finished.mpr finished]
      trivial
    | false =>
      apply blocked_of_run
      intro order
      have none := stuck i t here finished order
      simpa [Server.step, here] using none
  obtain ⟨writer, held, ticket, queued⟩ := balanced.nested_of_stuck some blocked
  obtain ⟨t, present, same⟩ := List.mem_map.mp queued
  have clear := reach_clear h (by rw [writer]; decide) t present
  exact clear (rereads_of_queued same)

/-! ## Samples -/

namespace Sample

/-- A plain platform. -/
def platform : Platform := ⟨id, (· == ·), fun _ => true, fun _ => 100⟩

def flagNames : List String := ["device_linking", "group_calling", "ai_summary", "protobuf_wire"]

def request : List Label :=
  [.call (.getAllFlagsForUser "alice"), .run 0 [], .run 0 flagNames]

def change : Label := .call (.setFlag "ai_summary" ⟨"ai_summary", false, 0, [], []⟩)

def fresh : Server := ⟨⟨.fresh, initDefaults platform⟩, []⟩

/-- `SetFlag` waits for the lock of the loop, and the loop's first look-up for `SetFlag`. -/
def jam : Option Server :=
  (server platform).follow (fun _ _ => True) fresh
    (request ++ [change, .run 1 [], .run 0 [], .run 0 []])

theorem jam_isSome : jam.isSome := by rfl

theorem registry_blocks_itself :
    ∃ s, (server platform).Reachable s ∧ s.Stuck platform := by
  have start : (server platform).Reachable fresh := .start rfl
  refine ⟨_, start.follow (Option.some_get jam_isSome).symm,
    ⟨_, List.mem_cons_self, by rfl⟩, ?_⟩
  intro i t here unfinished order
  rcases i with _ | _ | i
  · rfl
  · rfl
  · cases here

/-- `SetFlag` gets into line when the loop is through. -/
def inLine : Option Server :=
  (server platform).follow Orderly fresh
    (request ++ [change] ++ List.replicate 16 (.run 0 []) ++ [.run 1 []])

theorem inLine_isSome : inLine.isSome := by rfl

theorem registry_never_stuck_sample :
    ∃ s, (server platform).Reach Orderly s ∧ s.registry.mu = ⟨1, 0, .waiting, 0⟩ ∧
      ¬ s.Stuck platform := by
  have start : (server platform).Reach Orderly fresh := .start rfl
  have reach := start.follow (Option.some_get inLine_isSome).symm
  exact ⟨_, reach, by rfl, registry_never_stuck reach⟩

end Sample

end GenChat.Auth.Features
