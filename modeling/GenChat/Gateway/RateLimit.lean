import GenChat.Ledger.Store
import GenChat.Library.Linearizable
import GenChat.Library.RWMutex

/-!
# Rate limits of the gateway

`limiter.go`. A limiter for an id is made when the id is first seen. `GetLimiter` looks twice: under
a read lock, and if there is none yet, again under the write lock. However its callers take
turns, there is one limiter for a tier and an id, its answers are those of this limiter alone, and
no caller waits for ever.
-/
namespace GenChat.Gateway.RateLimit
open Library
open Ledger (Table)

/-! ## Limiters -/

/-- `golang.org/x/time/rate`. A limiter is made for an interval in nanoseconds and a burst. -/
structure Rate (L Time : Type) where
  newLimiter : Int → Int → L
  allow : L → Time → Bool × L

/-- `time.Minute / time.Duration(ratePerMinute)`. -/
def interval (ratePerMinute : Int) : Option Int :=
  if ratePerMinute = 0 then none else some ((60000000000 : Int).tdiv ratePerMinute)

structure Call (K : Type) where
  tier : K
  id : String
  deriving DecidableEq

inductive Answer where
  | allowed (result : Bool)
  /-- The division by a rate of zero. -/
  | panicked
  deriving DecidableEq

/-- Where the two kinds of limiters differ. -/
structure Design (K L : Type) where
  make : K → Option L
  exempt : String → Bool
  /-- A limiter that is found under the write lock is asked before the lock is given back. -/
  inside : Bool

section Designs
variable {L Time : Type} (R : Rate L Time)

inductive Tier where
  | steady
  | fresh
  deriving DecidableEq

structure Tiers where
  ratePerMinute : Int
  burst : Int
  freshRatePerMinute : Int
  freshBurst : Int

def newTieredLimiter (ratePerMinute burst freshRatePerMinute freshBurst : Int) : Tiers where
  ratePerMinute := ratePerMinute
  burst := burst
  freshRatePerMinute := if freshRatePerMinute ≤ 0 then 60 else freshRatePerMinute
  freshBurst := if freshBurst ≤ 0 then 10 else freshBurst

def newLimiter (ratePerMinute burst : Int) : Tiers := newTieredLimiter ratePerMinute burst 60 10

/-- `Limiter`. -/
def Tiers.design (l : Tiers) : Design Tier L where
  make
    | .steady => (interval l.ratePerMinute).map (R.newLimiter · l.burst)
    | .fresh => (interval l.freshRatePerMinute).map (R.newLimiter · l.freshBurst)
  exempt _ := false
  inside := false

def allowTiered (id : String) (isFresh : Bool) : Call Tier :=
  ⟨if isFresh then .fresh else .steady, id⟩

def allow (userID : String) : Call Tier := ⟨.steady, userID⟩

structure PreAuth where
  ratePerMinute : Int
  burst : Int

def newPreAuthLimiter (ratePerMinute burst : Int) : PreAuth where
  ratePerMinute := if ratePerMinute ≤ 0 then 60 else ratePerMinute
  burst := if burst ≤ 0 then 10 else burst

/-- `PreAuthLimiter`. -/
def PreAuth.design (p : PreAuth) : Design Unit L where
  make _ := (interval p.ratePerMinute).map (R.newLimiter · p.burst)
  exempt ip := ip = ""
  inside := true

end Designs

/-! ## Calls -/

/-- The maps lead to limiters in the order in which they were made. -/
structure Limiter (K L : Type) where
  mu : RWMutex
  limiters : K → Table String Nat
  made : List L

/-- Where a call stands. -/
inductive Task (K : Type) where
  | enter (c : Call K)
  | rLock (c : Call K)
  | queued (c : Call K) (ticket : Nat)
  | read (c : Call K)
  | rUnlock (c : Call K) (limiter : Option Nat)
  | missed (c : Call K)
  | lock (c : Call K)
  | acquire (c : Call K)
  | recheck (c : Call K)
  | create (c : Call K)
  | found (c : Call K) (limiter : Nat)
  | allow (c : Call K) (limiter : Nat)
  | unlock (answer : Answer)
  | answered (answer : Answer)

variable {K L Time : Type} [DecidableEq K]

namespace Limiter

def lookup (l : Limiter K L) (c : Call K) : Option Nat := (l.limiters c.tier).lookup c.id

/-- `rate.NewLimiter` and the assignment to the map. -/
def insert (l : Limiter K L) (c : Call K) (limiter : L) : Limiter K L where
  mu := l.mu
  limiters := Function.update l.limiters c.tier ((l.limiters c.tier).insert c.id l.made.length)
  made := l.made ++ [limiter]

/-- `Allow` of a limiter, which has a lock of its own. -/
def allow (R : Rate L Time) (l : Limiter K L) (limiter : Nat) (now : Time) :
    Option (Bool × Limiter K L) :=
  l.made[limiter]?.map fun v =>
    ((R.allow v now).1, { l with made := l.made.set limiter (R.allow v now).2 })

/-- The next step of a task. -/
def run (R : Rate L Time) (D : Design K L) (l : Limiter K L) (now : Time) :
    Task K → Option (Limiter K L × Task K)
  | .enter c => some (l, if D.exempt c.id then .answered (.allowed true) else .rLock c)
  | .rLock c =>
    match l.mu.rLock with
    | (mu, none) => some ({ l with mu := mu }, .read c)
    | (mu, some ticket) => some ({ l with mu := mu }, .queued c ticket)
  | .queued c ticket => if l.mu.admits ticket then some (l, .read c) else none
  | .read c => some (l, .rUnlock c (l.lookup c))
  | .rUnlock c none => some ({ l with mu := l.mu.rUnlock }, .missed c)
  | .rUnlock c (some limiter) => some ({ l with mu := l.mu.rUnlock }, .allow c limiter)
  | .missed c => some (l, .lock c)
  | .lock c => l.mu.lock.map fun mu => ({ l with mu := mu }, .acquire c)
  | .acquire c => l.mu.acquire.map fun mu => ({ l with mu := mu }, .recheck c)
  | .recheck c =>
    match l.lookup c with
    | some limiter => some (l, .found c limiter)
    | none => some (l, .create c)
  | .create c =>
    match D.make c.tier with
    | some limiter => some (l.insert c limiter, .found c l.made.length)
    | none => some (l, .unlock .panicked)
  | .found c limiter =>
    if D.inside then (l.allow R limiter now).map fun r => (r.2, .unlock (.allowed r.1))
    else some ({ l with mu := l.mu.unlock }, .allow c limiter)
  | .allow _ limiter => (l.allow R limiter now).map fun r => (r.2, .answered (.allowed r.1))
  | .unlock answer => some ({ l with mu := l.mu.unlock }, .answered answer)
  | .answered _ => none

end Limiter

structure Server (K L : Type) where
  limiter : Limiter K L
  tasks : List (Task K)

inductive Label (K Time : Type) where
  | call (c : Call K)
  | run (i : Nat) (now : Time)

variable (R : Rate L Time) (D : Design K L)

def Server.step (s : Server K L) : Label K Time → Option (Server K L)
  | .call c => some { s with tasks := s.tasks ++ [.enter c] }
  | .run i now => s.tasks[i]?.bind fun t =>
    (s.limiter.run R D now t).map fun r => ⟨r.1, s.tasks.set i r.2⟩

/-- Goroutines call a new limiter. -/
def server : Machine (Server K L) (Label K Time) where
  start s := s = ⟨⟨.fresh, fun _ => ∅, []⟩, []⟩
  step := Server.step R D

def Task.returns : Task K → Option Answer
  | .answered answer => some answer
  | _ => none

/-- The calls and the answers that a step shows. -/
def history (s : Server K L) : Label K Time → List (CallEvent (Call K) Answer)
  | .call c => [.called c]
  | .run i now => ((s.step R D (.run i now)).bind fun s' =>
    s'.tasks[i]?.bind Task.returns).toList.map (.returned i)

/-- A limiter for every tier and id, from the start. -/
def perId : Spec (Call K → Option L) (Call K) Time Answer where
  start limiters := ∀ c, limiters c = D.make c.tier
  effect limiters c now :=
    if D.exempt c.id then some (.allowed true, limiters)
    else match limiters c with
      | none => some (.panicked, limiters)
      | some v => some (.allowed (R.allow v now).1,
        Function.update limiters c (some (R.allow v now).2))

def Task.stance : Task K → Stance
  | .enter _ | .rLock _ | .missed _ => .free 0
  | .queued _ ticket => .queued 0 ticket
  | .read _ | .rUnlock _ _ => .free 1
  | .lock _ => .asking
  | .acquire _ => .waiting
  | .recheck _ | .create _ | .found _ _ | .unlock _ => .writing
  | .allow _ _ | .answered _ => .finished

/-- How far the call of a task has come. -/
def Task.progress : Task K → Progress (Call K) Answer
  | .enter c | .rLock c | .queued c _ | .read c | .rUnlock c _ | .missed c | .lock c | .acquire c
  | .recheck c | .create c | .found c _ | .allow c _ => .pending c
  | .unlock answer | .answered answer => .done answer

/-- What a task has found out still holds. -/
def Task.Valid (l : Limiter K L) : Task K → Prop
  | .enter _ | .unlock _ | .answered _ => True
  | .rUnlock c (some limiter) | .found c limiter | .allow c limiter =>
    D.exempt c.id = false ∧ l.lookup c = some limiter
  | .create c => D.exempt c.id = false ∧ l.lookup c = none
  | .rLock c | .queued c _ | .read c | .rUnlock c none | .missed c | .lock c | .acquire c
  | .recheck c => D.exempt c.id = false

/-- The maps lead to the limiters of the specification, each to its own. -/
structure Agrees (l : Limiter K L) (x : Call K → Option L) : Prop where
  made : ∀ c p, l.lookup c = some p → ∃ v, l.made[p]? = some v ∧ x c = some v
  unmade : ∀ c, l.lookup c = none → x c = D.make c.tier
  apart : ∀ c c' p, l.lookup c = some p → l.lookup c' = some p → c = c'

/-! ## Limiters and their pointers -/

variable {R D} {s : Server K L} {l l' : Limiter K L} {t t' : Task K} {now : Time}
  {x : Call K → Option L} {c c' : Call K} {v : L} {p : Nat} {b : Bool}

theorem Limiter.lookup_insert : (l.insert c v).lookup c' =
    if c' = c then some l.made.length else l.lookup c' := by
  cases c with
  | mk tier id =>
    cases c' with
    | mk tier' id' =>
      simp only [lookup, insert, Function.update_apply, Call.mk.injEq]
      by_cases same : tier' = tier
      · subst same
        by_cases here : id' = id
        · subst here
          simp
        · simp [here, AList.lookup_insert_ne here]
      · simp [same]

theorem Limiter.lookup_insert_some (none : l.lookup c = none) (there : l.lookup c' = some p) :
    (l.insert c v).lookup c' = some p := by
  rw [lookup_insert, if_neg]
  · exact there
  · rintro rfl
    rw [none] at there
    cases there

omit [DecidableEq K] in
theorem Limiter.allow_made (asked : l.allow R p now = some (b, l')) :
    ∃ made, l' = { l with made := made } := by
  obtain ⟨v, -, same⟩ := Option.map_eq_some_iff.mp asked
  cases same
  exact ⟨_, rfl⟩

omit [DecidableEq K] in
theorem Agrees.lt (h : Agrees D l x) (there : l.lookup c = some p) : p < l.made.length := by
  obtain ⟨v, here, -⟩ := h.made c p there
  exact (List.getElem?_eq_some_iff.mp here).1

omit [DecidableEq K] in
theorem Agrees.mu (h : Agrees D l x) (mu : RWMutex) : Agrees D { l with mu := mu } x :=
  ⟨h.made, h.unmade, h.apart⟩

/-- A new limiter is the one that was there from the start. -/
theorem Agrees.insert (h : Agrees D l x) (none : l.lookup c = none)
    (make : D.make c.tier = some v) : Agrees D (l.insert c v) x where
  made c' p there := by
    rw [Limiter.lookup_insert] at there
    split at there
    · rename_i same
      subst same
      cases there
      exact ⟨v, List.getElem?_concat_length, (h.unmade _ none).trans make⟩
    · obtain ⟨w, here, same⟩ := h.made c' p there
      exact ⟨w, (List.getElem?_append_left (h.lt there)).trans here, same⟩
  unmade c' gone := by
    rw [Limiter.lookup_insert] at gone
    split at gone
    · cases gone
    · exact h.unmade c' gone
  apart c₁ c₂ p first second := by
    rw [Limiter.lookup_insert] at first second
    split at first <;> split at second
    · rename_i same same'
      exact same.trans same'.symm
    · cases first
      exact absurd (h.lt second) (lt_irrefl _)
    · cases second
      exact absurd (h.lt first) (lt_irrefl _)
    · exact h.apart c₁ c₂ p first second

/-- The limiter that a pointer leads to answers for its id, and for no other. -/
theorem Agrees.allow (h : Agrees D l x) (counted : D.exempt c.id = false)
    (there : l.lookup c = some p) (asked : l.allow R p now = some (b, l')) :
    ∃ x', (perId R D).effect x c now = some (.allowed b, x') ∧ Agrees D l' x' := by
  obtain ⟨v, here, same⟩ := h.made c p there
  rw [Limiter.allow, here, Option.map_some] at asked
  cases asked
  refine ⟨Function.update x c (some (R.allow v now).2), by simp [perId, counted, same], ?_, ?_,
    h.apart⟩
  · intro c' p' there'
    by_cases other : c' = c
    · subst other
      cases there.symm.trans there'
      exact ⟨_, List.getElem?_set_self (h.lt there), Function.update_self _ _ _⟩
    · have ne : p ≠ p' := by
        rintro rfl
        exact other (h.apart c' c p there' there)
      obtain ⟨w, here', same'⟩ := h.made c' p' there'
      exact ⟨w, (List.getElem?_set_ne ne).trans here',
        (Function.update_of_ne other _ _).trans same'⟩
  · intro c' gone
    have other : c' ≠ c := by
      rintro rfl
      cases there.symm.trans gone
    exact (Function.update_of_ne other _ _).trans (h.unmade c' gone)

/-! ## Steps -/

/-- Every step is one of the lock's, or comes before or after it. -/
theorem run_moves (h : l.run R D now t = some (l', t')) :
    Stance.Moves l.mu t.stance l'.mu t'.stance ∨
      l'.mu = l.mu ∧ t.stance = .free 0 ∧ (t'.stance = .asking ∨ t'.stance = .finished) := by
  cases t with
  | enter c =>
    cases h
    by_cases exempt : D.exempt c.id = true
    · rw [if_pos exempt]
      exact .inr ⟨rfl, rfl, .inr rfl⟩
    · rw [if_neg exempt]
      exact .inl (.stay _)
  | rLock c =>
    rw [Limiter.run, RWMutex.rLock] at h
    by_cases absent : l.mu.writer = .absent
    · rw [if_pos absent] at h
      cases h
      exact .inl (.rLock 0 absent)
    · rw [if_neg absent] at h
      cases h
      exact .inl (.queue 0 absent)
  | queued c ticket =>
    rw [Limiter.run] at h
    split at h <;> cases h
    exact .inl (.enter 0 _ ‹_›)
  | read c =>
    cases h
    exact .inl (.stay _)
  | rUnlock c limiter =>
    cases limiter with
    | none =>
      cases h
      exact .inl (.rUnlock 0)
    | some p =>
      cases h
      exact .inl .leave
  | missed c =>
    cases h
    exact .inr ⟨rfl, rfl, .inl rfl⟩
  | lock c =>
    obtain ⟨mu, locked, same⟩ := Option.map_eq_some_iff.mp h
    cases same
    unfold RWMutex.lock at locked
    split at locked <;> cases locked
    exact .inl (.lock ‹_›)
  | acquire c =>
    obtain ⟨mu, acquired, same⟩ := Option.map_eq_some_iff.mp h
    cases same
    unfold RWMutex.acquire at acquired
    split at acquired <;> cases acquired
    rename_i ready
    exact .inl (.acquire ready.1 ready.2)
  | recheck c =>
    rw [Limiter.run] at h
    split at h <;> cases h <;> exact .inl (.stay _)
  | create c =>
    rw [Limiter.run] at h
    split at h <;> cases h <;> exact .inl (.stay _)
  | found c p =>
    rw [Limiter.run] at h
    split at h
    · obtain ⟨⟨b, l₁⟩, asked, same⟩ := Option.map_eq_some_iff.mp h
      cases same
      obtain ⟨made, rfl⟩ := Limiter.allow_made asked
      exact .inl (.stay _)
    · cases h
      exact .inl .unlock
  | allow c p =>
    obtain ⟨⟨b, l₁⟩, asked, same⟩ := Option.map_eq_some_iff.mp h
    cases same
    obtain ⟨made, rfl⟩ := Limiter.allow_made asked
    exact .inl (.stay _)
  | unlock answer =>
    cases h
    exact .inl .unlock
  | answered answer => cases h

/-- A step is an effect of the call or goes unnoticed. -/
theorem run_effect (h : l.run R D now t = some (l', t')) (agrees : Agrees D l x)
    (valid : t.Valid D l) : ∃ x', (perId R D).Moves x t.progress x' t'.progress ∧
      Agrees D l' x' ∧ t'.Valid D l' := by
  cases t with
  | enter c =>
    cases h
    by_cases exempt : D.exempt c.id = true
    · rw [if_pos exempt]
      exact ⟨x, .effect now (if_pos exempt), agrees, trivial⟩
    · rw [if_neg exempt]
      exact ⟨x, .stay _ _, agrees, eq_false_of_ne_true exempt⟩
  | rLock c =>
    rw [Limiter.run] at h
    split at h <;> cases h <;> exact ⟨x, .stay _ _, agrees.mu _, valid⟩
  | queued c ticket =>
    rw [Limiter.run] at h
    split at h <;> cases h
    exact ⟨x, .stay _ _, agrees, valid⟩
  | read c =>
    cases h
    refine ⟨x, .stay _ _, agrees, ?_⟩
    cases found : l.lookup c with
    | none => exact valid
    | some p => exact ⟨valid, found⟩
  | rUnlock c limiter =>
    cases limiter <;> cases h <;> exact ⟨x, .stay _ _, agrees.mu _, valid⟩
  | missed c =>
    cases h
    exact ⟨x, .stay _ _, agrees, valid⟩
  | lock c | acquire c =>
    obtain ⟨mu, -, same⟩ := Option.map_eq_some_iff.mp h
    cases same
    exact ⟨x, .stay _ _, agrees.mu _, valid⟩
  | recheck c =>
    rw [Limiter.run] at h
    split at h <;> rename_i found <;> cases h <;> exact ⟨x, .stay _ _, agrees, valid, found⟩
  | create c =>
    obtain ⟨counted, none⟩ := valid
    rw [Limiter.run] at h
    split at h <;> rename_i make <;> cases h
    · exact ⟨x, .stay _ _, agrees.insert none make, counted,
        Limiter.lookup_insert.trans (if_pos rfl)⟩
    · refine ⟨x, .effect now ?_, agrees, trivial⟩
      simp [perId, counted, agrees.unmade c none, make]
  | found c p =>
    obtain ⟨counted, there⟩ := valid
    rw [Limiter.run] at h
    split at h
    · obtain ⟨⟨b, l₁⟩, asked, same⟩ := Option.map_eq_some_iff.mp h
      cases same
      obtain ⟨x', effect, agrees'⟩ := agrees.allow counted there asked
      exact ⟨x', .effect now effect, agrees', trivial⟩
    · cases h
      exact ⟨x, .stay _ _, agrees.mu _, counted, there⟩
  | allow c p =>
    obtain ⟨counted, there⟩ := valid
    obtain ⟨⟨b, l₁⟩, asked, same⟩ := Option.map_eq_some_iff.mp h
    cases same
    obtain ⟨x', effect, agrees'⟩ := agrees.allow counted there asked
    exact ⟨x', .effect now effect, agrees', trivial⟩
  | unlock answer =>
    cases h
    exact ⟨x, .stay _ _, agrees.mu _, trivial⟩
  | answered answer => cases h

/-- Only `create` changes the maps. -/
theorem run_lookup (h : l.run R D now t = some (l', t')) :
    (∀ c, l'.lookup c = l.lookup c) ∨ ∃ c v, t = .create c ∧ l' = l.insert c v := by
  cases t with
  | create c =>
    rw [Limiter.run] at h
    split at h <;> cases h
    · exact .inr ⟨c, _, rfl, rfl⟩
    · exact .inl fun _ => rfl
  | rUnlock c limiter => cases limiter <;> cases h <;> exact .inl fun _ => rfl
  | lock c | acquire c =>
    obtain ⟨mu, -, same⟩ := Option.map_eq_some_iff.mp h
    cases same
    exact .inl fun _ => rfl
  | rLock | queued | recheck =>
    rw [Limiter.run] at h
    split at h <;> cases h <;> exact .inl fun _ => rfl
  | found c p =>
    rw [Limiter.run] at h
    split at h
    · obtain ⟨⟨b, l₁⟩, asked, same⟩ := Option.map_eq_some_iff.mp h
      cases same
      obtain ⟨made, rfl⟩ := Limiter.allow_made asked
      exact .inl fun _ => rfl
    · cases h
      exact .inl fun _ => rfl
  | allow c p =>
    obtain ⟨⟨b, l₁⟩, asked, same⟩ := Option.map_eq_some_iff.mp h
    cases same
    obtain ⟨made, rfl⟩ := Limiter.allow_made asked
    exact .inl fun _ => rfl
  | enter | read | missed | unlock =>
    cases h
    exact .inl fun _ => rfl
  | answered answer => cases h

omit [DecidableEq K] in
theorem Task.Valid.of_lookup (h : t.Valid D l) (same : ∀ c, l'.lookup c = l.lookup c) :
    t.Valid D l' := by
  cases t with
  | rUnlock c limiter =>
    cases limiter with
    | none => exact h
    | some p => exact ⟨h.1, (same c).trans h.2⟩
  | found c p | allow c p => exact ⟨h.1, (same c).trans h.2⟩
  | create c => exact ⟨h.1, (same c).trans h.2⟩
  | enter | rLock | queued | read | missed | lock | acquire | recheck | unlock | answered =>
    exact h

/-- A task that does not create a limiter itself is not disturbed by one that does. -/
theorem Task.Valid.insert (h : t.Valid D l) (none : l.lookup c = none)
    (other : ∀ c', t ≠ .create c') : t.Valid D (l.insert c v) := by
  cases t with
  | rUnlock c' limiter =>
    cases limiter with
    | none => exact h
    | some p => exact ⟨h.1, Limiter.lookup_insert_some none h.2⟩
  | found c' p | allow c' p => exact ⟨h.1, Limiter.lookup_insert_some none h.2⟩
  | create c' => exact absurd rfl (other c')
  | enter | rLock | queued | read | missed | lock | acquire | recheck | unlock | answered =>
    exact h

/-! ## Runs -/

theorem step_cases {a : Label K Time} {s' : Server K L} (h : s.step R D a = some s') :
    (∃ c, a = .call c ∧ s' = { s with tasks := s.tasks ++ [.enter c] }) ∨
      ∃ i now t l t', a = .run i now ∧ s.tasks[i]? = some t ∧
        s.limiter.run R D now t = some (l, t') ∧ s' = ⟨l, s.tasks.set i t'⟩ := by
  cases a with
  | call c =>
    cases h
    exact .inl ⟨c, rfl, rfl⟩
  | run i now =>
    obtain ⟨t, here, h⟩ := Option.bind_eq_some_iff.mp h
    obtain ⟨⟨l, t'⟩, step, rfl⟩ := Option.map_eq_some_iff.mp h
    exact .inr ⟨i, now, t, l, t', rfl, here, step, rfl⟩

/-- The lock agrees with the tasks. -/
theorem reach_balanced (h : (server R D).Reachable s) :
    Library.Balanced s.limiter.mu (s.tasks.map Task.stance) := by
  refine h.invariant (I := fun s => Library.Balanced s.limiter.mu (s.tasks.map Task.stance)) ?_ ?_
  · rintro _ rfl
    exact balanced_fresh
  · intro s a s' ih _ step
    rcases step_cases step with ⟨c, -, rfl⟩ | ⟨i, now, t, l, t', -, here, ran, rfl⟩
    · rw [List.map_append]
      exact ih.concat (.inl rfl)
    · have here' : (s.tasks.map Task.stance)[i]? = some t.stance := by
        rw [List.getElem?_map, here]
        rfl
      rw [List.map_set]
      rcases run_moves ran with moves | ⟨mu, before, after⟩
      · exact ih.move here' moves
      · have here' : (s.tasks.map Task.stance)[i]? = some (.free 0) := before ▸ here'
        have turned := ih.turn here' after
        rwa [← mu] at turned

/-- Two goroutines never create limiters at the same time. -/
theorem create_unique {i j : Nat} (h : (server R D).Reachable s)
    (here : s.tasks[i]? = some (.create c)) (there : s.tasks[j]? = some (.create c')) : i = j := by
  refine (reach_balanced h).writing_unique ?_ ?_
  · rw [List.getElem?_map, here]
    rfl
  · rw [List.getElem?_map, there]
    rfl

variable (R D) in
/-- The goroutines as tasks on the limiter. -/
def goroutines : Tasks (server R D) (history R D) (Limiter K L) (Task K) where
  shared := Server.limiter
  tasks := Server.tasks
  begin := Task.enter
  answer := Task.returns
  Runs l t l' t' := ∃ now, l.run R D now t = some (l', t')
  start := by
    rintro _ rfl
    rfl
  step s a s' step := by
    rcases step_cases step with ⟨c, rfl, rfl⟩ | ⟨i, now, t, l, t', rfl, here, ran, rfl⟩
    · exact .inl ⟨c, rfl, rfl, rfl⟩
    · obtain ⟨lt, -⟩ := List.getElem?_eq_some_iff.mp here
      refine .inr ⟨i, t, t', ?_, here, ?_, ⟨now, ran⟩, rfl⟩
      · have same : (⟨l, s.tasks.set i t'⟩ : Server K L).tasks[i]? = some t' :=
          List.getElem?_set_self lt
        have step : s.step R D (.run i now) = some ⟨l, s.tasks.set i t'⟩ := step
        rw [history, step, Option.bind_some, same, Option.bind_some]
      · cases t with
        | answered => cases ran
        | _ => rfl

omit [DecidableEq K] in
theorem agrees_new : Agrees D ⟨.fresh, fun _ => ∅, []⟩ fun c => D.make c.tier := by
  refine ⟨?_, fun _ _ => rfl, ?_⟩
  · intro c p there
    cases there
  · intro c c' p there
    cases there

/-- What a task has found out still holds after a step of another one. -/
theorem valid_of_run {i j : Nat} {u : Task K} (h : (server R D).Reachable s)
    (here : s.tasks[i]? = some t) (there : s.tasks[j]? = some u) (ne : j ≠ i)
    (ran : s.limiter.run R D now t = some (l, t')) (valid : t.Valid D s.limiter)
    (old : u.Valid D s.limiter) : u.Valid D l := by
  rcases run_lookup ran with same | ⟨c, v, rfl, rfl⟩
  · exact old.of_lookup same
  · refine old.insert valid.2 ?_
    rintro c' rfl
    exact ne (create_unique h there here)

/-- However the goroutines take turns, every id has a limiter of its own. -/
theorem design_linearizable : Linearizable (server R D) (history R D) (perId R D) := by
  suffices simulates : (goroutines R D).Simulates (perId R D) (Agrees D)
      fun l _ t q => q = t.progress ∧ t.Valid D l from simulates.linearizable
  refine ⟨?_, fun _ _ _ => ⟨rfl, trivial⟩, ?_⟩
  · rintro _ rfl
    exact ⟨_, fun _ => rfl, agrees_new⟩
  · rintro s i t l t' x _ reachable here unanswered ⟨now, ran⟩ agrees ⟨rfl, valid⟩
    obtain ⟨x', moves, agrees', valid'⟩ := run_effect ran agrees valid
    refine ⟨x', _, moves, agrees', fun _ => ⟨rfl, valid'⟩, fun answer answered => ?_, ?_⟩
    · cases t' with
      | answered => exact congrArg Progress.done (Option.some.inj answered)
      | _ => cases answered
    · rintro j u _ ne there - ⟨rfl, old⟩
      exact ⟨rfl, valid_of_run reachable here there ne ran valid old⟩

/-- The limiters of `limiter.go`, whatever they are configured with. -/
theorem limiters_linearizable (R : Rate L Time) :
    (∀ l : Tiers, Linearizable (server R (l.design R)) (history R (l.design R))
      (perId R (l.design R))) ∧
    ∀ p : PreAuth, Linearizable (server R (p.design R)) (history R (p.design R))
      (perId R (p.design R)) :=
  ⟨fun _ => design_linearizable, fun _ => design_linearizable⟩

/-! ## Stuck calls -/

theorem reach_agrees (h : (server R D).Reachable s) :
    ∃ x, Agrees D s.limiter x ∧ ∀ t ∈ s.tasks, t.Valid D s.limiter := by
  induction h with
  | start started =>
    cases started
    exact ⟨_, agrees_new, by simp⟩
  | step reachable _ step ih =>
    obtain ⟨x, agrees, valid⟩ := ih
    rcases step_cases step with ⟨c, -, rfl⟩ | ⟨i, now, t, l, t', -, here, ran, rfl⟩
    · refine ⟨x, agrees, fun t mem => ?_⟩
      rcases List.mem_append.mp mem with old | new
      · exact valid t old
      · rw [List.mem_singleton.mp new]
        exact trivial
    · have valid' := valid t (List.mem_of_getElem? here)
      obtain ⟨x', -, agrees', next⟩ := run_effect ran agrees valid'
      refine ⟨x', agrees', fun u mem => ?_⟩
      obtain ⟨j, there⟩ := List.mem_iff_getElem?.mp mem
      rcases getElem?_set_cases there with ⟨rfl, rfl⟩ | ⟨ne, there⟩
      · exact next
      · exact valid_of_run reachable here there ne ran valid'
          (valid u (List.mem_of_getElem? there))

omit [DecidableEq K] in
theorem Agrees.allow_ne_none (h : Agrees D l x) (there : l.lookup c = some p) (now : Time) :
    l.allow R p now ≠ none := by
  obtain ⟨v, here, -⟩ := h.made c p there
  simp [Limiter.allow, here]

/-- A call that cannot take a step waits for the lock. -/
theorem blocked_of_run [Inhabited Time] (agrees : Agrees D l x) (valid : t.Valid D l)
    (waits : t.returns = none) (h : ∀ now, l.run R D now t = none) :
    t.stance ≠ .finished ∧ t.stance.Blocked l.mu := by
  have h := h default
  cases t with
  | enter | read | missed | unlock => cases h
  | rLock c =>
    rw [Limiter.run] at h
    split at h <;> cases h
  | queued c ticket =>
    rw [Limiter.run] at h
    split at h
    · cases h
    · refine ⟨?_, eq_false_of_ne_true ‹_›⟩
      rintro ⟨⟩
  | rUnlock c limiter => cases limiter <;> cases h
  | lock c | acquire c =>
    refine ⟨?_, Option.map_eq_none_iff.mp h⟩
    rintro ⟨⟩
  | recheck c | create c =>
    rw [Limiter.run] at h
    split at h <;> cases h
  | found c p =>
    rw [Limiter.run] at h
    split at h
    · exact absurd (Option.map_eq_none_iff.mp h) (agrees.allow_ne_none valid.2 _)
    · cases h
  | allow c p => exact absurd (Option.map_eq_none_iff.mp h) (agrees.allow_ne_none valid.2 _)
  | answered => cases waits

/-- As long as a call has not returned, some call can go on. -/
theorem limiters_never_stuck [Inhabited Time] (h : (server R D).Reachable s)
    (waits : ∃ t ∈ s.tasks, t.returns = none) :
    ∃ i now s', s.step R D (.run i now) = some s' := by
  by_contra stuck
  push Not at stuck
  obtain ⟨x, agrees, valid⟩ := reach_agrees h
  have blocked (t : Task K) (mem : t ∈ s.tasks) (waits : t.returns = none) :
      t.stance ≠ .finished ∧ t.stance.Blocked s.limiter.mu := by
    refine blocked_of_run (R := R) agrees (valid t mem) waits fun now => ?_
    obtain ⟨i, here⟩ := List.mem_iff_getElem?.mp mem
    by_contra goes
    obtain ⟨r, ran⟩ := Option.ne_none_iff_exists'.mp goes
    refine stuck i now ⟨r.1, s.tasks.set i r.2⟩ ?_
    rw [Server.step, here, Option.bind_some, ran, Option.map_some]
  have all : ∀ stance ∈ s.tasks.map Task.stance, stance.Blocked s.limiter.mu := by
    intro stance mem
    obtain ⟨u, there, rfl⟩ := List.mem_map.mp mem
    cases returned : u.returns with
    | none => exact (blocked u there returned).2
    | some answer =>
      cases u with
      | answered => trivial
      | _ => cases returned
  obtain ⟨t, mem, waits⟩ := waits
  obtain ⟨-, held, ticket, nested⟩ := (reach_balanced h).nested_of_stuck
    ⟨_, List.mem_map_of_mem mem, (blocked t mem waits).1⟩ all
  -- No task waits for a read lock while it has one.
  obtain ⟨u, -, same⟩ := List.mem_map.mp nested
  cases u <;> cases same

namespace Sample

/-- A limiter counts what is left of its burst. -/
def rate : Rate Nat Nat where
  newLimiter _ burst := burst.toNat
  allow v _ := (0 < v, v - 1)

abbrev preAuth : Design Unit Nat := (newPreAuthLimiter 60 10).design rate

/-- Two calls for one address, which both find no limiter. -/
def bothMissed : Option (Server Unit Nat) :=
  (server rate preAuth).follow (fun _ _ => True) ⟨⟨.fresh, fun _ => ∅, []⟩, []⟩
    [.call ⟨(), "10.0.0.1"⟩, .call ⟨(), "10.0.0.1"⟩, .run 0 0, .run 1 0, .run 0 0, .run 1 0,
      .run 0 0, .run 1 0, .run 0 0, .run 1 0, .run 0 0, .run 1 0, .run 0 0]

theorem bothMissed_isSome : bothMissed.isSome := by rfl

end Sample

open Sample in
theorem limiters_never_stuck_sample : ∃ i now s',
    (bothMissed.get bothMissed_isSome).step rate preAuth (.run i now) = some s' :=
  limiters_never_stuck
    (.follow (.start rfl) (Option.some_get bothMissed_isSome).symm)
    ⟨.lock ⟨(), "10.0.0.1"⟩, List.mem_of_getElem? (i := 1) (by rfl), rfl⟩

end GenChat.Gateway.RateLimit
