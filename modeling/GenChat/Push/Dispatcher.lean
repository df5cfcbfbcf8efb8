import GenChat.Library.Machine

/-!
# Back-off of the push dispatcher

The workers of a dispatcher share one `ProviderState` for each provider. A worker asks
`IsThrottled` and then sends; the outcome of a request is recorded later, by whichever worker is
done. A rate limit replaces the deadline of an earlier one, and a success closes the circuit breaker
whatever request it belongs to, so a deadline is kept only while the records arrive in a good order.
-/
namespace GenChat.Push
open Library

def second : Nat := 10 ^ 9

/-- Times and durations are in nanoseconds; the zero time is 0. -/
structure ProviderState where
  throttledUntil : Nat
  consecutiveFailures : Nat
  circuitOpen : Bool
  circuitOpenUntil : Nat
  deriving DecidableEq, Repr

namespace ProviderState
variable (p : ProviderState) (now : Nat)

def new : ProviderState := ⟨0, 0, false, 0⟩

def isThrottled : Bool :=
  now < p.throttledUntil || (p.circuitOpen && now < p.circuitOpenUntil)

/-- How long a rate limit lasts. -/
def backoff (retryAfter : Int) : Nat := if retryAfter ≤ 0 then 5 * second else retryAfter.toNat

def recordRateLimit (retryAfter : Int) : ProviderState :=
  { p with throttledUntil := now + backoff retryAfter }

/-- The failure trips the circuit breaker. -/
def trips : Bool := 5 ≤ p.consecutiveFailures + 1

def recordFailure : ProviderState :=
  let p := { p with consecutiveFailures := p.consecutiveFailures + 1 }
  if 5 ≤ p.consecutiveFailures then
    { p with circuitOpen := true, circuitOpenUntil := now + 30 * second }
  else p

def recordSuccess : ProviderState := { p with consecutiveFailures := 0, circuitOpen := false }

theorem isThrottled_eq_false : p.isThrottled now = false ↔
    p.throttledUntil ≤ now ∧ (p.circuitOpen = true → p.circuitOpenUntil ≤ now) := by
  cases opened : p.circuitOpen <;> simp [isThrottled, opened]

end ProviderState

/-! ## Workers -/

/-- A notification that went out, with the deadlines in force at that time. -/
structure Sent where
  time : Nat
  deadlines : List Nat
  deriving DecidableEq, Repr

/-- A dispatcher with any number of workers, and one provider. -/
structure Dispatcher where
  provider : ProviderState
  clock : Nat
  /-- The workers that have passed `IsThrottled` and have not sent yet. -/
  passed : Nat → Bool
  dispatched : List Sent
  /-- For the proofs: the ends of all rate limits. -/
  rateLimits : List Nat
  /-- For the proofs: the deadlines of the breaker, since it was closed properly. -/
  breaks : List Nat

inductive Event where
  | tick (nanoseconds : Nat)
  | check (worker : Nat)
  | dispatch (worker : Nat)
  | recordRateLimit (retryAfter : Int)
  | recordFailure
  /-- The success of the notification with this number. -/
  | recordSuccess (sent : Nat)
  deriving DecidableEq, Repr

namespace Dispatcher
variable (d : Dispatcher)

def new (clock : Nat) : Dispatcher := ⟨.new, clock, fun _ => false, [], [], []⟩

/-- The request was sent after the deadline of the breaker. -/
def afterBreak (sent : Sent) : Prop := d.provider.circuitOpenUntil ≤ sent.time

instance (sent : Sent) : Decidable (d.afterBreak sent) := inferInstanceAs (Decidable (_ ≤ _))

def step : Event → Option Dispatcher
  | .tick n => some { d with clock := d.clock + n }
  | .check w =>
    if d.passed w then none
    else some { d with passed := Function.update d.passed w (!d.provider.isThrottled d.clock) }
  | .dispatch w =>
    if d.passed w then some { d with
      passed := Function.update d.passed w false
      dispatched := d.dispatched ++ [⟨d.clock, d.rateLimits ++ d.breaks⟩] }
    else none
  | .recordRateLimit retryAfter => some { d with
      provider := d.provider.recordRateLimit d.clock retryAfter
      rateLimits := (d.clock + ProviderState.backoff retryAfter) :: d.rateLimits }
  | .recordFailure => some { d with
      provider := d.provider.recordFailure d.clock
      breaks := if d.provider.trips then (d.clock + 30 * second) :: d.breaks else d.breaks }
  | .recordSuccess k => d.dispatched[k]?.map fun sent => { d with
      provider := d.provider.recordSuccess
      breaks := if d.afterBreak sent then [] else d.breaks }

/-- Nothing was sent before a deadline. -/
def BackoffKept : Prop := ∀ sent ∈ d.dispatched, ∀ deadline ∈ sent.deadlines, deadline ≤ sent.time

instance : Decidable d.BackoffKept := inferInstanceAs (Decidable (∀ _ ∈ _, _))

end Dispatcher

def dispatching : Machine Dispatcher Event := ⟨fun d => ∃ clock, d = .new clock, Dispatcher.step⟩

/-! ## Records in a good order -/

/-- A rate limit does not end before the one in force, no success is recorded before the deadline of
an open breaker, and nothing is announced between a worker's check and its request. -/
def InGoodOrder (d : Dispatcher) : Event → Prop
  | .recordRateLimit retryAfter =>
    d.provider.throttledUntil ≤ d.clock + ProviderState.backoff retryAfter
  | .recordSuccess _ => d.provider.circuitOpen = true → d.provider.circuitOpenUntil ≤ d.clock
  | .dispatch _ => d.provider.isThrottled d.clock = false
  | _ => True

instance (d : Dispatcher) : (e : Event) → Decidable (InGoodOrder d e)
  | .recordRateLimit _ => inferInstanceAs (Decidable (_ ≤ _))
  | .recordSuccess _ => inferInstanceAs (Decidable (_ → _))
  | .dispatch _ => inferInstanceAs (Decidable (_ = _))
  | .tick _ => instDecidableTrue
  | .check _ => instDecidableTrue
  | .recordFailure => instDecidableTrue

namespace Dispatcher

/-- The provider still knows of every deadline that has not passed. -/
structure Remembers (d : Dispatcher) : Prop where
  rateLimits : ∀ t ∈ d.rateLimits, t ≤ d.provider.throttledUntil
  breaks : ∀ t ∈ d.breaks,
    t ≤ d.clock ∨ d.provider.circuitOpen = true ∧ t ≤ d.provider.circuitOpenUntil
  soon : d.provider.circuitOpenUntil ≤ d.clock + 30 * second
  past : ∀ sent ∈ d.dispatched, sent.time ≤ d.clock
  kept : d.BackoffKept

variable {d d' : Dispatcher}

theorem new_remembers (clock : Nat) : (new clock).Remembers :=
  ⟨nofun, nofun, Nat.zero_le _, nofun, nofun⟩

theorem Remembers.tick (h : d.Remembers) (n : Nat) :
    Remembers { d with clock := d.clock + n } where
  rateLimits := h.rateLimits
  breaks t mem := by
    rcases h.breaks t mem with passed | ⟨opened, le⟩
    · exact .inl (passed.trans (Nat.le_add_right _ _))
    · exact .inr ⟨opened, le⟩
  soon := by
    have := h.soon
    change d.provider.circuitOpenUntil ≤ d.clock + n + 30 * second
    omega
  past sent mem := (h.past sent mem).trans (Nat.le_add_right _ _)
  kept := h.kept

theorem Remembers.dispatch (h : d.Remembers) (w : Nat)
    (free : d.provider.isThrottled d.clock = false) : Remembers { d with
      passed := Function.update d.passed w false
      dispatched := d.dispatched ++ [⟨d.clock, d.rateLimits ++ d.breaks⟩] } := by
  obtain ⟨unthrottled, closed⟩ := (d.provider.isThrottled_eq_false d.clock).mp free
  refine ⟨h.rateLimits, h.breaks, h.soon, ?_, ?_⟩
  · intro sent mem
    rcases List.mem_append.mp mem with old | new
    · exact h.past sent old
    · rw [List.mem_singleton.mp new]
  · intro sent mem t deadline
    rcases List.mem_append.mp mem with old | new
    · exact h.kept sent old t deadline
    · rw [List.mem_singleton.mp new] at deadline ⊢
      rcases List.mem_append.mp deadline with limit | tripped
      · exact (h.rateLimits t limit).trans unthrottled
      · rcases h.breaks t tripped with passed | ⟨opened, le⟩
        · exact passed
        · exact le.trans (closed opened)

theorem Remembers.recordRateLimit (h : d.Remembers) {retryAfter : Int}
    (longer : d.provider.throttledUntil ≤ d.clock + ProviderState.backoff retryAfter) :
    Remembers { d with
      provider := d.provider.recordRateLimit d.clock retryAfter
      rateLimits := (d.clock + ProviderState.backoff retryAfter) :: d.rateLimits } := by
  refine ⟨?_, h.breaks, h.soon, h.past, h.kept⟩
  intro t mem
  rcases List.mem_cons.mp mem with rfl | old
  · exact le_rfl
  · exact (h.rateLimits t old).trans longer

theorem Remembers.recordFailure (h : d.Remembers) : Remembers { d with
      provider := d.provider.recordFailure d.clock
      breaks := if d.provider.trips then (d.clock + 30 * second) :: d.breaks else d.breaks } := by
  by_cases fifth : 5 ≤ d.provider.consecutiveFailures + 1
  · simp only [ProviderState.recordFailure, ProviderState.trips, fifth, decide_true, if_true]
    refine ⟨h.rateLimits, ?_, le_rfl, h.past, h.kept⟩
    intro t mem
    have soon := h.soon
    rcases List.mem_cons.mp mem with rfl | old
    · exact .inr ⟨rfl, le_rfl⟩
    · rcases h.breaks t old with passed | ⟨-, le⟩
      · exact .inl passed
      · exact .inr ⟨rfl, le.trans soon⟩
  · simp only [ProviderState.recordFailure, ProviderState.trips, fifth, decide_false, if_false,
      Bool.false_eq_true]
    exact ⟨h.rateLimits, h.breaks, h.soon, h.past, h.kept⟩

theorem Remembers.recordSuccess (h : d.Remembers) (sent : Sent)
    (later : d.provider.circuitOpen = true → d.provider.circuitOpenUntil ≤ d.clock) :
    Remembers { d with
      provider := d.provider.recordSuccess
      breaks := if d.afterBreak sent then [] else d.breaks } := by
  refine ⟨h.rateLimits, ?_, h.soon, h.past, h.kept⟩
  intro t tripped
  simp only at tripped
  split at tripped
  · cases tripped
  · rcases h.breaks t tripped with passed | ⟨opened, le⟩
    · exact .inl passed
    · exact .inl (le.trans (later opened))

theorem Remembers.step {e : Event} (h : d.Remembers) (order : InGoodOrder d e)
    (step : d.step e = some d') : d'.Remembers := by
  cases e with
  | tick n =>
    cases step
    exact h.tick n
  | check w =>
    obtain ⟨-, step⟩ := Option.ite_none_left_eq_some.mp step
    cases step
    exact ⟨h.rateLimits, h.breaks, h.soon, h.past, h.kept⟩
  | dispatch w =>
    obtain ⟨-, step⟩ := Option.ite_none_right_eq_some.mp step
    cases step
    exact h.dispatch w order
  | recordRateLimit retryAfter =>
    cases step
    exact h.recordRateLimit order
  | recordFailure =>
    cases step
    exact h.recordFailure
  | recordSuccess k =>
    obtain ⟨sent, -, rfl⟩ := Option.map_eq_some_iff.mp step
    exact h.recordSuccess sent order

end Dispatcher

/-- With the records in a good order no notification is sent before a deadline. -/
theorem backoff_kept {d : Dispatcher} (h : dispatching.Reach InGoodOrder d) : d.BackoffKept := by
  have remembers : d.Remembers := by
    refine h.invariant ?_ fun d e d' h order step => h.step order step
    rintro d ⟨clock, rfl⟩
    exact Dispatcher.new_remembers clock
  exact remembers.kept

/-! ## Two answers in the wrong order -/

namespace Sample

/-- Five failures, a request after the break, and its success. -/
def fiveFailures : List Event :=
  List.replicate 5 .recordFailure ++ [.tick (31 * second), .check 0, .dispatch 0, .recordSuccess 0,
    .check 1, .dispatch 1]

/-- Worker 0 is told to wait for a minute, and then worker 1 to wait for a second. -/
def shorterLimit : List Event :=
  [.recordRateLimit (60 * second), .recordRateLimit second, .tick (2 * second), .check 0,
    .dispatch 0]

theorem new_reach (ok : Dispatcher → Event → Prop) : dispatching.Reach ok (.new 0) :=
  .start ⟨0, rfl⟩

theorem fiveFailures_isSome :
    (dispatching.follow InGoodOrder (.new 0) fiveFailures).isSome := by rfl

theorem shorterLimit_isSome :
    (dispatching.follow (fun _ _ => True) (.new 0) shorterLimit).isSome := by rfl

end Sample

open Sample in
theorem backoff_kept_sample : Dispatcher.BackoffKept
    ((dispatching.follow InGoodOrder (.new 0) fiveFailures).get fiveFailures_isSome) :=
  backoff_kept ((new_reach _).follow (Option.some_get fiveFailures_isSome).symm)

open Sample in
/-- The shorter limit replaces the longer one, and a notification goes out after two seconds. -/
theorem backoff_broken : ∃ d, dispatching.Reachable d ∧
    d.dispatched = [⟨2 * second, [second, 60 * second]⟩] ∧ ¬ d.BackoffKept := by
  refine ⟨(dispatching.follow (fun _ _ => True) (.new 0) shorterLimit).get shorterLimit_isSome,
    (new_reach _).follow (Option.some_get shorterLimit_isSome).symm, ?_, ?_⟩
  · rfl
  · decide

end GenChat.Push
