import GenChat.Library.TokenBucket
import Mathlib.Data.Rat.Floor

/-!
# Rate limiters

`TieredRateLimiter` keeps a bucket for every action and key, `IPRateLimiter` one for every address;
both drop buckets that have been idle for long. Numbers are exact, and times are in seconds.

The buckets of two actions are apart because the name of an action has no colon. A refused request
is told when to come back in whole seconds, rounded down.
-/
namespace GenChat.Auth
open Library

structure TokenBucket where
  tokens : ℚ
  maxTokens : ℚ
  refillRate : ℚ
  lastRefill : ℚ
  deriving DecidableEq

structure TieredRateLimiter where
  buckets : String → Option TokenBucket

/-- `int` of a float: towards zero. -/
def truncate (q : ℚ) : Int := q.num.tdiv q.den

namespace TokenBucket

/-- The tokens after the refill. -/
def refilled (b : TokenBucket) (now : ℚ) : ℚ :=
  let tokens := b.tokens + (now - b.lastRefill) * b.refillRate
  if b.maxTokens < tokens then b.maxTokens else tokens

/-- The estimated delay of a refused request. -/
def retrySec (b : TokenBucket) (tokens : ℚ) : Int :=
  let missing := 1 - tokens
  let retrySec := truncate (missing / b.refillRate)
  if retrySec < 1 then 1 else retrySec

end TokenBucket

namespace TieredRateLimiter

def new : TieredRateLimiter := ⟨fun _ => none⟩

/-- `maxTokens` and `refillRate` of an action. -/
def rates : String → BucketParams ℚ
  | "registration" => ⟨10, 10 / 3600⟩
  | "prekey_upload" => ⟨20, 20 / 3600⟩
  | "channel_create" => ⟨30, 30 / 3600⟩
  | "device_link" => ⟨15, 15 / 3600⟩
  | "abuse_report" => ⟨10, 10 / 3600⟩
  | "backup_recovery" => ⟨5, 5 / 900⟩
  | _ => ⟨120, 2⟩

def bucketKey (action key : String) : String := action ++ ":" ++ key

def set (l : TieredRateLimiter) (bucketKey : String) (b : TokenBucket) : TieredRateLimiter :=
  ⟨Function.update l.buckets bucketKey (some b)⟩

def allow (l : TieredRateLimiter) (action key : String) (now : ℚ) :
    (Bool × Int) × TieredRateLimiter :=
  match l.buckets (bucketKey action key) with
  | none =>
    let P := rates action
    ((true, 0), l.set (bucketKey action key) ⟨P.maxTokens - 1, P.maxTokens, P.refillRate, now⟩)
  | some b =>
    let tokens := b.refilled now
    if 1 ≤ tokens then
      ((true, 0), l.set (bucketKey action key) { b with tokens := tokens - 1, lastRefill := now })
    else
      ((false, b.retrySec tokens),
        l.set (bucketKey action key) { b with tokens := tokens, lastRefill := now })

/-- A round of the garbage collection. -/
def collect (l : TieredRateLimiter) (now : ℚ) : TieredRateLimiter :=
  ⟨fun k => (l.buckets k).filter fun b => ¬ 3600 < now - b.lastRefill⟩

end TieredRateLimiter

structure ClientVisitor where
  tokens : ℚ
  lastRefill : ℚ
  deriving DecidableEq

structure IPRateLimiter where
  visitors : String → Option ClientVisitor
  ratePerMin : ℚ
  burst : ℚ

namespace IPRateLimiter

def new (ratePerMinute burst : Int) : IPRateLimiter := ⟨fun _ => none, ratePerMinute, burst⟩

def set (l : IPRateLimiter) (ip : String) (v : ClientVisitor) : IPRateLimiter :=
  { l with visitors := Function.update l.visitors ip (some v) }

def allow (l : IPRateLimiter) (ip : String) (now : ℚ) : Bool × IPRateLimiter :=
  match l.visitors ip with
  | none => (true, l.set ip ⟨l.burst - 1, now⟩)
  | some v =>
    let tokens := v.tokens + (now - v.lastRefill) * (l.ratePerMin / 60)
    let tokens := if l.burst < tokens then l.burst else tokens
    if 1 ≤ tokens then (true, l.set ip ⟨tokens - 1, now⟩)
    else (false, l.set ip ⟨tokens, now⟩)

/-- A round of the clean-up. -/
def collect (l : IPRateLimiter) (now : ℚ) : IPRateLimiter :=
  { l with visitors := fun ip => (l.visitors ip).filter fun v => ¬ 600 < now - v.lastRefill }

end IPRateLimiter

/-! ## Runs -/

inductive TieredEvent where
  | allow (action key : String)
  | collect
  deriving DecidableEq

structure TieredAnswer where
  time : ℚ
  action : String
  key : String
  allowed : Bool
  retryAfter : Int
  deriving DecidableEq

namespace TieredRateLimiter

def run : TieredRateLimiter → List (ℚ × TieredEvent) → List TieredAnswer
  | _, [] => []
  | l, (now, .allow action key) :: es =>
    let r := l.allow action key now
    ⟨now, action, key, r.1.1, r.1.2⟩ :: run r.2 es
  | l, (now, .collect) :: es => run (l.collect now) es

def after : TieredRateLimiter → List (ℚ × TieredEvent) → TieredRateLimiter
  | l, [] => l
  | l, (now, .allow action key) :: es => after (l.allow action key now).2 es
  | l, (now, .collect) :: es => after (l.collect now) es

end TieredRateLimiter

inductive IPEvent where
  | allow (ip : String)
  | collect
  deriving DecidableEq

structure IPAnswer where
  time : ℚ
  ip : String
  allowed : Bool
  deriving DecidableEq

namespace IPRateLimiter

def run : IPRateLimiter → List (ℚ × IPEvent) → List IPAnswer
  | _, [] => []
  | l, (now, .allow ip) :: es => ⟨now, ip, (l.allow ip now).1⟩ :: run (l.allow ip now).2 es
  | l, (now, .collect) :: es => run (l.collect now) es

end IPRateLimiter

/-! ## Buckets of actions and keys -/

/-- Times do not decrease. -/
def InOrder {ε : Type} (es : List (ℚ × ε)) : Prop := es.Pairwise (·.1 ≤ ·.1)

instance {ε : Type} (es : List (ℚ × ε)) : Decidable (InOrder es) :=
  inferInstanceAs (Decidable (es.Pairwise _))

theorem InOrder.from {ε κ : Type} {f : ε → BucketEvent κ} {es : List (ℚ × ε)} (h : InOrder es) :
    ∃ now, Buckets.From now (es.map fun e => (e.1, f e.2)) := by
  cases es with
  | nil => exact ⟨0, nofun, .nil⟩
  | cons e es =>
    obtain ⟨first, rest⟩ := List.pairwise_cons.mp h
    refine ⟨e.1, ?_, h.map _ fun _ _ le => le⟩
    intro e' mem
    obtain ⟨e'', there, rfl⟩ := List.mem_map.mp mem
    rcases List.mem_cons.mp there with same | later
    · rw [same]
    · exact first e'' later

/-- `if max < tokens { tokens = max }`. -/
theorem capped (max tokens : ℚ) : (if max < tokens then max else tokens) = min max tokens := by
  split
  · rename_i full
    exact (min_eq_left full.le).symm
  · rename_i room
    exact (min_eq_right (not_lt.mp room)).symm

/-- No action has a colon in its name. -/
def PlainAction (action : String) : Prop := ':' ∉ action.toList

def TieredEvent.Plain : TieredEvent → Prop
  | .allow action _ => PlainAction action
  | .collect => True

instance (action : String) : Decidable (PlainAction action) := inferInstanceAs (Decidable (_ ∉ _))

instance : (e : TieredEvent) → Decidable e.Plain
  | .allow action _ => inferInstanceAs (Decidable (PlainAction action))
  | .collect => instDecidableTrue

def TieredEvent.bucketEvent : TieredEvent → BucketEvent (String × String)
  | .allow action key => .request (action, key)
  | .collect => .sweep

theorem split_colon {a a' k k' : List Char} (plain : ':' ∉ a) (plain' : ':' ∉ a')
    (same : a ++ ':' :: k = a' ++ ':' :: k') : a = a' ∧ k = k' := by
  induction a generalizing a' with
  | nil =>
    cases a' with
    | nil =>
      cases same
      exact ⟨rfl, rfl⟩
    | cons c a' =>
      cases same
      exact absurd List.mem_cons_self plain'
  | cons c a ih =>
    cases a' with
    | nil =>
      cases same
      exact absurd List.mem_cons_self plain
    | cons c' a' =>
      obtain ⟨rfl, rest⟩ := List.cons.inj same
      obtain ⟨rfl, rfl⟩ :=
        ih (fun mem => plain (.tail _ mem)) (fun mem => plain' (.tail _ mem)) rest
      exact ⟨rfl, rfl⟩

namespace TieredRateLimiter

theorem bucketKey_inj {action action' key key' : String} (plain : PlainAction action)
    (plain' : PlainAction action') (same : bucketKey action key = bucketKey action' key') :
    action = action' ∧ key = key' := by
  have chars := congrArg String.toList same
  simp only [bucketKey, String.toList_append] at chars
  have colon : ":".toList = [':'] := rfl
  rw [colon, List.append_assoc, List.append_assoc] at chars
  obtain ⟨same, same'⟩ := split_colon plain plain' chars
  exact ⟨String.toList_injective same, String.toList_injective same'⟩

/-- Every bucket fills up within an hour. -/
theorem rates_refills (action : String) : Buckets.Refills (rates action) 3600 := by
  unfold rates
  split <;> constructor <;> norm_num

def params (k : String × String) : BucketParams ℚ := rates k.1

theorem params_refills (k : String × String) : Buckets.Refills (params k) 3600 :=
  rates_refills k.1

/-- The row of a bucket. -/
def row (action : String) (b : Bucket ℚ) : TokenBucket :=
  ⟨b.tokens, (rates action).maxTokens, (rates action).refillRate, b.lastRefill⟩

/-- The limiter holds these buckets. -/
def Holds (l : TieredRateLimiter) (s : Buckets.State ℚ (String × String)) : Prop :=
  ∀ action key, PlainAction action →
    l.buckets (bucketKey action key) = (s (action, key)).map (row action)

/-- What a request is told that finds this level. -/
def answer (a : BucketAnswer ℚ (String × String)) : TieredAnswer where
  time := a.time
  action := a.key.1
  key := a.key.2
  allowed := 1 ≤ a.level
  retryAfter := if 1 ≤ a.level then 0 else (row a.key.1 ⟨0, 0⟩).retrySec a.level

variable {l : TieredRateLimiter} {s : Buckets.State ℚ (String × String)} {action key : String}
  {now : ℚ}

theorem refilled_row (b : Bucket ℚ) :
    (row action b).refilled now = Bucket.level (rates action) (some b) now := capped _ _

theorem new_holds : new.Holds fun _ => none := fun _ _ _ => rfl

theorem Holds.set (h : l.Holds s) (plain : PlainAction action) (b : Bucket ℚ) :
    (l.set (bucketKey action key) (row action b)).Holds
      (Function.update s (action, key) (some b)) := by
  intro action' key' plain'
  by_cases same : (action', key') = (action, key)
  · cases same
    simp [TieredRateLimiter.set]
  · have other : bucketKey action' key' ≠ bucketKey action key := by
      intro same'
      obtain ⟨rfl, rfl⟩ := bucketKey_inj plain' plain same'
      exact same rfl
    rw [Function.update_of_ne same]
    exact (Function.update_of_ne other _ _).trans (h action' key' plain')

/-- One request is a request to its bucket. -/
theorem Holds.allow (h : l.Holds s) (plain : PlainAction action) (key : String) (now : ℚ) :
    let level := Bucket.level (rates action) (s (action, key)) now
    (l.allow action key now).1 =
        (decide (1 ≤ level), if 1 ≤ level then 0 else (row action ⟨0, 0⟩).retrySec level) ∧
      (l.allow action key now).2.Holds (Function.update s (action, key)
        (some (Bucket.take (rates action) (s (action, key)) now))) := by
  have held := h action key plain
  unfold TieredRateLimiter.allow
  cases found : s (action, key) with
  | none =>
    rw [found, Option.map_none] at held
    have one := (rates_refills action).max
    have full : 1 ≤ Bucket.level (rates action) none now := one
    simp only [held, full, if_true, decide_true, Bucket.take]
    exact ⟨trivial, h.set plain ⟨_, now⟩⟩
  | some b =>
    rw [found, Option.map_some] at held
    simp only [held, refilled_row]
    by_cases enough : 1 ≤ Bucket.level (rates action) (some b) now
    · simp only [enough, if_true, decide_true, Bucket.take]
      exact ⟨trivial, h.set plain ⟨_, now⟩⟩
    · simp only [enough, if_false, decide_false, Bucket.take]
      exact ⟨rfl, h.set plain ⟨_, now⟩⟩

theorem Holds.collect (h : l.Holds s) : (l.collect now).Holds (Buckets.sweep 3600 s now) := by
  intro action key plain
  simp only [TieredRateLimiter.collect, Buckets.sweep, h action key plain]
  cases s (action, key) with
  | none => rfl
  | some b =>
    change (if decide (¬ 3600 < now - b.lastRefill) = true then some (row action b) else none) =
      Option.map (row action) (if decide (¬ 3600 < now - b.lastRefill) = true then some b else none)
    split <;> rfl

variable {es : List (ℚ × TieredEvent)}

def bucketEvents (es : List (ℚ × TieredEvent)) : List (ℚ × BucketEvent (String × String)) :=
  es.map fun e => (e.1, e.2.bucketEvent)

theorem run_eq (h : l.Holds s) (plain : ∀ e ∈ es, e.2.Plain) :
    l.run es = (Buckets.run params 3600 s (bucketEvents es)).map answer := by
  induction es generalizing l s with
  | nil => rfl
  | cons e es ih =>
    obtain ⟨now, event⟩ := e
    obtain ⟨here, rest⟩ := List.forall_mem_cons.mp plain
    cases event with
    | allow action key =>
      obtain ⟨answered, held⟩ := h.allow here key now
      rw [run, bucketEvents, List.map_cons, TieredEvent.bucketEvent, Buckets.run, List.map_cons]
      exact congrArg₂ _ (by simp only [answered]; rfl) (ih held rest)
    | collect => exact ih h.collect rest

theorem after_holds (h : l.Holds s) (plain : ∀ e ∈ es, e.2.Plain) :
    (l.after es).Holds (Buckets.after params 3600 s (bucketEvents es)) := by
  induction es generalizing l s with
  | nil => exact h
  | cons e es ih =>
    obtain ⟨now, event⟩ := e
    obtain ⟨here, rest⟩ := List.forall_mem_cons.mp plain
    cases event with
    | allow action key => exact ih (h.allow here key now).2 rest
    | collect => exact ih h.collect rest

/-! ## How much is granted, and what it depends on -/

/-- The request was allowed in the window of `T` seconds from `start` on. -/
def allowedIn (action key : String) (start T : ℚ) (a : TieredAnswer) : Bool :=
  a.action = action ∧ a.key = key ∧ start ≤ a.time ∧ a.time ≤ start + T ∧ a.allowed

def concerns (action key : String) (a : TieredAnswer) : Bool :=
  (a.action, a.key) = (action, key)

/-- The calls for one action and key. -/
def callsFor (action key : String) (e : ℚ × TieredEvent) : Bool := e.2 = .allow action key

def isCall (e : ℚ × TieredEvent) : Bool := e.2 ≠ .collect

theorem bucketEvents_filter (keep : String × String → Bool) (p : ℚ × TieredEvent → Bool)
    (same : ∀ e, p e = Buckets.requests keep (e.1, e.2.bucketEvent)) :
    (bucketEvents es).filter (Buckets.requests keep) = bucketEvents (es.filter p) := by
  rw [bucketEvents, List.filter_map, bucketEvents]
  refine congrArg _ (List.filter_congr fun e _ => ?_)
  exact (same e).symm

/-- Answers that are kept are those of a limiter that gets only the requests that are kept. -/
theorem run_filter {es : List (ℚ × TieredEvent)} (order : InOrder es) (plain : ∀ e ∈ es, e.2.Plain)
    (keep : String × String → Bool) (p : ℚ × TieredEvent → Bool)
    (same : ∀ e, p e = Buckets.requests keep (e.1, e.2.bucketEvent)) :
    (new.run es).filter (fun a => keep (a.action, a.key)) = new.run (es.filter p) := by
  obtain ⟨now, times⟩ := order.from (f := TieredEvent.bucketEvent)
  have empty : Buckets.Proper params now fun _ => none := fun _ => nofun
  have kept := Buckets.run_filter params_refills keep empty empty (fun _ _ => .refl _ _) times
  rw [run_eq new_holds plain, run_eq new_holds fun e he => plain e (List.mem_of_mem_filter he),
    List.filter_map, ← bucketEvents_filter keep p same]
  exact congrArg _ kept

/-- What is allowed in a window: a full bucket, and what flows in. -/
theorem allowed_le {es : List (ℚ × TieredEvent)} (order : InOrder es) (plain : ∀ e ∈ es, e.2.Plain)
    (action key : String) (start : ℚ) {T : ℚ} (hT : 0 ≤ T) :
    ((new.run es).countP (allowedIn action key start T) : ℚ) ≤
      (rates action).maxTokens + (rates action).refillRate * T := by
  obtain ⟨now, times⟩ := order.from (f := TieredEvent.bucketEvent)
  have empty : Buckets.Proper params now fun _ => none := fun _ => nofun
  have window : start ≤ start + T := le_add_of_nonneg_right hT
  have bound := Buckets.granted_le params_refills (action, key) empty times window
  rw [add_sub_cancel_left] at bound
  refine le_trans (Nat.cast_le.mpr (le_of_eq ?_)) bound
  rw [run_eq new_holds plain, List.countP_map]
  refine List.countP_congr fun a _ => ?_
  simp [allowedIn, Buckets.grantedIn, answer, Prod.ext_iff, and_assoc]

end TieredRateLimiter

namespace IPRateLimiter

def bucketEvent : IPEvent → BucketEvent String
  | .allow ip => .request ip
  | .collect => .sweep

def isCall (e : ℚ × IPEvent) : Bool := e.2 ≠ .collect

/-- The bucket of every address. -/
def bucket (ratePerMin burst : ℚ) : BucketParams ℚ := ⟨burst, ratePerMin / 60⟩

/-- The limiter holds these buckets. -/
structure Holds (l : IPRateLimiter) (ratePerMin burst : ℚ) (s : Buckets.State ℚ String) : Prop where
  ratePerMin : l.ratePerMin = ratePerMin
  burst : l.burst = burst
  visitors : ∀ ip, l.visitors ip = (s ip).map fun b => ⟨b.tokens, b.lastRefill⟩

variable {l : IPRateLimiter} {ratePerMin burst : ℚ} {s : Buckets.State ℚ String} {ip : String}
  {now : ℚ} {es : List (ℚ × IPEvent)}

theorem Holds.set (h : l.Holds ratePerMin burst s) (b : Bucket ℚ) :
    (l.set ip ⟨b.tokens, b.lastRefill⟩).Holds ratePerMin burst
      (Function.update s ip (some b)) := by
  refine ⟨h.ratePerMin, h.burst, fun ip' => ?_⟩
  by_cases same : ip' = ip
  · subst same
    simp [IPRateLimiter.set]
  · rw [Function.update_of_ne same]
    exact (Function.update_of_ne same _ _).trans (h.visitors ip')

theorem Holds.allow (h : l.Holds ratePerMin burst s) (one : 1 ≤ burst) (ip : String) (now : ℚ) :
    (l.allow ip now).1 = decide (1 ≤ Bucket.level (bucket ratePerMin burst) (s ip) now) ∧
      (l.allow ip now).2.Holds ratePerMin burst (Function.update s ip
        (some (Bucket.take (bucket ratePerMin burst) (s ip) now))) := by
  have held := h.visitors ip
  unfold IPRateLimiter.allow
  cases found : s ip with
  | none =>
    rw [found, Option.map_none] at held
    have full : 1 ≤ Bucket.level (bucket ratePerMin burst) none now := one
    simp only [held, full, if_true, decide_true, Bucket.take]
    rw [h.burst]
    exact ⟨trivial, h.set ⟨_, now⟩⟩
  | some b =>
    rw [found, Option.map_some] at held
    have refilled : (if l.burst < b.tokens + (now - b.lastRefill) * (l.ratePerMin / 60) then l.burst
        else b.tokens + (now - b.lastRefill) * (l.ratePerMin / 60)) =
        Bucket.level (bucket ratePerMin burst) (some b) now := by
      rw [h.burst, h.ratePerMin]
      exact capped _ _
    simp only [held, refilled]
    by_cases enough : 1 ≤ Bucket.level (bucket ratePerMin burst) (some b) now
    · simp only [enough, if_true, decide_true, Bucket.take]
      exact ⟨trivial, h.set ⟨_, now⟩⟩
    · simp only [enough, if_false, decide_false, Bucket.take]
      exact ⟨trivial, h.set ⟨_, now⟩⟩

theorem Holds.collect (h : l.Holds ratePerMin burst s) :
    (l.collect now).Holds ratePerMin burst (Buckets.sweep 600 s now) := by
  refine ⟨h.ratePerMin, h.burst, fun ip => ?_⟩
  simp only [IPRateLimiter.collect, Buckets.sweep, h.visitors ip]
  cases s ip with
  | none => rfl
  | some b =>
    change (if decide (¬ 600 < now - b.lastRefill) = true then some _ else none) =
      Option.map _ (if decide (¬ 600 < now - b.lastRefill) = true then some b else none)
    split <;> rfl

def answer (a : BucketAnswer ℚ String) : IPAnswer := ⟨a.time, a.key, 1 ≤ a.level⟩

theorem run_eq (h : l.Holds ratePerMin burst s) (one : 1 ≤ burst) :
    l.run es = (Buckets.run (fun _ => bucket ratePerMin burst) 600 s
      (es.map fun e => (e.1, bucketEvent e.2))).map answer := by
  induction es generalizing l s with
  | nil => rfl
  | cons e es ih =>
    obtain ⟨now, event⟩ := e
    cases event with
    | allow ip =>
      obtain ⟨answered, held⟩ := h.allow one ip now
      rw [run, List.map_cons, bucketEvent, Buckets.run, List.map_cons]
      exact congrArg₂ _ (by simp only [answered]; rfl) (ih held)
    | collect => exact ih h.collect

/-- The clean-up goes unnoticed where a bucket fills up within ten minutes. -/
theorem run_calls {ratePerMinute burst : Int} {es : List (ℚ × IPEvent)} (order : InOrder es)
    (refills : Buckets.Refills (bucket ratePerMinute burst) 600) :
    (new ratePerMinute burst).run es = (new ratePerMinute burst).run (es.filter isCall) := by
  obtain ⟨now, times⟩ := order.from (f := bucketEvent)
  have empty : Buckets.Proper (fun _ : String => bucket ratePerMinute burst) now fun _ => none :=
    fun _ => nofun
  have holds : (new ratePerMinute burst).Holds ratePerMinute burst fun _ => none :=
    ⟨rfl, rfl, fun _ => rfl⟩
  have kept := Buckets.run_filter (fun _ => refills) (fun _ => true) empty empty
    (fun _ _ => .refl _ _) times
  rw [List.filter_eq_self.mpr fun _ _ => rfl, List.filter_map] at kept
  rw [run_eq holds refills.max, run_eq holds refills.max, kept]
  refine congrArg (fun es => (Buckets.run _ _ _ (List.map _ es)).map answer) ?_
  refine List.filter_congr fun e _ => ?_
  obtain ⟨now, event⟩ := e
  cases event <;> rfl

end IPRateLimiter

/-! ## Both limiters -/

namespace Sample

/-- Ten registrations at once from one address. -/
def tenRegistrations : List (ℚ × TieredEvent) :=
  List.replicate 10 (0, .allow "registration" "198.51.100.7")

/-- One more after an hour, and a round of the garbage collection after two. -/
def registrations : List (ℚ × TieredEvent) :=
  tenRegistrations ++ [(3600, .allow "registration" "198.51.100.7"), (7201, .collect),
    (7202, .allow "registration" "198.51.100.7")]

def visits : List (ℚ × IPEvent) := [(0, .allow "198.51.100.7"), (601, .collect),
  (602, .allow "198.51.100.7")]

end Sample

theorem truncate_eq_floor {q : ℚ} (h : 0 ≤ q) : truncate q = ⌊q⌋ := by
  rw [truncate, Rat.floor_def', Int.tdiv_eq_ediv_of_nonneg (Rat.num_nonneg.mpr h)]

/-- The delay is long enough only for a wait of whole seconds, or of less than one. -/
theorem enough_iff {missing rate : ℚ} (hmissing : 0 < missing) (hrate : 0 < rate) :
    missing ≤ ((if truncate (missing / rate) < 1 then 1 else truncate (missing / rate) : Int) : ℚ) *
      rate ↔ missing ≤ rate ∨ ∃ n : Int, missing = n * rate := by
  have positive : 0 < missing / rate := div_pos hmissing hrate
  rw [truncate_eq_floor positive.le]
  have below : (⌊missing / rate⌋ : ℚ) * rate ≤ missing := by
    rw [← le_div_iff₀ hrate]
    exact Int.floor_le _
  constructor
  · intro enough
    split at enough
    · rw [Int.cast_one, one_mul] at enough
      exact .inl enough
    · exact .inr ⟨_, le_antisymm enough below⟩
  · rintro (short | ⟨n, whole⟩)
    · split
      · rwa [Int.cast_one, one_mul]
      · rename_i one
        have one : (1 : ℚ) ≤ ⌊missing / rate⌋ := by exact_mod_cast not_lt.mp one
        calc missing ≤ 1 * rate := by rwa [one_mul]
          _ ≤ ⌊missing / rate⌋ * rate := mul_le_mul_of_nonneg_right one hrate.le
    · have same : missing / rate = n := by
        rw [whole]
        exact mul_div_cancel_right₀ _ hrate.ne'
      rw [same, Int.floor_intCast]
      have one : ¬ n < 1 := by
        have : (0 : ℚ) < n := same ▸ positive
        have : 0 < n := by exact_mod_cast this
        omega
      rw [if_neg one]
      exact whole.le

namespace TieredRateLimiter

theorem rates_pos (action : String) : 0 < (rates action).refillRate := by
  unfold rates
  split <;> norm_num

/-- The missing part of a token flows in within a second, or in a whole number of seconds. -/
def WholeWait (l : TieredRateLimiter) (action key : String) (now : ℚ) : Prop :=
  ∀ b ∈ l.buckets (bucketKey action key), 1 - b.refilled now ≤ b.refillRate ∨
    ∃ n : Int, 1 - b.refilled now = n * b.refillRate

theorem quiet' {es : List (ℚ × TieredEvent)} {action key : String}
    (quiet : ∀ e ∈ es, e.2 ≠ .allow action key) :
    ∀ e ∈ bucketEvents es, e.2 ≠ .request (action, key) := by
  intro e mem
  obtain ⟨⟨now, event⟩, there, rfl⟩ := List.mem_map.mp mem
  have other := quiet _ there
  cases event <;> simp_all [TieredEvent.bucketEvent]

theorem early' {es : List (ℚ × TieredEvent)} {t : ℚ} (early : ∀ e ∈ es, e.1 ≤ t) :
    ∀ e ∈ bucketEvents es, e.1 ≤ t := by
  intro e mem
  obtain ⟨e', there, rfl⟩ := List.mem_map.mp mem
  exact early e' there

end TieredRateLimiter
end GenChat.Auth
