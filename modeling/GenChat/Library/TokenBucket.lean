import Mathlib.Algebra.Order.Field.Basic
import Mathlib.Tactic

/-!
# Token buckets

A bucket gains tokens at a fixed rate up to a maximum, and every request takes one token if there
is one. A missing bucket counts as a full one. All that a request depends on is the level it finds,
so two buckets are as good as each other if their levels agree from now on; this is how a bucket may
be dropped once it has had the time to fill up.
-/
namespace GenChat.Library

structure BucketParams (K : Type) where
  maxTokens : K
  refillRate : K
  deriving DecidableEq

structure Bucket (K : Type) where
  tokens : K
  lastRefill : K
  deriving DecidableEq

namespace Bucket
variable {K : Type} [Field K] [LinearOrder K] (P : BucketParams K)

/-- The tokens a request finds. -/
def level : Option (Bucket K) → K → K
  | none, _ => P.maxTokens
  | some b, now => min P.maxTokens (b.tokens + (now - b.lastRefill) * P.refillRate)

/-- What a request leaves behind. -/
def take (b : Option (Bucket K)) (now : K) : Bucket K :=
  ⟨if 1 ≤ level P b now then level P b now - 1 else level P b now, now⟩

/-- A bucket as requests up to now leave it. -/
def Proper (now : K) (b : Option (Bucket K)) : Prop :=
  ∀ x ∈ b, 0 ≤ x.tokens ∧ x.tokens ≤ P.maxTokens ∧ x.lastRefill ≤ now

/-- From now on the two cannot be told apart. -/
def Alike (now : K) (b b' : Option (Bucket K)) : Prop :=
  ∀ t, now ≤ t → level P b t = level P b' t

variable {P} {b b' : Option (Bucket K)} {now t : K}

theorem Alike.refl (now : K) (b : Option (Bucket K)) : Alike P now b b := fun _ _ => rfl

theorem Alike.trans {b'' : Option (Bucket K)} (h : Alike P now b b') (h' : Alike P now b' b'') :
    Alike P now b b'' := fun t ht => (h t ht).trans (h' t ht)

theorem Alike.later (h : Alike P now b b') (ht : now ≤ t) : Alike P t b b' :=
  fun u hu => h u (ht.trans hu)

theorem Alike.take (h : Alike P now b b') (ht : now ≤ t) : take P b t = take P b' t := by
  unfold Bucket.take
  rw [h t ht]

theorem Proper.later (h : Proper P now b) (ht : now ≤ t) : Proper P t b :=
  fun x hx => ⟨(h x hx).1, (h x hx).2.1, (h x hx).2.2.trans ht⟩

theorem level_le : level P b t ≤ P.maxTokens := by
  cases b with
  | none => exact le_rfl
  | some x => exact min_le_left _ _

variable [IsStrictOrderedRing K]

theorem level_nonneg (hmax : 1 ≤ P.maxTokens) (hrate : 0 ≤ P.refillRate) (h : Proper P now b)
    (ht : now ≤ t) : 0 ≤ level P b t := by
  have one : (0 : K) ≤ 1 := zero_le_one
  cases b with
  | none => exact one.trans hmax
  | some x =>
    obtain ⟨tokens, -, last⟩ := h x rfl
    refine le_min (one.trans hmax) (add_nonneg tokens (mul_nonneg ?_ hrate))
    exact sub_nonneg.mpr (last.trans ht)

theorem take_proper (hmax : 1 ≤ P.maxTokens) (hrate : 0 ≤ P.refillRate) (h : Proper P now b)
    (ht : now ≤ t) : Proper P t (some (take P b t)) := by
  rintro x ⟨⟩
  have nonneg := level_nonneg hmax hrate h ht
  have le := level_le (P := P) (b := b) (t := t)
  unfold take
  split
  · rename_i enough
    exact ⟨sub_nonneg.mpr enough, (sub_le_self _ zero_le_one).trans le, le_rfl⟩
  · exact ⟨nonneg, le, le_rfl⟩

/-- Waiting adds tokens at the rate, until the bucket is full. -/
theorem level_add (hrate : 0 ≤ P.refillRate) (ht : now ≤ t) :
    level P b t ≤ level P b now + P.refillRate * (t - now) := by
  have gain : 0 ≤ P.refillRate * (t - now) := mul_nonneg hrate (sub_nonneg.mpr ht)
  cases b with
  | none => exact le_add_of_nonneg_right gain
  | some x =>
    simp only [level]
    rw [← min_add_add_right]
    refine min_le_min (le_add_of_nonneg_right gain) (le_of_eq ?_)
    ring

/-- Right after a request the level is what the request has left. -/
theorem level_take : level P (some (take P b t)) t =
    level P b t - if 1 ≤ level P b t then 1 else 0 := by
  have le := level_le (P := P) (b := b) (t := t)
  change min P.maxTokens ((take P b t).tokens + (t - t) * P.refillRate) = _
  rw [sub_self, zero_mul, add_zero, take]
  split
  · exact min_eq_right ((sub_le_self _ zero_le_one).trans le)
  · rw [sub_zero]
    exact min_eq_right le

/-- A bucket that has been left alone for long enough is as good as none. -/
theorem alike_none {x : Bucket K} {idle : K} (hfull : P.maxTokens ≤ P.refillRate * idle)
    (hrate : 0 ≤ P.refillRate) (tokens : 0 ≤ x.tokens) (hidle : idle < now - x.lastRefill) :
    Alike P now none (some x) := by
  intro t ht
  refine (min_eq_left ?_).symm
  have waited : idle ≤ t - x.lastRefill := hidle.le.trans (sub_le_sub_right ht _)
  calc P.maxTokens ≤ P.refillRate * idle := hfull
    _ ≤ P.refillRate * (t - x.lastRefill) := mul_le_mul_of_nonneg_left waited hrate
    _ = (t - x.lastRefill) * P.refillRate := mul_comm _ _
    _ ≤ x.tokens + (t - x.lastRefill) * P.refillRate := le_add_of_nonneg_left tokens

end Bucket

/-! ## Buckets under keys -/

/-- A request under a key, or a sweep that drops the buckets that have been idle. -/
inductive BucketEvent (κ : Type) where
  | request (k : κ)
  | sweep
  deriving DecidableEq

/-- What a request has found: when, under which key, at which level. -/
structure BucketAnswer (K κ : Type) where
  time : K
  key : κ
  level : K
  deriving DecidableEq

namespace Buckets

abbrev State (K κ : Type) := κ → Option (Bucket K)

section Order
variable {K κ : Type} [LinearOrder K]

/-- The events are in order, and none is before now. -/
def From (now : K) (es : List (K × BucketEvent κ)) : Prop :=
  (∀ e ∈ es, now ≤ e.1) ∧ es.Pairwise (·.1 ≤ ·.1)

theorem From.head {now : K} {e : K × BucketEvent κ} {es : List (K × BucketEvent κ)}
    (h : From now (e :: es)) : now ≤ e.1 ∧ From e.1 es :=
  ⟨h.1 e List.mem_cons_self, (List.pairwise_cons.mp h.2).1, (List.pairwise_cons.mp h.2).2⟩

theorem From.again {now : K} {e : K × BucketEvent κ} {es : List (K × BucketEvent κ)}
    (h : From now (e :: es)) : From e.1 (e :: es) :=
  ⟨List.forall_mem_cons.mpr ⟨le_rfl, h.head.2.1⟩, h.2⟩

/-- Before and after an event. -/
theorem From.split {now : K} {e : K × BucketEvent κ} {es es' : List (K × BucketEvent κ)}
    (h : From now (es ++ e :: es')) :
    From now es ∧ (∀ x ∈ es, x.1 ≤ e.1) ∧ now ≤ e.1 ∧ From e.1 es' := by
  obtain ⟨first, second, across⟩ := List.pairwise_append.mp h.2
  refine ⟨⟨fun x hx => h.1 x (List.mem_append_left _ hx), first⟩, ?_, ?_, ?_⟩
  · intro x hx
    exact across x hx e List.mem_cons_self
  · exact h.1 e (by simp)
  · exact ⟨(List.pairwise_cons.mp second).1, (List.pairwise_cons.mp second).2⟩

end Order

variable {K κ : Type} [Field K] [LinearOrder K] (P : κ → BucketParams K) (idle : K)

def Proper (now : K) (s : State K κ) : Prop := ∀ k, Bucket.Proper (P k) now (s k)

def sweep (s : State K κ) (now : K) : State K κ :=
  fun k => (s k).filter fun x => ¬ idle < now - x.lastRefill

/-- The parameters of a bucket that a sweep may drop unnoticed. -/
structure Refills (P : BucketParams K) (idle : K) : Prop where
  max : 1 ≤ P.maxTokens
  rate : 0 ≤ P.refillRate
  full : P.maxTokens ≤ P.refillRate * idle

/-- The requests under the keys that are kept. -/
def requests (keep : κ → Bool) : K × BucketEvent κ → Bool
  | (_, .request k) => keep k
  | (_, .sweep) => false

section Proper
variable {P idle} {s : State K κ} {now t : K}

theorem Proper.later (h : Proper P now s) (ht : now ≤ t) : Proper P t s :=
  fun k => (h k).later ht

theorem Proper.sweep (h : Proper P now s) : Proper P now (sweep idle s t) := by
  intro k x hx
  exact h k x (Option.filter_eq_some_iff.mp hx).1

variable [IsStrictOrderedRing K]

/-- A sweep goes unnoticed. -/
theorem sweep_alike (hP : ∀ k, Refills (P k) idle) (h : Proper P now s) (k : κ) :
    Bucket.Alike (P k) t (sweep idle s t k) (s k) := by
  unfold sweep
  cases held : s k with
  | none => exact .refl _ _
  | some x =>
    by_cases old : idle < t - x.lastRefill
    · rw [Option.filter_some, if_neg (by simp only [old, not_true, decide_false]; nofun)]
      exact Bucket.alike_none (hP k).full (hP k).rate (h k x held).1 old
    · rw [Option.filter_some, if_pos (by simp only [old, not_false_eq_true, decide_true])]
      exact .refl _ _

end Proper

variable [DecidableEq κ]

/-- The answers of a list of events, each with its time. -/
def run : State K κ → List (K × BucketEvent κ) → List (BucketAnswer K κ)
  | _, [] => []
  | s, (now, .request k) :: es =>
    ⟨now, k, Bucket.level (P k) (s k) now⟩ ::
      run (Function.update s k (some (Bucket.take (P k) (s k) now))) es
  | s, (now, .sweep) :: es => run (sweep idle s now) es

/-- The buckets after a list of events. -/
def after : State K κ → List (K × BucketEvent κ) → State K κ
  | s, [] => s
  | s, (now, .request k) :: es =>
    after (Function.update s k (some (Bucket.take (P k) (s k) now))) es
  | s, (now, .sweep) :: es => after (sweep idle s now) es

variable {P idle} {s s' : State K κ} {now t : K} {es : List (K × BucketEvent κ)}

variable [IsStrictOrderedRing K]

theorem Proper.request (hP : ∀ k, Refills (P k) idle) (h : Proper P now s) (ht : now ≤ t) (k : κ) :
    Proper P t (Function.update s k (some (Bucket.take (P k) (s k) t))) := by
  intro k'
  by_cases same : k' = k
  · subst same
    rw [Function.update_self]
    exact Bucket.take_proper (hP k').max (hP k').rate (h k') ht
  · rw [Function.update_of_ne same]
    exact (h k').later ht

/-- Neither sweeps nor requests under other keys can be told from the answers under some keys. -/
theorem run_filter (hP : ∀ k, Refills (P k) idle) (keep : κ → Bool) (proper : Proper P now s)
    (proper' : Proper P now s') (alike : ∀ k, keep k → Bucket.Alike (P k) now (s k) (s' k))
    (times : From now es) :
    (run P idle s es).filter (fun a => keep a.key) = run P idle s' (es.filter (requests keep)) := by
  induction es generalizing s s' now with
  | nil => rfl
  | cons e es ih =>
    obtain ⟨now', event⟩ := e
    obtain ⟨later, rest⟩ := times.head
    cases event with
    | sweep =>
      rw [List.filter_cons_of_neg (by simp [requests]), run]
      refine ih (proper.later later).sweep (proper'.later later) (fun k kept => ?_) rest
      exact (sweep_alike hP proper k).trans ((alike k kept).later later)
    | request k =>
      by_cases kept : keep k
      · rw [List.filter_cons_of_pos (show requests keep (now', .request k) = true from kept), run,
          run, List.filter_cons_of_pos (p := fun a : BucketAnswer K κ => keep a.key) kept,
          (alike k kept) now' later, (alike k kept).take later]
        refine congrArg _ (ih ?_ (proper'.request hP later k) (fun k' kept' => ?_) rest)
        · rw [← (alike k kept).take later]
          exact proper.request hP later k
        · by_cases same : k' = k
          · subst same
            rw [Function.update_self, Function.update_self]
            exact .refl _ _
          · rw [Function.update_of_ne same, Function.update_of_ne same]
            exact (alike k' kept').later later
      · rw [List.filter_cons_of_neg (show ¬ requests keep (now', .request k) = true from kept), run,
          List.filter_cons_of_neg (p := fun a : BucketAnswer K κ => keep a.key) kept]
        refine ih (proper.request hP later k) (proper'.later later) (fun k' kept' => ?_) rest
        have other : k' ≠ k := fun same => kept (same ▸ kept')
        rw [Function.update_of_ne other]
        exact (alike k' kept').later later

theorem after_proper (hP : ∀ k, Refills (P k) idle) (proper : Proper P now s) (times : From now es)
    (hes : ∀ e ∈ es, e.1 ≤ t) (ht : now ≤ t) : Proper P t (after P idle s es) := by
  induction es generalizing s now with
  | nil => exact proper.later ht
  | cons e es ih =>
    obtain ⟨now', event⟩ := e
    obtain ⟨later, rest⟩ := times.head
    obtain ⟨here, inTime⟩ := List.forall_mem_cons.mp hes
    cases event with
    | sweep => exact ih (proper.later later).sweep rest inTime here
    | request k => exact ih (proper.request hP later k) rest inTime here

/-- Without a request under its key a bucket stays as good as it was. -/
theorem after_alike (hP : ∀ k, Refills (P k) idle) {k : κ} (proper : Proper P now s)
    (times : From now es) (quiet : ∀ e ∈ es, e.2 ≠ .request k) (hes : ∀ e ∈ es, e.1 ≤ t)
    (ht : now ≤ t) : Bucket.Alike (P k) t (after P idle s es k) (s k) := by
  induction es generalizing s now with
  | nil => exact .refl _ _
  | cons e es ih =>
    obtain ⟨now', event⟩ := e
    obtain ⟨later, rest⟩ := times.head
    obtain ⟨here, inTime⟩ := List.forall_mem_cons.mp hes
    obtain ⟨other, still⟩ := List.forall_mem_cons.mp quiet
    cases event with
    | sweep =>
      refine (ih (proper.later later).sweep rest still inTime here).trans ?_
      exact (sweep_alike hP proper k).later here
    | request k' =>
      refine (ih (proper.request hP later k') rest still inTime here).trans ?_
      have other : k ≠ k' := by
        rintro rfl
        exact other rfl
      rw [Function.update_of_ne other]
      exact .refl _ _

/-! ### Windows -/

/-- Granted under the key up to a moment. -/
def grantedUntil (k : κ) (finish : K) (a : BucketAnswer K κ) : Bool :=
  a.key = k ∧ a.time ≤ finish ∧ 1 ≤ a.level

/-- Granted under the key in a window. -/
def grantedIn (k : κ) (start finish : K) (a : BucketAnswer K κ) : Bool :=
  a.key = k ∧ start ≤ a.time ∧ a.time ≤ finish ∧ 1 ≤ a.level

omit [IsStrictOrderedRing K] in
theorem run_time (times : From now es) : ∀ a ∈ run P idle s es, now ≤ a.time := by
  induction es generalizing s now with
  | nil => nofun
  | cons e es ih =>
    obtain ⟨now', event⟩ := e
    obtain ⟨later, rest⟩ := times.head
    cases event with
    | sweep => exact fun a ha => later.trans (ih rest a ha)
    | request k =>
      intro a ha
      obtain rfl | ha := List.mem_cons.mp ha
      · exact later
      · exact later.trans (ih rest a ha)

omit [IsStrictOrderedRing K] in
theorem granted_eq_zero {k : κ} {finish : K} (past : finish < now) (times : From now es) :
    (run P idle s es).countP (grantedUntil k finish) = 0 := by
  refine List.countP_eq_zero.mpr fun a ha granted => ?_
  simp only [grantedUntil, decide_eq_true_eq] at granted
  exact absurd (past.trans_le (run_time times a ha)) (not_lt.mpr granted.2.1)

/-- What is granted from now on is paid for by the level now and by what flows in. -/
theorem granted_le_level (hP : ∀ k, Refills (P k) idle) (k : κ) {finish : K}
    (proper : Proper P now s) (times : From now es) (hfinish : now ≤ finish) :
    ((run P idle s es).countP (grantedUntil k finish) : K) ≤
      Bucket.level (P k) (s k) now + (P k).refillRate * (finish - now) := by
  have rate := (hP k).rate
  induction es generalizing s now with
  | nil =>
    rw [run, List.countP_nil, Nat.cast_zero]
    exact add_nonneg (Bucket.level_nonneg (hP k).max rate (proper k) le_rfl)
      (mul_nonneg rate (sub_nonneg.mpr hfinish))
  | cons e es ih =>
    obtain ⟨now', event⟩ := e
    obtain ⟨later, rest⟩ := times.head
    rcases lt_or_ge finish now' with past | inTime
    · have all : From now' ((now', event) :: es) :=
        ⟨List.forall_mem_cons.mpr ⟨le_rfl, rest.1⟩, times.2⟩
      rw [granted_eq_zero past all, Nat.cast_zero]
      exact add_nonneg (Bucket.level_nonneg (hP k).max rate (proper k) le_rfl)
        (mul_nonneg rate (sub_nonneg.mpr hfinish))
    have grown := Bucket.level_add (b := s k) rate later
    have split : (P k).refillRate * (finish - now) =
        (P k).refillRate * (now' - now) + (P k).refillRate * (finish - now') := by ring
    cases event with
    | sweep =>
      rw [run]
      have swept : Proper P now' (sweep idle s now') := (proper.later later).sweep
      have spent := ih swept rest inTime
      rw [sweep_alike hP proper k now' le_rfl] at spent
      simp only at grown
      linarith
    | request k' =>
      have spent := ih (proper.request hP later k') rest inTime
      simp only at grown
      rw [run, List.countP_cons, Nat.cast_add]
      by_cases same : k = k'
      · subst same
        rw [Function.update_self, Bucket.level_take] at spent
        by_cases enough : 1 ≤ Bucket.level (P k) (s k) now'
        · rw [if_pos enough] at spent
          rw [if_pos (by simpa [grantedUntil] using ⟨inTime, enough⟩), Nat.cast_one]
          linarith
        · rw [if_neg enough] at spent
          rw [if_neg (by simpa [grantedUntil] using fun _ => enough), Nat.cast_zero]
          linarith
      · rw [Function.update_of_ne same] at spent
        rw [if_neg (by simp [grantedUntil, Ne.symm same]), Nat.cast_zero]
        linarith

/-- In every window no more is granted than a full bucket and what flows in meanwhile. -/
theorem granted_le (hP : ∀ k, Refills (P k) idle) (k : κ) {start finish : K}
    (proper : Proper P now s) (times : From now es) (hfinish : start ≤ finish) :
    ((run P idle s es).countP (grantedIn k start finish) : K) ≤
      (P k).maxTokens + (P k).refillRate * (finish - start) := by
  have rate := (hP k).rate
  have room : 0 ≤ (P k).refillRate * (finish - start) :=
    mul_nonneg rate (sub_nonneg.mpr hfinish)
  have one : (0 : K) ≤ 1 := zero_le_one
  induction es generalizing s now with
  | nil =>
    rw [run, List.countP_nil, Nat.cast_zero]
    exact add_nonneg (one.trans (hP k).max) room
  | cons e es ih =>
    obtain ⟨now', event⟩ := e
    obtain ⟨later, rest⟩ := times.head
    rcases lt_or_ge now' start with before | within
    · cases event with
      | sweep => exact ih (proper.later later).sweep rest
      | request k' =>
        rw [run, List.countP_cons_of_neg (by simp [grantedIn, not_le.mpr before])]
        exact ih (proper.request hP later k') rest
    · have fewer : (run P idle s ((now', event) :: es)).countP (grantedIn k start finish) ≤
          (run P idle s ((now', event) :: es)).countP (grantedUntil k finish) := by
        refine List.countP_mono_left fun a _ granted => ?_
        simp only [grantedIn, grantedUntil, decide_eq_true_eq] at granted ⊢
        exact ⟨granted.1, granted.2.2⟩
      rcases lt_or_ge finish now' with past | inTime
      · rw [granted_eq_zero past times.again] at fewer
        rw [Nat.le_zero.mp fewer, Nat.cast_zero]
        exact add_nonneg (one.trans (hP k).max) room
      · have paid := granted_le_level hP k (proper.later later) times.again inTime
        have less : (P k).refillRate * (finish - now') ≤ (P k).refillRate * (finish - start) :=
          mul_le_mul_of_nonneg_left (sub_le_sub_left within _) rate
        calc ((run P idle s ((now', event) :: es)).countP (grantedIn k start finish) : K)
            ≤ (run P idle s ((now', event) :: es)).countP (grantedUntil k finish) :=
              Nat.cast_le.mpr fewer
          _ ≤ Bucket.level (P k) (s k) now' + (P k).refillRate * (finish - now') := paid
          _ ≤ (P k).maxTokens + (P k).refillRate * (finish - start) :=
              add_le_add Bucket.level_le less

end Buckets
end GenChat.Library
