import Mathlib.Algebra.CharP.Two
import Mathlib.Tactic

/-!
# Systematic Reed–Solomon encoding

A codeword is the message followed by the remainder of its division by a generator, which a shift
register computes. Every root of the generator is a root of every codeword. The ring has
characteristic two, so that signs do not matter.
-/
namespace GenChat.Library.ReedSolomon
variable {R : Type} [CommRing R]

/-- The value of a word at `r`; its highest coefficient comes first. -/
def eval (r : R) (word : List R) : R := word.foldl (fun sum c => sum * r + c) 0

/-- The value of a polynomial whose lowest coefficient comes first. -/
def evalLow (r : R) : List R → R
  | [] => 0
  | c :: cs => c + evalLow r cs * r

/-- The product with `x + root`, lowest coefficient first. -/
def generatorStep (gen : List R) (root : R) : List R :=
  List.zipWith (· + ·) (gen.map (· * root) ++ [0]) (0 :: gen)

def generator (roots : List R) : List R := roots.foldl generatorStep [1]

/-- One step of the shift register. -/
def remainderStep (gen res : List R) (d : R) : List R :=
  List.zipWith (· + ·) (res.tail ++ [0]) (gen.dropLast.reverse.map (· * (d + res.headD 0)))

def remainder (gen : List R) (n : Nat) (data : List R) : List R :=
  data.foldl (remainderStep gen) (List.replicate n 0)

/-! ## Values of words -/

theorem foldl_eval (r s : R) (word : List R) :
    word.foldl (fun sum c => sum * r + c) s = s * r ^ word.length + eval r word := by
  induction word generalizing s with
  | nil => simp [eval]
  | cons c word ih =>
    have whole : eval r (c :: word) = (0 * r + c) * r ^ word.length + eval r word :=
      ih (0 * r + c)
    rw [List.foldl_cons, ih, List.length_cons, whole]
    ring

theorem eval_append (r : R) (s t : List R) :
    eval r (s ++ t) = eval r s * r ^ t.length + eval r t := by
  rw [eval, List.foldl_append]
  exact foldl_eval r _ t

theorem eval_cons (r c : R) (word : List R) :
    eval r (c :: word) = c * r ^ word.length + eval r word := by
  rw [eval, List.foldl_cons, foldl_eval]
  ring

theorem eval_nil (r : R) : eval r [] = 0 := rfl

theorem eval_singleton (r c : R) : eval r [c] = c := by
  rw [eval_cons, eval_nil, List.length_nil, pow_zero, mul_one, add_zero]

theorem eval_replicate_zero (r : R) (n : Nat) : eval r (List.replicate n 0) = 0 := by
  induction n with
  | zero => rfl
  | succ n ih => rw [List.replicate_succ, eval_cons, ih, zero_mul, zero_add]

theorem eval_zipWith_add (r : R) {s t : List R} (h : s.length = t.length) :
    eval r (List.zipWith (· + ·) s t) = eval r s + eval r t := by
  induction s generalizing t with
  | nil =>
    obtain rfl := List.length_eq_zero_iff.mp h.symm
    exact (add_zero 0).symm
  | cons a s ih =>
    cases t with
    | nil => cases h
    | cons b t =>
      have same : s.length = t.length := Nat.succ.inj h
      rw [List.zipWith_cons_cons, eval_cons, eval_cons, eval_cons, ih same, List.length_zipWith,
        ← same, Nat.min_self]
      ring

theorem eval_map_mul (r a : R) (word : List R) :
    eval r (word.map (· * a)) = eval r word * a := by
  induction word with
  | nil => exact (zero_mul a).symm
  | cons c word ih =>
    rw [List.map_cons, eval_cons, eval_cons, ih, List.length_map]
    ring

theorem eval_map_range (r : R) (f : Nat → R) (n : Nat) :
    eval r ((List.range n).map f) = ∑ k ∈ Finset.range n, f k * r ^ (n - 1 - k) := by
  induction n with
  | zero => rfl
  | succ n ih =>
    have shift : ∑ k ∈ Finset.range n, f k * r ^ (n + 1 - 1 - k) =
        (∑ k ∈ Finset.range n, f k * r ^ (n - 1 - k)) * r := by
      rw [Finset.sum_mul]
      refine Finset.sum_congr rfl fun k mem => ?_
      have inside := Finset.mem_range.mp mem
      have power : n + 1 - 1 - k = (n - 1 - k) + 1 := by omega
      rw [power, pow_succ, mul_assoc]
    rw [List.range_succ, List.map_append, eval_append, ih, Finset.sum_range_succ, shift,
      List.map_singleton, eval_singleton, List.length_singleton, pow_one, Nat.add_sub_cancel,
      Nat.sub_self, pow_zero, mul_one]

theorem eval_reverse (r : R) (word : List R) : eval r word.reverse = evalLow r word := by
  induction word with
  | nil => rfl
  | cons c word ih =>
    rw [List.reverse_cons, eval_append, ih, evalLow, List.length_singleton, eval_singleton,
      pow_one, add_comm]

theorem evalLow_append (r : R) (s t : List R) :
    evalLow r (s ++ t) = evalLow r s + evalLow r t * r ^ s.length := by
  induction s with
  | nil => simp [evalLow]
  | cons c s ih =>
    rw [List.cons_append, evalLow, evalLow, ih, List.length_cons]
    ring

/-! ## The generator -/

theorem evalLow_zipWith_add (r : R) {s t : List R} (h : s.length = t.length) :
    evalLow r (List.zipWith (· + ·) s t) = evalLow r s + evalLow r t := by
  induction s generalizing t with
  | nil =>
    obtain rfl := List.length_eq_zero_iff.mp h.symm
    exact (add_zero 0).symm
  | cons a s ih =>
    cases t with
    | nil => cases h
    | cons b t =>
      rw [List.zipWith_cons_cons, evalLow, evalLow, evalLow, ih (Nat.succ.inj h)]
      ring

theorem evalLow_map_mul (r a : R) (word : List R) :
    evalLow r (word.map (· * a)) = evalLow r word * a := by
  induction word with
  | nil => exact (zero_mul a).symm
  | cons c word ih =>
    rw [List.map_cons, evalLow, evalLow, ih]
    ring

theorem evalLow_generatorStep (r root : R) (gen : List R) :
    evalLow r (generatorStep gen root) = evalLow r gen * (r + root) := by
  rw [generatorStep, evalLow_zipWith_add r (by simp), evalLow_append, evalLow_map_mul]
  simp only [evalLow]
  ring

theorem evalLow_foldl (r : R) (gen roots : List R) :
    evalLow r (roots.foldl generatorStep gen) =
      evalLow r gen * (roots.map (r + ·)).prod := by
  induction roots generalizing gen with
  | nil => simp
  | cons root roots ih =>
    rw [List.foldl_cons, ih, evalLow_generatorStep, List.map_cons, List.prod_cons]
    ring

/-- The generator vanishes at its roots. -/
theorem evalLow_generator [CharP R 2] {r : R} {roots : List R} (h : r ∈ roots) :
    evalLow r (generator roots) = 0 := by
  have factor : (0 : R) ∈ roots.map (r + ·) :=
    List.mem_map.mpr ⟨r, h, CharTwo.add_self_eq_zero r⟩
  rw [generator, evalLow_foldl, List.prod_eq_zero factor, mul_zero]

/-- A polynomial with the highest coefficient one. -/
def Monic (gen : List R) (n : Nat) : Prop := ∃ low, gen = low ++ [1] ∧ low.length = n

theorem generatorStep_monic {gen : List R} {n : Nat} (h : Monic gen n) (root : R) :
    Monic (generatorStep gen root) (n + 1) := by
  obtain ⟨low, rfl, rfl⟩ := h
  refine ⟨List.zipWith (· + ·) ((low ++ [1]).map (· * root)) (0 :: low), ?_, by simp⟩
  rw [generatorStep, ← List.cons_append, List.zipWith_append (by simp)]
  simp

theorem foldl_monic {gen : List R} {n : Nat} (h : Monic gen n) (roots : List R) :
    Monic (roots.foldl generatorStep gen) (n + roots.length) := by
  induction roots generalizing gen n with
  | nil => exact h
  | cons root roots ih =>
    have rest := ih (generatorStep_monic h root)
    rwa [Nat.add_right_comm] at rest

theorem generator_monic (roots : List R) : Monic (generator roots) roots.length := by
  have start : Monic ([1] : List R) 0 := ⟨[], rfl, rfl⟩
  have whole := foldl_monic start roots
  rwa [Nat.zero_add] at whole

/-! ## The remainder -/

theorem length_remainderStep {gen res : List R} {n : Nat} (monic : Monic gen n)
    (length : res.length = n) (some : 0 < n) (d : R) :
    (remainderStep gen res d).length = n := by
  obtain ⟨low, rfl, rfl⟩ := monic
  simp [remainderStep, length]
  omega

/-- A step takes one more coefficient of the message. -/
theorem eval_remainderStep [CharP R 2] {gen res : List R} {n : Nat} {r : R}
    (monic : Monic gen n) (root : evalLow r gen = 0) (length : res.length = n) (some : 0 < n)
    (d : R) : eval r (remainderStep gen res d) = eval r res * r + d * r ^ n := by
  obtain ⟨low, rfl, rfl⟩ := monic
  cases res with
  | nil => exact absurd length (by simpa using some.ne)
  | cons c res =>
    have top : evalLow r low = r ^ low.length := by
      rw [evalLow_append] at root
      simp only [evalLow, zero_mul, add_zero, one_mul] at root
      exact CharTwo.add_eq_zero.mp root
    have last : res.length + 1 = low.length := length
    rw [remainderStep, eval_zipWith_add r (by simpa using last), eval_append, eval_map_mul,
      List.dropLast_concat, eval_reverse, top, eval_cons r c, ← last]
    simp only [List.tail_cons, List.headD_cons, List.length_singleton, pow_one, eval_singleton,
      add_zero]
    ring

/-- The remainder has the values of the message times a power, at every root. -/
theorem eval_remainder [CharP R 2] {gen : List R} {n : Nat} {r : R} (monic : Monic gen n)
    (root : evalLow r gen = 0) (some : 0 < n) (data : List R) :
    (remainder gen n data).length = n ∧
      eval r (remainder gen n data) = eval r data * r ^ n := by
  induction data using List.reverseRecOn with
  | nil =>
    refine ⟨List.length_replicate, ?_⟩
    rw [remainder, List.foldl_nil, eval_replicate_zero]
    exact (zero_mul _).symm
  | append_singleton data d ih =>
    have step : remainder gen n (data ++ [d]) = remainderStep gen (remainder gen n data) d := by
      simp [remainder]
    rw [step]
    refine ⟨length_remainderStep monic ih.1 some d, ?_⟩
    rw [eval_remainderStep monic root ih.1 some, ih.2, eval_append, eval_singleton,
      List.length_singleton]
    ring

/-- Every codeword vanishes at the roots of the generator. -/
theorem eval_codeword [CharP R 2] {roots : List R} {r : R} (h : r ∈ roots) (data : List R) :
    eval r (data ++ remainder (generator roots) roots.length data) = 0 := by
  obtain ⟨length, value⟩ := eval_remainder (generator_monic roots) (evalLow_generator h)
    (List.length_pos_of_mem h) data
  rw [eval_append, length, value]
  exact CharTwo.add_self_eq_zero _

end GenChat.Library.ReedSolomon
