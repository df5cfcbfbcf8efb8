import GenChat.Client.QrMatrix
import GenChat.Library.BitString
import GenChat.Library.ReedSolomon

/-!
# The error correction of `createMatrix`

The tables hold the powers and the logarithms of the field, so that `computeReedSolomon` is the
systematic encoder whose codewords vanish at the first powers of the generator.
-/
namespace GenChat.Client.QrCodeSvgGenerator
open Library GF256

/-! ## Tables -/

/-- The tables after `k` rounds. -/
structure Filled (k : Nat) (t : Tables) : Prop where
  next : t.x = (alpha ^ k).toNat
  expLength : t.exp.length = 512
  logLength : t.log.length = 256
  exp : ∀ i < k, t.exp.getD i 0 = alpha ^ i ∧ t.exp.getD (i + 255) 0 = alpha ^ i
  log : ∀ i < k, t.log.getD (alpha ^ i).toNat 0 = i

theorem getD_set {α : Type} (xs : List α) {i : Nat} (h : i < xs.length) (a : α) (j : Nat)
    (default : α) : (xs.set i a).getD j default = if j = i then a else xs.getD j default := by
  simp only [List.getD_eq_getElem?_getD, List.getElem?_set]
  grind

theorem fillTables_next {x : Nat} (h : x < 256) :
    (x <<< 1) ^^^ (if 128 ≤ x then 0x11d else 0) = doubleNat x := by
  rw [doubleNat, Nat.shiftLeft_eq, Nat.pow_one, Nat.mul_comm]
  split_ifs
  · omega
  · rfl
  · exact Nat.xor_zero _
  · omega

/-- A round keeps what is filled, as the powers differ. -/
theorem Filled.fillTables {k : Nat} {t : Tables} (filled : Filled k t) (h : k < 255) :
    Filled (k + 1) (fillTables t k) := by
  have power : GF256.ofNat t.x = alpha ^ k := by rw [filled.next, ofNat_toNat]
  have inside : t.x < t.log.length := by
    rw [filled.next, filled.logLength]
    exact toNat_lt _
  have room : k < t.exp.length := by rw [filled.expLength]; omega
  have room' : k + 255 < (t.exp.set k (.ofNat t.x)).length := by
    rw [List.length_set, filled.expLength]; omega
  refine ⟨?_, ?_, ?_, fun i bound => ?_, fun i bound => ?_⟩
  · rw [QrCodeSvgGenerator.fillTables]
    dsimp only
    rw [filled.next, fillTables_next (toNat_lt _), pow_succ, mul_alpha, toNat_double]
  · simp [QrCodeSvgGenerator.fillTables, filled.expLength]
  · simp [QrCodeSvgGenerator.fillTables, filled.logLength]
  · rw [QrCodeSvgGenerator.fillTables]
    dsimp only
    rw [getD_set _ room', getD_set _ room, getD_set _ room', getD_set _ room, power]
    rcases Nat.lt_succ_iff_lt_or_eq.mp bound with before | rfl
    · rw [if_neg (by omega), if_neg (by omega), if_neg (by omega), if_neg (by omega)]
      exact filled.exp i before
    · rw [if_neg (by omega), if_pos rfl, if_pos rfl]
      exact ⟨rfl, rfl⟩
  · rw [QrCodeSvgGenerator.fillTables]
    dsimp only
    rw [getD_set _ inside, filled.next]
    rcases Nat.lt_succ_iff_lt_or_eq.mp bound with before | rfl
    · rw [if_neg, filled.log i before]
      intro same
      exact absurd (alpha_pow_injective (by omega) h (toNat_injective same)) before.ne
    · exact if_pos rfl

theorem foldl_filled (k : Nat) (h : k ≤ 255) : Filled k ((List.range k).foldl
    QrCodeSvgGenerator.fillTables ⟨List.replicate 512 0, List.replicate 256 0, 1⟩) := by
  induction k with
  | zero =>
    exact ⟨rfl, List.length_replicate, List.length_replicate, fun _ none => absurd none (by simp),
      fun _ none => absurd none (by simp)⟩
  | succ k ih =>
    rw [List.range_succ, List.foldl_append]
    exact (ih (by omega)).fillTables (by omega)

theorem tables_filled : Filled 255 tables := foldl_filled 255 le_rfl

theorem gfExp_eq {i : Nat} (h : i < 510) : gfExp i = alpha ^ i := by
  by_cases low : i < 255
  · exact (tables_filled.exp i low).1
  · have high := (tables_filled.exp (i - 255) (by omega)).2
    rw [Nat.sub_add_cancel (by omega)] at high
    have again : alpha ^ i = alpha ^ (i - 255) * alpha ^ 255 := by
      rw [← pow_add, Nat.sub_add_cancel (by omega)]
    rw [again, alpha_pow_255, mul_one]
    exact high

/-- Multiplication by logarithms. -/
theorem gfMul_eq (a b : GF256) : gfMul a b = a * b := by
  rw [gfMul]
  split
  · next zero => rcases zero with rfl | rfl <;> simp
  · next some =>
    obtain ⟨i, hi, rfl⟩ := exists_alpha_pow (not_or.mp some).1
    obtain ⟨j, hj, rfl⟩ := exists_alpha_pow (not_or.mp some).2
    have logs : gfLog (alpha ^ i) = i ∧ gfLog (alpha ^ j) = j :=
      ⟨tables_filled.log i hi, tables_filled.log j hj⟩
    rw [logs.1, logs.2, gfExp_eq (by omega), pow_add]

/-! ## Encoding -/

def roots (ecCount : Nat) : List GF256 := (List.range ecCount).map (alpha ^ ·)

theorem generatorPolynomial_eq {ecCount : Nat} (h : ecCount ≤ 510) :
    generatorPolynomial ecCount = ReedSolomon.generator (roots ecCount) := by
  have step (gen : List GF256) (i : Nat) (mem : i ∈ List.range ecCount) :
      List.zipWith (· + ·) (gen.map (gfMul · (gfExp i)) ++ [0]) (0 :: gen) =
        ReedSolomon.generatorStep gen (alpha ^ i) := by
    have bound : i < 510 := by
      have := List.mem_range.mp mem
      omega
    simp only [gfMul_eq, gfExp_eq bound, ReedSolomon.generatorStep]
  rw [generatorPolynomial, ReedSolomon.generator, roots, List.foldl_map]
  exact List.foldl_ext _ _ _ fun gen i mem => step gen i mem

theorem computeReedSolomon_eq {ecCount : Nat} (h : ecCount ≤ 510) (data : List GF256) :
    computeReedSolomon data ecCount =
      ReedSolomon.remainder (ReedSolomon.generator (roots ecCount)) ecCount data := by
  obtain ⟨low, monic, length⟩ := ReedSolomon.generator_monic (roots ecCount)
  rw [roots, List.length_map, List.length_range] at length
  have front : (ReedSolomon.generator (roots ecCount)).take ecCount =
      (ReedSolomon.generator (roots ecCount)).dropLast := by
    rw [monic, List.dropLast_concat, List.take_left' length]
  rw [computeReedSolomon, generatorPolynomial_eq h]
  simp only [gfMul_eq, front]
  rfl

theorem length_roots (ecCount : Nat) : (roots ecCount).length = ecCount := by simp [roots]

theorem length_computeReedSolomon {ecCount : Nat} (h : ecCount ≤ 510) (some : 0 < ecCount)
    (data : List GF256) : (computeReedSolomon data ecCount).length = ecCount := by
  have first : alpha ^ 0 ∈ roots ecCount := List.mem_map_of_mem (List.mem_range.mpr some)
  have monic := ReedSolomon.generator_monic (roots ecCount)
  rw [length_roots] at monic
  rw [computeReedSolomon_eq h]
  exact (ReedSolomon.eval_remainder monic (ReedSolomon.evalLow_generator first) some data).1

/-- Data and error correction together vanish at the first powers. -/
theorem eval_computeReedSolomon {ecCount : Nat} (h : ecCount ≤ 510) {i : Nat} (hi : i < ecCount)
    (data : List GF256) :
    ReedSolomon.eval (alpha ^ i) (data ++ computeReedSolomon data ecCount) = 0 := by
  have root : alpha ^ i ∈ roots ecCount := List.mem_map_of_mem (List.mem_range.mpr hi)
  have codeword := ReedSolomon.eval_codeword root data
  rw [length_roots] at codeword
  rw [computeReedSolomon_eq h, codeword]

/-- `computeReedSolomon` encodes systematically: as many bytes as asked for behind the data make a
codeword. -/
theorem computeReedSolomon_systematic {ecCount : Nat} (some : 1 ≤ ecCount) (few : ecCount ≤ 255)
    (data : List GF256) :
    (computeReedSolomon data ecCount).length = ecCount ∧
      ∀ i < ecCount, ReedSolomon.eval (alpha ^ i) (data ++ computeReedSolomon data ecCount) = 0 := by
  have tables : ecCount ≤ 510 := by omega
  refine ⟨length_computeReedSolomon tables (by omega) data, ?_⟩
  intro i hi
  exact eval_computeReedSolomon tables hi data

theorem computeReedSolomon_systematic_sample :
    (computeReedSolomon [ofNat 0x41, ofNat 0xD0] 7).length = 7 ∧
      ∀ i < 7, ReedSolomon.eval (alpha ^ i) ([ofNat 0x41, ofNat 0xD0] ++
        computeReedSolomon [ofNat 0x41, ofNat 0xD0] 7) = 0 :=
  computeReedSolomon_systematic (by omega) (by omega) _

/-! ## Bits and bytes -/

theorem pushBits_eq (val len : Nat) : pushBits val len = BitString.bits len val := rfl

theorem toByte_eq (bits : List Bool) : toByte bits = .ofNat (BitString.number bits) := rfl

/-- Whole bytes are read back. -/
theorem flatMap_toBytes {bits : List Bool} (h : 8 ∣ bits.length) :
    (toBytes bits).flatMap (fun byte => pushBits byte.toNat 8) = bits := by
  induction bits using toBytes.induct with
  | case1 => rfl
  | case2 a b c d e f g h' rest ih =>
    have byte : pushBits (toByte [a, b, c, d, e, f, g, h']).toNat 8 =
        [a, b, c, d, e, f, g, h'] := by
      have small : BitString.number [a, b, c, d, e, f, g, h'] < 256 :=
        (BitString.number_lt _).trans_eq (by simp)
      rw [toByte_eq, toNat_ofNat small, pushBits_eq]
      exact BitString.bits_number [a, b, c, d, e, f, g, h']
    rw [toBytes, List.flatMap_cons, byte, ih (by simpa using h)]
    rfl
  | case3 bits other many =>
    exfalso
    match bits, h with
    | a :: b :: c :: d :: e :: f :: g :: i :: rest, _ => exact many a b c d e f g i rest rfl
    | [], _ => exact other rfl
    | [_], h | [_, _], h | [_, _, _], h | [_, _, _, _], h | [_, _, _, _, _], h
    | [_, _, _, _, _, _], h | [_, _, _, _, _, _, _], h => simp at h

end GenChat.Client.QrCodeSvgGenerator
