import Mathlib.Algebra.BigOperators.Ring.Finset
import Mathlib.Algebra.CharP.Two
import Mathlib.GroupTheory.OrderOfElement
import Mathlib.Tactic

/-!
# The field of 256 elements

Bytes as polynomials over the field of two elements, modulo `x⁸ + x⁴ + x³ + x² + 1`. Addition is
exclusive or. Multiplication by `x` is a shift with a reduction, and a product is a sum of such
shifts, so the laws of a ring follow from the linearity of the shift.
-/
namespace GenChat.Library

def GF256 : Type := BitVec 8

namespace GF256

instance : DecidableEq GF256 := inferInstanceAs (DecidableEq (BitVec 8))

instance : Zero GF256 := ⟨0#8⟩

instance : One GF256 := ⟨1#8⟩

instance : Add GF256 := ⟨BitVec.xor⟩

instance : Neg GF256 := ⟨id⟩

/-- The byte of a number. -/
def ofNat (n : Nat) : GF256 := BitVec.ofNat 8 n

def toNat (a : GF256) : Nat := BitVec.toNat a

theorem toNat_lt (a : GF256) : a.toNat < 256 := BitVec.isLt a

theorem ofNat_toNat (a : GF256) : ofNat a.toNat = a := BitVec.ofNat_toNat 8 a

def bit (a : GF256) (i : Nat) : Bool := BitVec.getLsbD a i

theorem bit_add (a b : GF256) (i : Nat) : (a + b).bit i = (a.bit i ^^ b.bit i) :=
  BitVec.getLsbD_xor

instance : AddCommGroup GF256 where
  add_assoc a b c := BitVec.xor_assoc a b c
  zero_add a := BitVec.zero_xor
  add_zero a := BitVec.xor_zero
  add_comm a b := BitVec.xor_comm a b
  neg_add_cancel a := BitVec.xor_self
  nsmul := nsmulRec
  zsmul := zsmulRec

theorem add_self (a : GF256) : a + a = 0 := BitVec.xor_self

/-- Multiplication by `x`. -/
def double (a : GF256) : GF256 :=
  BitVec.xor (BitVec.shiftLeft a 1) (if a.bit 7 then 0x1d#8 else 0#8)

theorem double_add (a b : GF256) : double (a + b) = double a + double b := by
  have shift : BitVec.shiftLeft (a + b) 1 = BitVec.xor (BitVec.shiftLeft a 1)
      (BitVec.shiftLeft b 1) := BitVec.shiftLeft_xor_distrib a b 1
  have reduce : (if (a + b).bit 7 then 0x1d#8 else 0#8 : BitVec 8) =
      BitVec.xor (if a.bit 7 then 0x1d#8 else 0#8) (if b.bit 7 then 0x1d#8 else 0#8) := by
    rw [bit_add]
    cases a.bit 7 <;> cases b.bit 7 <;> decide
  have swap (p q r s : GF256) : p + q + (r + s) = p + r + (q + s) := by abel
  rw [double, shift, reduce]
  exact swap _ _ _ _

theorem iterate_double_add (i : Nat) (a b : GF256) :
    double^[i] (a + b) = double^[i] a + double^[i] b := by
  induction i generalizing a b with
  | zero => rfl
  | succ i ih => rw [Function.iterate_succ_apply, Function.iterate_succ_apply,
      Function.iterate_succ_apply, double_add, ih]

theorem iterate_double_zero (i : Nat) : double^[i] 0 = 0 := by
  have sum := iterate_double_add i 0 0
  rw [add_zero, add_self] at sum
  exact sum

theorem iterate_double_sum (i : Nat) (f : Nat → GF256) (n : Nat) :
    double^[i] (∑ j ∈ Finset.range n, f j) = ∑ j ∈ Finset.range n, double^[i] (f j) := by
  induction n with
  | zero => exact iterate_double_zero i
  | succ n ih => rw [Finset.sum_range_succ, Finset.sum_range_succ, iterate_double_add, ih]

/-- `a`, or nothing. -/
def part (a : GF256) (b : Bool) : GF256 := if b then a else 0

/-- The shifts of `a` by the bits of `b`. -/
def mul (a b : GF256) : GF256 :=
  (List.range 8).foldr (fun i later => part a (b.bit i) + double later) 0

instance : Mul GF256 := ⟨mul⟩

theorem foldr_eq_sum (f : Nat → GF256) (start n : Nat) :
    (List.range' start n).foldr (fun i later => f i + double later) 0 =
      ∑ i ∈ Finset.range n, double^[i] (f (start + i)) := by
  induction n generalizing start with
  | zero => rfl
  | succ n ih =>
    have later := iterate_double_sum 1 (fun i => double^[i] (f (start + 1 + i))) n
    rw [List.range'_succ, List.foldr_cons, ih, Finset.sum_range_succ', add_comm]
    refine congrArg₂ _ (later.trans (Finset.sum_congr rfl fun i _ => ?_)) rfl
    rw [← Function.iterate_add_apply, Nat.add_comm 1 i, Nat.add_assoc, Nat.add_comm 1 i]

theorem mul_eq (a b : GF256) :
    a * b = ∑ i ∈ Finset.range 8, double^[i] (part a (b.bit i)) := by
  have fold := foldr_eq_sum (fun i => part a (b.bit i)) 0 8
  simp only [Nat.zero_add] at fold
  rw [← fold, ← List.range_eq_range']
  rfl

theorem part_add (a b : GF256) (p : Bool) : part (a + b) p = part a p + part b p := by
  cases p
  · exact (add_zero 0).symm
  · rfl

theorem part_xor (a : GF256) (p q : Bool) : part a (p ^^ q) = part a p + part a q := by
  cases p <;> cases q
  · exact (add_zero 0).symm
  · exact (zero_add a).symm
  · exact (add_zero a).symm
  · exact (add_self a).symm

theorem iterate_double_part (i : Nat) (a : GF256) (p : Bool) :
    double^[i] (part a p) = part (double^[i] a) p := by
  cases p
  · exact iterate_double_zero i
  · rfl

theorem mul_add' (a b c : GF256) : a * (b + c) = a * b + a * c := by
  rw [mul_eq, mul_eq, mul_eq, ← Finset.sum_add_distrib]
  refine Finset.sum_congr rfl fun i _ => ?_
  rw [bit_add, part_xor, iterate_double_add]

theorem add_mul' (a b c : GF256) : (a + b) * c = a * c + b * c := by
  rw [mul_eq, mul_eq, mul_eq, ← Finset.sum_add_distrib]
  refine Finset.sum_congr rfl fun i _ => ?_
  rw [part_add, iterate_double_add]

theorem sum_part (f : Nat → GF256) (n : Nat) (p : Bool) :
    part (∑ j ∈ Finset.range n, f j) p = ∑ j ∈ Finset.range n, part (f j) p := by
  cases p
  · exact (Finset.sum_const_zero).symm
  · rfl

/-- Two factors on the right may be exchanged. -/
theorem mul_right_comm' (a b c : GF256) : a * b * c = a * c * b := by
  have expand (b c : GF256) : a * b * c = ∑ k ∈ Finset.range 8, ∑ j ∈ Finset.range 8,
      part (part (double^[k + j] a) (b.bit j)) (c.bit k) := by
    rw [mul_eq (a * b), mul_eq a b]
    refine Finset.sum_congr rfl fun k _ => ?_
    rw [iterate_double_part, iterate_double_sum, sum_part]
    refine Finset.sum_congr rfl fun j _ => ?_
    rw [← Function.iterate_add_apply, iterate_double_part]
  have swap (a : GF256) (p q : Bool) : part (part a p) q = part (part a q) p := by
    cases p <;> cases q <;> rfl
  rw [expand, expand, Finset.sum_comm]
  refine Finset.sum_congr rfl fun j _ => Finset.sum_congr rfl fun k _ => ?_
  rw [swap, Nat.add_comm]

set_option maxRecDepth 20000

theorem one_mul' (b : GF256) : 1 * b = b := by
  have all : ∀ n : Fin 256, mul 1 (ofNat n.val) = ofNat n.val := by decide
  have one := all ⟨b.toNat, b.toNat_lt⟩
  rw [ofNat_toNat] at one
  exact one

theorem mul_comm' (a b : GF256) : a * b = b * a := by
  calc a * b = 1 * a * b := by rw [one_mul']
    _ = 1 * b * a := mul_right_comm' 1 a b
    _ = b * a := by rw [one_mul']

theorem mul_assoc' (a b c : GF256) : a * b * c = a * (b * c) := by
  calc a * b * c = b * a * c := by rw [mul_comm' a b]
    _ = b * c * a := mul_right_comm' b a c
    _ = a * (b * c) := mul_comm' _ _

instance : CommRing GF256 where
  left_distrib := mul_add'
  right_distrib := add_mul'
  zero_mul a := by
    have double := add_mul' 0 0 a
    rw [add_zero] at double
    exact (add_eq_left.mp double.symm)
  mul_zero a := by
    have double := mul_add' a 0 0
    rw [add_zero] at double
    exact (add_eq_left.mp double.symm)
  mul_assoc := mul_assoc'
  one_mul := one_mul'
  mul_one a := by rw [mul_comm', one_mul']
  mul_comm := mul_comm'
  zsmul := zsmulRec
  neg_add_cancel a := BitVec.xor_self

instance : CharP GF256 2 := CharTwo.of_one_ne_zero_of_two_eq_zero (by decide) (by decide)

/-! ## Numbers -/

theorem toNat_injective {a b : GF256} (h : a.toNat = b.toNat) : a = b := BitVec.eq_of_toNat_eq h

theorem toNat_ofNat {n : Nat} (h : n < 256) : (ofNat n).toNat = n := Nat.mod_eq_of_lt h

theorem toNat_add (a b : GF256) : (a + b).toNat = a.toNat ^^^ b.toNat := BitVec.toNat_xor a b

/-- `double` on numbers. -/
def doubleNat (n : Nat) : Nat := if n < 128 then 2 * n else (2 * n) ^^^ 0x11d

theorem toNat_double (a : GF256) : (double a).toNat = doubleNat a.toNat := by
  have reduce : ∀ n < 256, ((2 * n) % 256 ^^^ if n.testBit 7 then 0x1d else 0) = doubleNat n := by
    decide
  have shift : BitVec.toNat (BitVec.shiftLeft a 1) = (2 * a.toNat) % 256 := by
    refine (BitVec.toNat_shiftLeft (x := a)).trans ?_
    rw [Nat.shiftLeft_eq, Nat.pow_one, Nat.mul_comm]
    rfl
  have bit : a.bit 7 = a.toNat.testBit 7 := rfl
  rw [← reduce a.toNat a.toNat_lt, double, ← shift, bit]
  refine (BitVec.toNat_xor _ _).trans ?_
  cases a.toNat.testBit 7 <;> rfl

/-- `mul` on numbers. -/
def mulNat (a b : Nat) : Nat :=
  (List.range 8).foldr (fun i later => (if b.testBit i then a else 0) ^^^ doubleNat later) 0

theorem toNat_mul (a b : GF256) : (a * b).toNat = mulNat a.toNat b.toNat := by
  have fold (bits : List Nat) :
      (bits.foldr (fun i later => part a (b.bit i) + double later) 0).toNat =
        bits.foldr (fun i later => (if b.toNat.testBit i then a.toNat else 0) ^^^ doubleNat later)
          0 := by
    induction bits with
    | nil => rfl
    | cons i bits ih =>
      have bit : (part a (b.bit i)).toNat = if b.toNat.testBit i then a.toNat else 0 := by
        have same : b.bit i = b.toNat.testBit i := rfl
        rw [same, part]
        split <;> rfl
      rw [List.foldr_cons, List.foldr_cons, toNat_add, toNat_double, ih, bit]
  exact fold (List.range 8)

theorem toNat_sum (n : Nat) (f : Nat → GF256) : (∑ j ∈ Finset.range n, f j).toNat =
    (List.range n).foldl (fun sum j => sum ^^^ (f j).toNat) 0 := by
  induction n with
  | zero => rfl
  | succ n ih =>
    rw [Finset.sum_range_succ, toNat_add, ih, List.range_succ, List.foldl_append, List.foldl_cons,
      List.foldl_nil]

/-! ## Powers -/

/-- The polynomial `x`. -/
def alpha : GF256 := ofNat 2

theorem mul_alpha (a : GF256) : a * alpha = double a := by
  have others : ∀ i < 8, i ≠ 1 → alpha.bit i = false := by decide
  rw [mul_eq, Finset.sum_eq_single 1]
  · rfl
  · intro i mem other
    rw [others i (Finset.mem_range.mp mem) other]
    exact iterate_double_zero i
  · intro outside
    exact absurd (by decide) outside

theorem toNat_alpha_pow (i : Nat) : (alpha ^ i).toNat = doubleNat^[i] 1 := by
  induction i with
  | zero => rfl
  | succ i ih => rw [pow_succ, mul_alpha, toNat_double, ih, Function.iterate_succ_apply']

theorem orderOf_alpha : orderOf alpha = 255 := by
  have value (n : Nat) : alpha ^ n = 1 ↔ doubleNat^[n] 1 = 1 := by
    rw [← toNat_alpha_pow]
    exact ⟨fun h => h ▸ rfl, fun h => toNat_injective h⟩
  have factors (p : Nat) (prime : p.Prime) (divides : p ∣ 255) : p = 3 ∨ p = 5 ∨ p = 17 := by
    have number : 255 = 3 * (5 * 17) := rfl
    rw [number, prime.dvd_mul, prime.dvd_mul, Nat.prime_dvd_prime_iff_eq prime (by norm_num),
      Nat.prime_dvd_prime_iff_eq prime (by norm_num),
      Nat.prime_dvd_prime_iff_eq prime (by norm_num)] at divides
    exact divides
  refine orderOf_eq_of_pow_and_pow_div_prime (by decide) ((value 255).mpr (by rfl)) ?_
  intro p prime divides
  rw [Ne, value]
  rcases factors p prime divides with rfl | rfl | rfl <;> decide

theorem alpha_pow_injective {i j : Nat} (hi : i < 255) (hj : j < 255)
    (h : alpha ^ i = alpha ^ j) : i = j :=
  pow_injOn_Iio_orderOf (orderOf_alpha ▸ hi) (orderOf_alpha ▸ hj) h

theorem alpha_pow_255 : alpha ^ 255 = 1 := orderOf_alpha ▸ pow_orderOf_eq_one alpha

theorem alpha_pow_ne_zero {i : Nat} (h : i < 255) : alpha ^ i ≠ 0 := by
  intro zero
  have one : alpha ^ i * alpha ^ (255 - i) = 1 := by
    rw [← pow_add, Nat.add_sub_cancel' h.le, alpha_pow_255]
  rw [zero, zero_mul] at one
  exact absurd one (by decide)

/-- As many powers as there are elements other than zero. -/
theorem exists_alpha_pow {a : GF256} (h : a ≠ 0) : ∃ i < 255, alpha ^ i = a := by
  have powers : (Finset.range 255).image (fun i => (alpha ^ i).toNat) =
      (Finset.range 256).erase 0 := by
    refine Finset.eq_of_subset_of_card_le ?_ ?_
    · intro n mem
      obtain ⟨i, bound, rfl⟩ := Finset.mem_image.mp mem
      refine Finset.mem_erase.mpr ⟨fun zero => ?_, Finset.mem_range.mpr (toNat_lt _)⟩
      exact alpha_pow_ne_zero (Finset.mem_range.mp bound) (toNat_injective zero)
    · rw [Finset.card_image_of_injOn, Finset.card_range, Finset.card_erase_of_mem (by simp),
        Finset.card_range]
      intro i hi j hj same
      exact alpha_pow_injective (by simpa using hi) (by simpa using hj) (toNat_injective same)
  have mem : a.toNat ∈ (Finset.range 256).erase 0 :=
    Finset.mem_erase.mpr ⟨fun zero => h (toNat_injective zero), Finset.mem_range.mpr a.toNat_lt⟩
  rw [← powers] at mem
  obtain ⟨i, bound, same⟩ := Finset.mem_image.mp mem
  exact ⟨i, Finset.mem_range.mp bound, toNat_injective same⟩

/-! ## Tables in one number -/

/-- The first byte is the lowest. -/
def pack (bytes : List Nat) : Nat := bytes.foldr (fun byte table => byte + table * 256) 0

def byteAt (table i : Nat) : Nat := (table >>> (8 * i)) % 256

theorem byteAt_pack {bytes : List Nat} (small : ∀ byte ∈ bytes, byte < 256) (i : Nat) :
    byteAt (pack bytes) i = bytes.getD i 0 := by
  induction bytes generalizing i with
  | nil => simp [byteAt, pack]
  | cons byte bytes ih =>
    have first := small byte List.mem_cons_self
    have table : pack (byte :: bytes) = byte + pack bytes * 256 := rfl
    cases i with
    | zero =>
      rw [byteAt, table, Nat.mul_zero, Nat.shiftRight_zero, Nat.add_mul_mod_self_right,
        Nat.mod_eq_of_lt first, List.getD_cons_zero]
    | succ i =>
      have shift : (byte + pack bytes * 256) >>> 8 = pack bytes := by
        rw [Nat.shiftRight_eq_div_pow]
        omega
      have index : 8 * (i + 1) = 8 + 8 * i := by ring
      have later := ih (fun b mem => small b (List.mem_cons_of_mem _ mem)) i
      rw [List.getD_cons_succ, ← later, byteAt, byteAt, table, index, Nat.shiftRight_add, shift]

def powerTable : Nat := pack (List.iterate doubleNat 1 255)

/-- A power from a table of the powers. -/
def powerNat (e : Nat) : Nat := byteAt powerTable (e % 255)

theorem toNat_alpha_pow_table (e : Nat) : (alpha ^ e).toNat = powerNat e := by
  have small : ∀ byte ∈ List.iterate doubleNat 1 255, byte < 256 := by
    intro byte mem
    obtain ⟨i, -, rfl⟩ := List.mem_iterate.mp mem
    rw [← toNat_alpha_pow]
    exact toNat_lt _
  have short : e % 255 < 255 := Nat.mod_lt _ (by decide)
  have period : alpha ^ e = alpha ^ (e % 255) := by
    rw [← orderOf_alpha, pow_mod_orderOf]
  rw [period, toNat_alpha_pow, powerNat, powerTable, byteAt_pack small,
    List.getD_eq_getElem?_getD, List.getElem?_iterate _ _ _ _ short]
  rfl

end GF256
end GenChat.Library
