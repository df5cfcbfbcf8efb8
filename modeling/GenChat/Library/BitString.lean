import Mathlib.Tactic

/-!
# Bit strings

Numbers as bit strings of a fixed length, the highest bit first, and bytes one after the other.
-/
namespace GenChat.Library.BitString

/-- The lowest bits of a number. -/
def bits (len n : Nat) : List Bool := (List.range len).reverse.map n.testBit

def number (bits : List Bool) : Nat := bits.foldl (fun n bit => 2 * n + bit.toNat) 0

/-- Groups of eight bits; a shorter rest is dropped. -/
def octets : List Bool → List (List Bool)
  | a :: b :: c :: d :: e :: f :: g :: h :: rest => [a, b, c, d, e, f, g, h] :: octets rest
  | _ => []

/-! ## Numbers -/

@[simp] theorem length_bits (len n : Nat) : (bits len n).length = len := by simp [bits]

theorem bits_succ (len n : Nat) : bits (len + 1) n = n.testBit len :: bits len n := by
  simp [bits, List.range_succ]

theorem foldl_number (bs : List Bool) (n : Nat) :
    bs.foldl (fun n bit => 2 * n + bit.toNat) n = n * 2 ^ bs.length + number bs := by
  induction bs generalizing n with
  | nil => simp [number]
  | cons b bs ih =>
    have whole : number (b :: bs) = (2 * 0 + b.toNat) * 2 ^ bs.length + number bs := ih _
    rw [List.foldl_cons, ih, whole, List.length_cons, pow_succ]
    ring

theorem number_cons (b : Bool) (bs : List Bool) :
    number (b :: bs) = b.toNat * 2 ^ bs.length + number bs := by
  rw [number, List.foldl_cons, foldl_number, Nat.mul_zero, Nat.zero_add]

theorem number_append (s t : List Bool) : number (s ++ t) = number s * 2 ^ t.length + number t := by
  rw [number, List.foldl_append]
  exact foldl_number t _

theorem number_lt (bs : List Bool) : number bs < 2 ^ bs.length := by
  induction bs with
  | nil => exact Nat.one_pos
  | cons b bs ih =>
    rw [number_cons, List.length_cons, pow_succ]
    have bit : b.toNat * 2 ^ bs.length ≤ 1 * 2 ^ bs.length :=
      Nat.mul_le_mul_right _ (Bool.toNat_le b)
    omega

theorem number_bits (len n : Nat) : number (bits len n) = n % 2 ^ len := by
  induction len with
  | zero => simp [bits, number, Nat.mod_one]
  | succ len ih =>
    rw [bits_succ, number_cons, ih, length_bits, Nat.toNat_testBit, pow_succ, Nat.mod_mul]
    ring

/-- A bit string is known by its length and its number. -/
theorem number_injective {s t : List Bool} (length : s.length = t.length)
    (same : number s = number t) : s = t := by
  induction s generalizing t with
  | nil => exact (List.length_eq_zero_iff.mp length.symm).symm
  | cons b s ih =>
    cases t with
    | nil => cases length
    | cons c t =>
      have rest : s.length = t.length := Nat.succ.inj length
      have low := number_lt s
      have low' := number_lt t
      rw [number_cons, number_cons, ← rest] at same
      rw [← rest] at low'
      have first : b = c := by
        cases b <;> cases c <;> simp at same ⊢ <;> omega
      subst first
      rw [ih rest (Nat.add_left_cancel same)]

theorem bits_number (bs : List Bool) : bits bs.length (number bs) = bs := by
  refine number_injective (length_bits _ _) ?_
  rw [number_bits, Nat.mod_eq_of_lt (number_lt bs)]

/-! ## Bytes -/

theorem octets_append {s : List Bool} (h : s.length = 8) (rest : List Bool) :
    octets (s ++ rest) = s :: octets rest := by
  match s, h with
  | [a, b, c, d, e, f, g, h], _ => rfl

theorem octets_flatMap {α : Type} {f : α → List Bool} (length : ∀ x, (f x).length = 8)
    (xs : List α) (rest : List Bool) :
    octets (xs.flatMap f ++ rest) = xs.map f ++ octets rest := by
  induction xs with
  | nil => rfl
  | cons x xs ih =>
    rw [List.flatMap_cons, List.append_assoc, octets_append (length x), ih, List.map_cons,
      List.cons_append]

/-- Whole bytes lose nothing. -/
theorem octets_flatten {bs : List Bool} (h : 8 ∣ bs.length) :
    (octets bs).flatten = bs ∧ ∀ byte ∈ octets bs, byte.length = 8 := by
  induction bs using octets.induct with
  | case1 a b c d e f g h' rest ih =>
    obtain ⟨whole, lengths⟩ := ih (by simpa using h)
    rw [octets, List.flatten_cons, whole]
    refine ⟨rfl, fun byte mem => ?_⟩
    rcases List.mem_cons.mp mem with rfl | mem
    · rfl
    · exact lengths byte mem
  | case2 bs many =>
    match bs, h with
    | a :: b :: c :: d :: e :: f :: g :: i :: rest, _ =>
      exact absurd rfl (many a b c d e f g i rest)
    | [], _ => exact ⟨rfl, fun _ none => absurd none List.not_mem_nil⟩
    | [_], h | [_, _], h | [_, _, _], h | [_, _, _, _], h | [_, _, _, _, _], h
    | [_, _, _, _, _, _], h | [_, _, _, _, _, _, _], h => simp at h

/-- One byte of a stream of bytes. -/
theorem octet_flatMap {α : Type} {f : α → List Bool} (length : ∀ x, (f x).length = 8)
    {xs : List α} {i : Nat} (h : i < xs.length) :
    ((xs.flatMap f).drop (8 * i)).take 8 = f xs[i] := by
  induction xs generalizing i with
  | nil => cases h
  | cons x xs ih =>
    rw [List.flatMap_cons]
    cases i with
    | zero => exact List.take_left' (length x)
    | succ i =>
      have skip : 8 * (i + 1) = (f x).length + 8 * i := by rw [length x]; ring
      rw [skip, ← List.drop_drop, List.drop_left, ih (Nat.lt_of_succ_lt_succ h)]
      rfl

end GenChat.Library.BitString
