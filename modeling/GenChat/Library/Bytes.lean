import Mathlib.Tactic

/-!
# Fixed-width big-endian integers

`toBeBytes w n` holds the low `w` bytes of `n`, most significant byte first, as `to_be_bytes`
and `binary.BigEndian` lay them out. Equal encodings mean equal numbers up to the width.
-/
namespace GenChat.Library

def toBeBytes : Nat → Nat → List UInt8
  | 0, _ => []
  | w + 1, n => UInt8.ofNat (n / 256 ^ w) :: toBeBytes w n

@[simp] theorem length_toBeBytes (w n : Nat) : (toBeBytes w n).length = w := by
  induction w with
  | zero => rfl
  | succ w ih => simp [toBeBytes, ih]

theorem toBeBytes_inj {w m n : Nat} :
    toBeBytes w m = toBeBytes w n ↔ m % 256 ^ w = n % 256 ^ w := by
  induction w with
  | zero => simp [toBeBytes, Nat.mod_one]
  | succ w ih =>
    have byte (a b : Nat) : UInt8.ofNat a = UInt8.ofNat b ↔ a % 256 = b % 256 := by
      simp [← UInt8.toNat_inj]
    have low (a : Nat) : a % 256 ^ w < 256 ^ w := Nat.mod_lt _ (by positivity)
    simp only [toBeBytes, List.cons.injEq, ih, byte, Nat.mod_pow_succ]
    constructor
    · rintro ⟨high, eq⟩
      rw [high, eq]
    · intro eq
      -- Both sides are written in base `256 ^ w`, so the digits agree.
      have low_eq : m % 256 ^ w = n % 256 ^ w := by
        have := congrArg (· % 256 ^ w) eq
        simpa [Nat.add_mul_mod_self_left] using this
      rw [low_eq, Nat.add_left_cancel_iff] at eq
      exact ⟨Nat.eq_of_mul_eq_mul_left (by positivity) eq, low_eq⟩

/-- Reading the bytes back, most significant first, gives the low bytes of the number. -/
theorem foldl_toBeBytes (w n acc : Nat) :
    (toBeBytes w n).foldl (fun m b => m * 256 + b.toNat) acc = acc * 256 ^ w + n % 256 ^ w := by
  induction w generalizing acc with
  | zero => simp [toBeBytes, Nat.mod_one]
  | succ w ih =>
    have digits : n % 256 ^ (w + 1) = n % 256 ^ w + 256 ^ w * (n / 256 ^ w % 256) :=
      Nat.mod_pow_succ
    rw [toBeBytes, List.foldl_cons, ih, UInt8.toNat_ofNat', digits]
    ring

/-- A fixed-width suffix can be read off whatever precedes it. -/
theorem append_toBeBytes_inj {w m n : Nat} {p q : List UInt8}
    (h : p ++ toBeBytes w m = q ++ toBeBytes w n) : p = q ∧ m % 256 ^ w = n % 256 ^ w := by
  obtain ⟨hp, hw⟩ := List.append_inj' h (by simp)
  exact ⟨hp, toBeBytes_inj.mp hw⟩

end GenChat.Library
