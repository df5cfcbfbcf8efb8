import Mathlib.Data.List.Lex
import Mathlib.Tactic

/-!
# UTF-16 code units

JavaScript indexes and orders strings by their UTF-16 code units. No two strings have the same
ones, so this order is linear.
-/
namespace GenChat.Library

def utf16Char (c : Char) : List Nat :=
  if c.toNat < 0x10000 then [c.toNat]
  else [0xD800 + (c.toNat - 0x10000) / 0x400, 0xDC00 + (c.toNat - 0x10000) % 0x400]

def utf16 (s : String) : List Nat := s.toList.flatMap utf16Char

/-- A character outside of the surrogates starts differently from one of two units. -/
theorem utf16Char_append_inj {a b : Char} {r t : List Nat}
    (h : utf16Char a ++ r = utf16Char b ++ t) : a = b ∧ r = t := by
  have scalar (c : Char) : c.toNat < 0xD800 ∨ 0xDFFF < c.toNat ∧ c.toNat < 0x110000 := c.valid
  have same (n : a.toNat = b.toNat) : a = b := Char.toNat_inj.mp n
  have la := scalar a
  have lb := scalar b
  unfold utf16Char at h
  split at h <;> split at h <;>
    simp only [List.cons_append, List.nil_append, List.cons.injEq] at h
  · exact ⟨same h.1, h.2⟩
  · omega
  · omega
  · exact ⟨same (by omega), h.2.2⟩

theorem utf16_flatMap_inj {l l' : List Char} (h : l.flatMap utf16Char = l'.flatMap utf16Char) :
    l = l' := by
  have nonempty (c : Char) (r : List Nat) : utf16Char c ++ r ≠ [] := by
    unfold utf16Char
    split <;> simp
  induction l generalizing l' with
  | nil =>
    cases l' with
    | nil => rfl
    | cons b l' => exact absurd h.symm (nonempty b _)
  | cons a l ih =>
    cases l' with
    | nil => exact absurd h (nonempty a _)
    | cons b l' =>
      obtain ⟨rfl, rest⟩ := utf16Char_append_inj h
      rw [ih rest]

theorem utf16_inj {s t : String} : utf16 s = utf16 t ↔ s = t :=
  ⟨fun h => String.toList_injective (utf16_flatMap_inj h), fun h => h ▸ rfl⟩

end GenChat.Library
