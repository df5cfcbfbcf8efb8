import GenChat.Library.Base64

/-!
# Base64 for URLs

`encodeToString` and `decodeString` follow `base64.RawURLEncoding`: two other letters and no
padding, with line breaks ignored on input. Of its output on an error callers make no use.
-/
namespace GenChat.Library.Base64Url
open Base64 (ofNat_eq)

def letter (n : Nat) : Char :=
  if n = 62 then '-' else if n = 63 then '_' else Base64.letter n

def sextet (c : Char) : Option Nat :=
  if c = '-' then some 62
  else if c = '_' then some 63
  else if c = '+' ∨ c = '/' then none
  else Base64.sextet c

def encodeChars : List UInt8 → List Char
  | [] => []
  | [a] => [letter (a.toNat / 4), letter (a.toNat % 4 * 16)]
  | [a, b] =>
    [letter (a.toNat / 4), letter (a.toNat % 4 * 16 + b.toNat / 16), letter (b.toNat % 16 * 4)]
  | a :: b :: c :: rest =>
    letter (a.toNat / 4) :: letter (a.toNat % 4 * 16 + b.toNat / 16) ::
      letter (b.toNat % 16 * 4 + c.toNat / 64) :: letter (c.toNat % 64) :: encodeChars rest

def encodeToString (bytes : List UInt8) : String := String.ofList (encodeChars bytes)

def decodeChars : List Char → Option (List UInt8)
  | [] => some []
  | [_] => none
  | [a, b] =>
    (sextet a).bind fun x => (sextet b).map fun y => [UInt8.ofNat (x * 4 + y / 16)]
  | [a, b, c] =>
    (sextet a).bind fun x => (sextet b).bind fun y => (sextet c).map fun z =>
      [UInt8.ofNat (x * 4 + y / 16), UInt8.ofNat (y * 16 + z / 4)]
  | a :: b :: c :: d :: rest =>
    (sextet a).bind fun x => (sextet b).bind fun y => (sextet c).bind fun z =>
      (sextet d).bind fun u => (decodeChars rest).map fun later =>
        UInt8.ofNat (x * 4 + y / 16) :: UInt8.ofNat (y * 16 + z / 4) ::
          UInt8.ofNat (z * 64 + u) :: later

def decodeString (s : String) : Option (List UInt8) :=
  decodeChars (s.toList.filter fun c => c ≠ '\n' ∧ c ≠ '\r')

/-! ## Round trip -/

/-- The letters are read back, and are neither dots nor line breaks. -/
theorem sextet_letter {n : Nat} (h : n < 64) : sextet (letter n) = some n ∧ letter n ≠ '.' ∧
    letter n ≠ '\n' ∧ letter n ≠ '\r' := by
  have all : ∀ n : Fin 64, sextet (letter n) = some n.val ∧ letter n ≠ '.' ∧
      letter n ≠ '\n' ∧ letter n ≠ '\r' := by decide
  exact all ⟨n, h⟩

theorem decodeChars_encodeChars (bytes : List UInt8) :
    decodeChars (encodeChars bytes) = some bytes := by
  induction bytes using encodeChars.induct with
  | case1 => rfl
  | case2 a =>
    have ha := a.toNat_lt
    have x := sextet_letter (show a.toNat / 4 < 64 by omega)
    have y := sextet_letter (show a.toNat % 4 * 16 < 64 by omega)
    simp only [encodeChars, decodeChars, x.1, y.1, Option.bind_some, Option.map_some]
    rw [ofNat_eq (a := a) (by omega)]
  | case3 a b =>
    have ha := a.toNat_lt
    have hb := b.toNat_lt
    have x := sextet_letter (show a.toNat / 4 < 64 by omega)
    have y := sextet_letter (show a.toNat % 4 * 16 + b.toNat / 16 < 64 by omega)
    have z := sextet_letter (show b.toNat % 16 * 4 < 64 by omega)
    simp only [encodeChars, decodeChars, x.1, y.1, z.1, Option.bind_some, Option.map_some]
    rw [ofNat_eq (a := a) (by omega), ofNat_eq (a := b) (by omega)]
  | case4 a b c rest ih =>
    have ha := a.toNat_lt
    have hb := b.toNat_lt
    have hc := c.toNat_lt
    have x := sextet_letter (show a.toNat / 4 < 64 by omega)
    have y := sextet_letter (show a.toNat % 4 * 16 + b.toNat / 16 < 64 by omega)
    have z := sextet_letter (show b.toNat % 16 * 4 + c.toNat / 64 < 64 by omega)
    have u := sextet_letter (show c.toNat % 64 < 64 by omega)
    simp only [encodeChars, decodeChars, x.1, y.1, z.1, u.1, ih, Option.bind_some, Option.map_some]
    rw [ofNat_eq (a := a) (by omega), ofNat_eq (a := b) (by omega), ofNat_eq (a := c) (by omega)]

theorem mem_encodeChars {bytes : List UInt8} {c : Char} (h : c ∈ encodeChars bytes) :
    ∃ n < 64, c = letter n := by
  induction bytes using encodeChars.induct with
  | case1 => cases h
  | case2 a =>
    have ha := a.toNat_lt
    simp only [encodeChars, List.mem_cons, List.not_mem_nil, or_false] at h
    obtain h | h := h
    · exact ⟨_, by omega, h⟩
    · exact ⟨_, by omega, h⟩
  | case3 a b =>
    have ha := a.toNat_lt
    have hb := b.toNat_lt
    simp only [encodeChars, List.mem_cons, List.not_mem_nil, or_false] at h
    obtain h | h | h := h
    · exact ⟨_, by omega, h⟩
    · exact ⟨_, by omega, h⟩
    · exact ⟨_, by omega, h⟩
  | case4 a b c rest ih =>
    have ha := a.toNat_lt
    have hb := b.toNat_lt
    have hc := c.toNat_lt
    simp only [encodeChars, List.mem_cons] at h
    obtain h | h | h | h | h := h
    · exact ⟨_, by omega, h⟩
    · exact ⟨_, by omega, h⟩
    · exact ⟨_, by omega, h⟩
    · exact ⟨_, by omega, h⟩
    · exact ih h

/-- No dot, so encodings can be told apart by dots between them. -/
theorem dot_not_mem (bytes : List UInt8) : '.' ∉ (encodeToString bytes).toList := by
  rw [encodeToString, String.toList_ofList]
  intro h
  obtain ⟨n, small, same⟩ := mem_encodeChars h
  exact (sextet_letter small).2.1 same.symm

theorem decodeString_encodeToString (bytes : List UInt8) :
    decodeString (encodeToString bytes) = some bytes := by
  have text : (encodeChars bytes).filter (fun c => c ≠ '\n' ∧ c ≠ '\r') = encodeChars bytes := by
    refine List.filter_eq_self.mpr fun c hc => decide_eq_true ?_
    obtain ⟨n, small, rfl⟩ := mem_encodeChars hc
    exact (sextet_letter small).2.2
  rw [decodeString, encodeToString, String.toList_ofList, text, decodeChars_encodeChars]

end GenChat.Library.Base64Url
