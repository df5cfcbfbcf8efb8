import Mathlib.Tactic

/-!
# Standard base64

`encodeToString` and `decodeString` follow `base64.StdEncoding`: padded, with line breaks ignored
on input. Decoding returns the bytes read before the first error, and whether there was none.
-/
namespace GenChat.Library.Base64

def letter (n : Nat) : Char :=
  if n < 26 then Char.ofNat (n + 65)
  else if n < 52 then Char.ofNat (n + 71)
  else if n < 62 then Char.ofNat (n - 4)
  else if n = 62 then '+' else '/'

def sextet (c : Char) : Option Nat :=
  if 'A' ≤ c ∧ c ≤ 'Z' then some (c.toNat - 65)
  else if 'a' ≤ c ∧ c ≤ 'z' then some (c.toNat - 71)
  else if '0' ≤ c ∧ c ≤ '9' then some (c.toNat + 4)
  else if c = '+' then some 62
  else if c = '/' then some 63
  else none

def encodeChars : List UInt8 → List Char
  | [] => []
  | [a] => [letter (a.toNat / 4), letter (a.toNat % 4 * 16), '=', '=']
  | [a, b] =>
    [letter (a.toNat / 4), letter (a.toNat % 4 * 16 + b.toNat / 16), letter (b.toNat % 16 * 4), '=']
  | a :: b :: c :: rest =>
    letter (a.toNat / 4) :: letter (a.toNat % 4 * 16 + b.toNat / 16) ::
      letter (b.toNat % 16 * 4 + c.toNat / 64) :: letter (c.toNat % 64) :: encodeChars rest

def encodeToString (bytes : List UInt8) : String := String.ofList (encodeChars bytes)

/-- One group of four after another. Padding ends the input; what follows it is an error, but
does not take back the bytes of its group. -/
def decodeChars : List Char → List UInt8 × Bool
  | [] => ([], true)
  | a :: b :: c :: d :: rest =>
    match sextet a, sextet b with
    | some x, some y =>
      let first := UInt8.ofNat (x * 4 + y / 16)
      if c = '=' then
        if d = '=' then ([first], rest.isEmpty) else ([], false)
      else
        match sextet c with
        | none => ([], false)
        | some z =>
          let second := UInt8.ofNat (y * 16 + z / 4)
          if d = '=' then ([first, second], rest.isEmpty)
          else
            match sextet d with
            | none => ([], false)
            | some u =>
              let later := decodeChars rest
              (first :: second :: UInt8.ofNat (z * 64 + u) :: later.1, later.2)
    | _, _ => ([], false)
  | _ => ([], false)

def decodeString (s : String) : List UInt8 × Bool :=
  decodeChars (s.toList.filter fun c => c ≠ '\n' ∧ c ≠ '\r')

/-! ## Round trip -/

/-- The letters of base64 are read back and are neither padding nor line breaks. -/
theorem sextet_letter {n : Nat} (h : n < 64) : sextet (letter n) = some n ∧ letter n ≠ '=' ∧
    letter n ≠ '\n' ∧ letter n ≠ '\r' := by
  have all : ∀ n : Fin 64, sextet (letter n) = some n.val ∧ letter n ≠ '=' ∧
      letter n ≠ '\n' ∧ letter n ≠ '\r' := by decide
  exact all ⟨n, h⟩

theorem ofNat_eq {n : Nat} {a : UInt8} (h : n % 256 = a.toNat) : UInt8.ofNat n = a := by
  apply UInt8.toNat.inj
  rw [UInt8.toNat_ofNat', h]

theorem decodeChars_encodeChars (bytes : List UInt8) :
    decodeChars (encodeChars bytes) = (bytes, true) := by
  induction bytes using encodeChars.induct with
  | case1 => rfl
  | case2 a =>
    have ha := a.toNat_lt
    have x := sextet_letter (show a.toNat / 4 < 64 by omega)
    have y := sextet_letter (show a.toNat % 4 * 16 < 64 by omega)
    simp only [encodeChars, decodeChars, x.1, y.1, if_true, List.isEmpty_nil]
    rw [ofNat_eq (a := a) (by omega)]
  | case3 a b =>
    have ha := a.toNat_lt
    have hb := b.toNat_lt
    have x := sextet_letter (show a.toNat / 4 < 64 by omega)
    have y := sextet_letter (show a.toNat % 4 * 16 + b.toNat / 16 < 64 by omega)
    have z := sextet_letter (show b.toNat % 16 * 4 < 64 by omega)
    simp only [encodeChars, decodeChars, x.1, y.1, z.1, z.2.1, if_true, if_false, List.isEmpty_nil]
    rw [ofNat_eq (a := a) (by omega), ofNat_eq (a := b) (by omega)]
  | case4 a b c rest ih =>
    have ha := a.toNat_lt
    have hb := b.toNat_lt
    have hc := c.toNat_lt
    have x := sextet_letter (show a.toNat / 4 < 64 by omega)
    have y := sextet_letter (show a.toNat % 4 * 16 + b.toNat / 16 < 64 by omega)
    have z := sextet_letter (show b.toNat % 16 * 4 + c.toNat / 64 < 64 by omega)
    have u := sextet_letter (show c.toNat % 64 < 64 by omega)
    simp only [encodeChars, decodeChars, x.1, y.1, z.1, z.2.1, u.1, u.2.1, if_false, ih]
    rw [ofNat_eq (a := a) (by omega), ofNat_eq (a := b) (by omega), ofNat_eq (a := c) (by omega)]

theorem mem_encodeChars {bytes : List UInt8} {c : Char} (h : c ∈ encodeChars bytes) :
    c = '=' ∨ ∃ n < 64, c = letter n := by
  induction bytes using encodeChars.induct with
  | case1 => cases h
  | case2 a =>
    have ha := a.toNat_lt
    simp only [encodeChars, List.mem_cons, List.not_mem_nil, or_false] at h
    obtain h | h | h | h := h
    · exact .inr ⟨_, by omega, h⟩
    · exact .inr ⟨_, by omega, h⟩
    · exact .inl h
    · exact .inl h
  | case3 a b =>
    have ha := a.toNat_lt
    have hb := b.toNat_lt
    simp only [encodeChars, List.mem_cons, List.not_mem_nil, or_false] at h
    obtain h | h | h | h := h
    · exact .inr ⟨_, by omega, h⟩
    · exact .inr ⟨_, by omega, h⟩
    · exact .inr ⟨_, by omega, h⟩
    · exact .inl h
  | case4 a b c rest ih =>
    have ha := a.toNat_lt
    have hb := b.toNat_lt
    have hc := c.toNat_lt
    simp only [encodeChars, List.mem_cons] at h
    obtain h | h | h | h | h := h
    · exact .inr ⟨_, by omega, h⟩
    · exact .inr ⟨_, by omega, h⟩
    · exact .inr ⟨_, by omega, h⟩
    · exact .inr ⟨_, by omega, h⟩
    · exact ih h

theorem encodeChars_text (bytes : List UInt8) : ∀ c ∈ encodeChars bytes, c ≠ '\n' ∧ c ≠ '\r' := by
  intro c hc
  obtain rfl | ⟨n, small, rfl⟩ := mem_encodeChars hc
  · decide
  · exact (sextet_letter small).2.2

/-- No colon, so texts can be told apart by colons between them. -/
theorem colon_not_mem (bytes : List UInt8) : ':' ∉ (encodeToString bytes).toList := by
  rw [encodeToString, String.toList_ofList]
  intro h
  obtain h | ⟨n, small, h⟩ := mem_encodeChars h
  · cases h
  · have other : ∀ n : Fin 64, ':' ≠ letter n := by decide
    exact other ⟨n, small⟩ h

theorem decodeString_encodeToString (bytes : List UInt8) :
    decodeString (encodeToString bytes) = (bytes, true) := by
  have text : (encodeChars bytes).filter (fun c => c ≠ '\n' ∧ c ≠ '\r') = encodeChars bytes :=
    List.filter_eq_self.mpr fun c hc => decide_eq_true (encodeChars_text bytes c hc)
  rw [decodeString, encodeToString, String.toList_ofList, text, decodeChars_encodeChars]

example : decodeString (encodeToString [71, 101, 110, 67]) = ([71, 101, 110, 67], true) := by
  decide

theorem encodeToString_injective : Function.Injective encodeToString := by
  intro xs ys same
  have decoded := decodeString_encodeToString ys
  rw [← same, decodeString_encodeToString] at decoded
  exact congrArg Prod.fst decoded

theorem encodeToString_eq_empty {bytes : List UInt8} :
    encodeToString bytes = "" ↔ bytes = [] := by
  rw [encodeToString, ← String.toList_inj, String.toList_ofList]
  rcases bytes with _ | ⟨a, _ | ⟨b, _ | ⟨c, rest⟩⟩⟩ <;> simp [encodeChars]

end GenChat.Library.Base64
