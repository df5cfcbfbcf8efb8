import GenChat.Library.Hex
import GenChat.Library.Utf16

/-!
# Texts and bytes in a browser

The byte conversions of JavaScript that scripts spell out: the bytes of a hexadecimal text by
`match(/.{1,2}/g)` and `parseInt`, and UTF-8 by `TextEncoder` and `TextDecoder`.
-/
namespace GenChat.Library.BrowserText

/-! ## Hexadecimal texts -/

/-- The code units that `.` of a regular expression does not match. -/
def lineTerminator (u : Nat) : Bool := u = 10 || u = 13 || u = 0x2028 || u = 0x2029

/-- What `match(/.{1,2}/g)` finds. -/
def pairs : List Nat → List (List Nat)
  | [] => []
  | [a] => if lineTerminator a then [] else [[a]]
  | a :: b :: rest =>
    if lineTerminator a then pairs (b :: rest)
    else if lineTerminator b then [a] :: pairs rest
    else [a, b] :: pairs rest

def hexDigit (u : Nat) : Option Nat :=
  if 48 ≤ u ∧ u ≤ 57 then some (u - 48)
  else if 97 ≤ u ∧ u ≤ 102 then some (u - 87)
  else if 65 ≤ u ∧ u ≤ 70 then some (u - 55)
  else none

/-- The white space that `parseInt` skips. -/
def isSpace (u : Nat) : Bool :=
  (9 ≤ u && u ≤ 13) || u = 32 || u = 0xA0 || u = 0x1680 || (0x2000 ≤ u && u ≤ 0x200A) ||
    u = 0x2028 || u = 0x2029 || u = 0x202F || u = 0x205F || u = 0x3000 || u = 0xFEFF

/-- `parseInt(text, 16)` as an element of a `Uint8Array`, where `NaN` becomes zero. -/
def hexByte : List Nat → UInt8
  | [a] => UInt8.ofNat ((hexDigit a).getD 0)
  | [a, b] =>
    match hexDigit a, hexDigit b with
    | some high, some low => UInt8.ofNat (high * 16 + low)
    | some high, none => UInt8.ofNat high
    | none, some low =>
      if isSpace a || a = 43 then UInt8.ofNat low
      else if a = 45 then 0 - UInt8.ofNat low
      else 0
    | none, none => 0
  | _ => 0

/-- The bytes of a hexadecimal text. Where nothing matches, `match` returns null, and the script
fails on it. -/
def hexBytes (text : String) : Option (List UInt8) :=
  match pairs (utf16 text) with
  | [] => none
  | found => some (found.map hexByte)

theorem utf16_digit {n : Nat} (h : n < 16) : ∃ u, utf16Char (Hex.digit n) = [u] ∧
    hexDigit u = some n ∧ lineTerminator u = false := by
  have all : ∀ n : Fin 16, utf16Char (Hex.digit n) = [(Hex.digit n).toNat] ∧
      hexDigit (Hex.digit n).toNat = some n.val ∧
      lineTerminator (Hex.digit n).toNat = false := by decide
  exact ⟨_, all ⟨n, h⟩⟩

/-- Each byte is written as a pair that reads back. -/
theorem pairs_encode (bytes : List UInt8) :
    (pairs (utf16 (Hex.encode bytes))).map hexByte = bytes := by
  have units : utf16 (Hex.encode bytes) = (Hex.encodeChars bytes).flatMap utf16Char := by
    simp [utf16, Hex.encode]
  rw [units]
  induction bytes with
  | nil => rfl
  | cons b rest ih =>
    have bound := b.toNat_lt
    obtain ⟨u, hu, high, hiLine⟩ := utf16_digit (show b.toNat / 16 < 16 by omega)
    obtain ⟨v, hv, low, loLine⟩ := utf16_digit (show b.toNat % 16 < 16 by omega)
    have whole : UInt8.ofNat (b.toNat / 16 * 16 + b.toNat % 16) = b := by
      rw [Nat.div_add_mod', UInt8.ofNat_toNat]
    have first : (Hex.encodeChars (b :: rest)).flatMap utf16Char =
        u :: v :: (Hex.encodeChars rest).flatMap utf16Char := by
      simp [Hex.encodeChars, hu, hv]
    rw [first, pairs, hiLine, loLine]
    simp only [Bool.false_eq_true, if_false, List.map_cons, hexByte, high, low, whole]
    rw [ih (by simp [utf16, Hex.encode])]

theorem hexBytes_encode {bytes : List UInt8} (h : bytes ≠ []) :
    hexBytes (Hex.encode bytes) = some bytes := by
  have found := pairs_encode bytes
  unfold hexBytes
  split
  · rename_i empty
    rw [empty] at found
    exact absurd found.symm h
  · rw [found]

/-! ## UTF-8 -/

/-- `TextEncoder.encode`. -/
def textEncode (text : String) : List UInt8 := text.toUTF8.data.toList

def byteOrderMark : List UInt8 := [0xEF, 0xBB, 0xBF]

/-- `TextDecoder.decode`, which drops a byte order mark at the start and replaces what is not
UTF-8. -/
def textDecode (bytes : List UInt8) : String :=
  let bytes := if bytes.take 3 = byteOrderMark then bytes.drop 3 else bytes
  match String.fromUTF8? ⟨bytes.toArray⟩ with
  | some text => text
  | none => String.ofList (Json.decodeUtf8 bytes)

/-- The text starts with a byte order mark. -/
def Marked (text : String) : Prop := text.toList.head? = some '\uFEFF'

instance (text : String) : Decidable (Marked text) := inferInstanceAs (Decidable (_ = _))

theorem fromUTF8?_textEncode (text : String) :
    String.fromUTF8? ⟨(textEncode text).toArray⟩ = some text := by
  have bytes : (⟨(textEncode text).toArray⟩ : ByteArray) = text.toByteArray := rfl
  rw [bytes, String.fromUTF8?, dif_pos text.isValidUTF8]
  rfl

theorem textEncode_ofList_cons (c : Char) (cs : List Char) :
    textEncode (String.ofList (c :: cs)) =
      String.utf8EncodeChar c ++ textEncode (String.ofList cs) := by
  simp [textEncode, List.utf8Encode, String.toByteArray_ofList]

theorem take_textEncode_iff {text : String} :
    (textEncode text).take 3 = byteOrderMark ↔ Marked text := by
  obtain ⟨chars, rfl⟩ : ∃ chars, text = String.ofList chars := ⟨text.toList, by simp⟩
  rw [Marked, String.toList_ofList]
  cases chars with
  | nil => decide
  | cons c cs =>
    rw [List.head?_cons, Option.some.injEq, textEncode_ofList_cons]
    constructor
    · intro mark
      -- The first character is what either prefix decodes to.
      have split := List.take_append_drop 3 (String.utf8EncodeChar c ++ textEncode (.ofList cs))
      rw [mark] at split
      have one : ((String.utf8EncodeChar c).toByteArray ++
          (textEncode (.ofList cs)).toByteArray).utf8DecodeChar? 0 = some c :=
        ByteArray.utf8DecodeChar?_utf8EncodeChar_append
      rw [← List.toByteArray_append, ← split, List.toByteArray_append] at one
      have other := ByteArray.utf8DecodeChar?_utf8EncodeChar_append (c := '\uFEFF')
        (b := ((String.utf8EncodeChar c ++ textEncode (.ofList cs)).drop 3).toByteArray)
      exact Option.some.inj (one.symm.trans other)
    · rintro rfl
      rfl

/-- What is encoded decodes to itself, unless it starts with a byte order mark. -/
theorem textDecode_textEncode_iff {text : String} :
    textDecode (textEncode text) = text ↔ ¬ Marked text := by
  by_cases mark : Marked text
  · refine iff_of_false (fun same => ?_) (not_not_intro mark)
    obtain ⟨cs, rfl⟩ : ∃ cs, text = String.ofList ('\uFEFF' :: cs) := by
      obtain ⟨rest, chars⟩ := List.head?_eq_some_iff.mp mark
      exact ⟨rest, by rw [← chars, String.ofList_toList]⟩
    have dropped : (textEncode (String.ofList ('\uFEFF' :: cs))).drop 3 =
        textEncode (String.ofList cs) := by
      rw [textEncode_ofList_cons]
      rfl
    rw [textDecode, if_pos (take_textEncode_iff.mpr mark), dropped,
      fromUTF8?_textEncode] at same
    have lengths := congrArg (fun text => text.toList.length) same
    simp at lengths
  · refine iff_of_true ?_ mark
    rw [textDecode, if_neg (mt take_textEncode_iff.mp mark), fromUTF8?_textEncode]

end GenChat.Library.BrowserText
