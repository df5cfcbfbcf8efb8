import GenChat.Library.Json

/-!
# Hexadecimal texts

Two digits for each byte. `encode` writes lower case; `decode` reads either case and refuses a text
of odd length or with any other character.
-/
namespace GenChat.Library.Hex

def digit (n : Nat) : Char := if n < 10 then Char.ofNat (48 + n) else Char.ofNat (87 + n)

def encodeChars (bytes : List UInt8) : List Char :=
  bytes.flatMap fun b => [digit (b.toNat / 16), digit (b.toNat % 16)]

def encode (bytes : List UInt8) : String := String.ofList (encodeChars bytes)

def decodeChars : List Char → Option (List UInt8)
  | [] => some []
  | [_] => none
  | a :: b :: rest => do
    let high ← Json.hexDigit a
    let low ← Json.hexDigit b
    let later ← decodeChars rest
    return UInt8.ofNat (high * 16 + low) :: later

def decode (s : String) : Option (List UInt8) := decodeChars s.toList

theorem hexDigit_digit {n : Nat} (h : n < 16) : Json.hexDigit (digit n) = some n := by
  have all : ∀ n : Fin 16, Json.hexDigit (digit n) = some n.val := by decide
  exact all ⟨n, h⟩

theorem decodeChars_encodeChars (bytes : List UInt8) :
    decodeChars (encodeChars bytes) = some bytes := by
  induction bytes with
  | nil => rfl
  | cons b rest ih =>
    have bound := b.toNat_lt
    have high := hexDigit_digit (show b.toNat / 16 < 16 by omega)
    have low := hexDigit_digit (show b.toNat % 16 < 16 by omega)
    have whole : UInt8.ofNat (b.toNat / 16 * 16 + b.toNat % 16) = b := by
      rw [Nat.div_add_mod', UInt8.ofNat_toNat]
    change decodeChars (digit (b.toNat / 16) :: digit (b.toNat % 16) :: encodeChars rest) = _
    simp only [decodeChars, high, low, ih, Option.bind_eq_bind, Option.bind_some, Option.pure_def,
      whole]

theorem decode_encode (bytes : List UInt8) : decode (encode bytes) = some bytes := by
  simp [decode, encode, decodeChars_encodeChars]

theorem encode_inj {x y : List UInt8} (h : encode x = encode y) : x = y := by
  have := congrArg decode h
  simpa [decode_encode] using this

end GenChat.Library.Hex
