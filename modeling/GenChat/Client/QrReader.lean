import GenChat.Client.QrMatrix
import GenChat.Library.BitString
import GenChat.Library.ReedSolomon

/-!
# Reading a QR code

What the standard prescribes for a symbol of level L and mask 0 whose text is one segment of bytes:
the version follows from the size, both copies of the format information are read, the modules
outside the function patterns are unmasked in the order of the zigzag, their bytes are split into
the blocks of the version, and every block must have no syndrome. Nothing here depends on how
`createMatrix` draws a symbol.
-/
namespace GenChat.Client.QrReader
open Library BitString
open QrCodeSvgGenerator (Cell Matrix)

/-! ## Tables of the standard -/

/-- The blocks of a version: their number, and the data and check codewords of each. -/
structure Blocks where
  count : Nat
  data : Nat
  check : Nat
  deriving DecidableEq, Repr

/-- Level L. -/
def blocksL : Nat → Option Blocks
  | 1 => some ⟨1, 19, 7⟩
  | 2 => some ⟨1, 34, 10⟩
  | 3 => some ⟨1, 55, 15⟩
  | 4 => some ⟨1, 80, 20⟩
  | 5 => some ⟨1, 108, 26⟩
  | 6 => some ⟨2, 68, 18⟩
  | _ => none

/-- The remainder of five bits by the generator of the format information. -/
def formatRemainder (format : Nat) : Nat :=
  (List.range 5).reverse.foldl (fun rest i =>
    if rest.testBit (10 + i) then rest ^^^ (0x537 <<< i) else rest) (format <<< 10)

def formatInformation (level mask : Nat) : List Bool :=
  let format := level <<< 3 ||| mask
  bits 15 ((format <<< 10 ||| formatRemainder format) ^^^ 0x5412)

/-- The bits of level L. -/
def levelL : Nat := 1

/-! ## Places -/

/-- The format information around the upper left finder pattern. -/
def firstCopy : List Cell :=
  [(8, 0), (8, 1), (8, 2), (8, 3), (8, 4), (8, 5), (8, 7), (8, 8), (7, 8), (5, 8), (4, 8), (3, 8),
    (2, 8), (1, 8), (0, 8)]

/-- The format information below and on the right. -/
def secondCopy (size : Nat) : List Cell :=
  (List.range 7).map (fun i => (size - 1 - i, 8)) ++ (List.range 8).map fun i => (8, size - 8 + i)

/-- Finder patterns with separators and format information, timing patterns, and the alignment
pattern that the versions from 2 to 6 have. -/
def isFunction (size : Nat) (cell : Cell) : Bool :=
  let (row, col) := cell
  (row < 9 ∧ col < 9) ∨ (row < 9 ∧ size ≤ col + 8) ∨ (size ≤ row + 8 ∧ col < 9) ∨
    row = 6 ∨ col = 6 ∨
    (25 ≤ size ∧ size ≤ row + 9 ∧ row + 5 ≤ size ∧ size ≤ col + 9 ∧ col + 5 ≤ size)

/-- The right columns of the pairs: the column of the vertical timing pattern is left out. -/
def columns (size : Nat) : List Nat :=
  (List.range ((size - 7) / 2)).map (fun i => size - 1 - 2 * i) ++ [5, 3, 1]

/-- The first pair is read upwards, the next one downwards, and so on. -/
def route (size : Nat) : List Cell :=
  (columns size).zipIdx.flatMap fun (right, i) =>
    (if i % 2 = 0 then (List.range size).reverse else List.range size).flatMap fun row =>
      [(row, right), (row, right - 1)]

def encodingRegion (size : Nat) : List Cell := (route size).filter fun cell => !isFunction size cell

/-! ## Codewords -/

/-- Mask 0 inverts where row and column have an even sum. -/
def unmasked (m : Matrix) (cell : Cell) : Bool := m.dark cell ^^ ((cell.1 + cell.2) % 2 = 0)

def codewords (m : Matrix) : List GF256 :=
  (octets ((encodingRegion m.size).map (unmasked m))).map fun byte =>
    .ofNat (BitString.number byte)

/-- The blocks take turns: first their data, then their check codewords. -/
def block (b : Blocks) (words : List GF256) (i : Nat) : List GF256 :=
  (List.range b.data).map (fun k => words.getD (b.count * k + i) 0) ++
    (List.range b.check).map fun k => words.getD (b.count * (b.data + k) + i) 0

def blocks (b : Blocks) (words : List GF256) : List (List GF256) :=
  (List.range b.count).map (block b words)

/-- The values at the powers of the generator are zero. -/
def correct (b : Blocks) (word : List GF256) : Prop :=
  ∀ i < b.check, ReedSolomon.eval (GF256.alpha ^ i) word = 0

/-! ## The text -/

/-- One segment of bytes, then the terminator as far as there is room. -/
def segment (data : List GF256) : Option (List UInt8) :=
  let stream := data.flatMap fun word => bits 8 word.toNat
  let count := BitString.number ((stream.drop 4).take 8)
  let text := stream.drop 12
  if BitString.number (stream.take 4) = 4 ∧ 8 * count ≤ text.length ∧
      BitString.number ((text.drop (8 * count)).take 4) = 0 then
    some ((octets (text.take (8 * count))).map fun byte => UInt8.ofNat (BitString.number byte))
  else none

instance (b : Blocks) (word : List GF256) : Decidable (correct b word) :=
  inferInstanceAs (Decidable (∀ i < b.check, _))

/-- The bytes of a symbol, if it is one. -/
def read (m : Matrix) : Option (List UInt8) := do
  let b ← blocksL ((m.size - 17) / 4)
  let format := formatInformation levelL 0
  let words := blocks b (codewords m)
  if m.size % 4 = 1 ∧ firstCopy.map m.dark = format ∧ (secondCopy m.size).map m.dark = format ∧
      ∀ word ∈ words, correct b word then
    segment (words.flatMap (·.take b.data))
  else none

end GenChat.Client.QrReader
