import GenChat.Client.SafetyNumbers
import GenChat.Library.GaloisField

/-!
# The QR codes of safety numbers

`QrCodeSvgGenerator.createMatrix` draws the function patterns, appends the error correction to the
bits of a text and places them in the zigzag of the standard. The size depends on the length of the
text; a text that is too long for the largest size is placed as far as there is room.
-/
namespace GenChat.Client
open Library

namespace QrCodeSvgGenerator

/-- A row and a column. -/
abbrev Cell := Nat × Nat

/-- The modules drawn so far. -/
abbrev Grid := Cell → Option Bool

/-! ## Function patterns -/

/-- A finder pattern and the separator around it, as far as they are inside. -/
def addFinderPattern (size : Nat) (matrix : Grid) (startRow startCol : Nat) : Grid :=
  fun (row, col) =>
    if startRow ≤ row + 1 ∧ row ≤ startRow + 7 ∧ startCol ≤ col + 1 ∧ col ≤ startCol + 7 ∧
        row < size ∧ col < size then
      if row + 1 = startRow ∨ row = startRow + 7 ∨ col + 1 = startCol ∨ col = startCol + 7 then
        some false
      else if row = startRow ∨ row = startRow + 6 ∨ col = startCol ∨ col = startCol + 6 then
        some true
      else if startRow + 2 ≤ row ∧ row ≤ startRow + 4 ∧ startCol + 2 ≤ col ∧ col ≤ startCol + 4 then
        some true
      else some false
    else matrix (row, col)

def addAlignmentPattern (matrix : Grid) (startRow startCol : Nat) : Grid := fun (row, col) =>
  if startRow ≤ row ∧ row < startRow + 5 ∧ startCol ≤ col ∧ col < startCol + 5 then
    some (row = startRow ∨ row = startRow + 4 ∨ col = startCol ∨ col = startCol + 4 ∨
      (row = startRow + 2 ∧ col = startCol + 2))
  else matrix (row, col)

def getAlignmentPositions : Nat → List Nat
  | 1 => []
  | 2 => [6, 18]
  | 3 => [6, 22]
  | 4 => [6, 26]
  | 5 => [6, 30]
  | 6 => [6, 34]
  | version => [6, version * 4 + 10]

def addAlignmentPatterns (matrix : Grid) (positions : List Nat) : Grid :=
  (positions.product positions).foldl (fun matrix (r, c) =>
    if matrix (r, c) = none then addAlignmentPattern matrix (r - 2) (c - 2) else matrix) matrix

/-- Row 6 and column 6. -/
def addTiming (size : Nat) (matrix : Grid) : Grid := fun (row, col) =>
  if row = 6 ∧ 8 ≤ col ∧ col < size - 8 ∧ matrix (row, col) = none then some (col % 2 = 0)
  else if col = 6 ∧ 8 ≤ row ∧ row < size - 8 ∧ matrix (row, col) = none then some (row % 2 = 0)
  else matrix (row, col)

def addDarkModule (size : Nat) (matrix : Grid) : Grid :=
  Function.update matrix (size - 8, 8) (some true)

/-- The modules of the format information that are not drawn yet. -/
def reserveFormat (size : Nat) (matrix : Grid) : Grid := fun (row, col) =>
  if ((row = 8 ∧ (col < 9 ∨ size ≤ col + 8 ∧ col < size)) ∨
      (col = 8 ∧ (row < 9 ∨ size ≤ row + 8 ∧ row < size))) ∧ matrix (row, col) = none then
    some false
  else matrix (row, col)

def drawPatterns (version : Nat) : Grid :=
  let size := version * 4 + 17
  let matrix := addFinderPattern size (fun _ => none) 0 0
  let matrix := addFinderPattern size matrix (size - 7) 0
  let matrix := addFinderPattern size matrix 0 (size - 7)
  let matrix := addAlignmentPatterns matrix (getAlignmentPositions version)
  reserveFormat size (addDarkModule size (addTiming size matrix))

/-! ## Error correction -/

/-- The tables of powers and logarithms, and the next power. -/
structure Tables where
  exp : List GF256
  log : List Nat
  x : Nat

def fillTables (t : Tables) (i : Nat) : Tables where
  exp := (t.exp.set i (.ofNat t.x)).set (i + 255) (.ofNat t.x)
  log := t.log.set t.x i
  x := (t.x <<< 1) ^^^ (if 128 ≤ t.x then 0x11d else 0)

def tables : Tables :=
  (List.range 255).foldl fillTables ⟨List.replicate 512 0, List.replicate 256 0, 1⟩

def gfExp (i : Nat) : GF256 := tables.exp.getD i 0

def gfLog (a : GF256) : Nat := tables.log.getD a.toNat 0

def gfMul (a b : GF256) : GF256 := if a = 0 ∨ b = 0 then 0 else gfExp (gfLog a + gfLog b)

/-- Lowest coefficient first. -/
def generatorPolynomial (ecCount : Nat) : List GF256 :=
  (List.range ecCount).foldl (fun gen i =>
    List.zipWith (· + ·) (gen.map (gfMul · (gfExp i)) ++ [0]) (0 :: gen)) [1]

def computeReedSolomon (data : List GF256) (ecCount : Nat) : List GF256 :=
  let gen := generatorPolynomial ecCount
  data.foldl (fun res d =>
    let factor := d + res.headD 0
    List.zipWith (· + ·) (res.tail ++ [0]) ((gen.take ecCount).reverse.map (gfMul · factor)))
    (List.replicate ecCount 0)

/-! ## The bits of a text -/

/-- The highest bit first. -/
def pushBits (val len : Nat) : List Bool := (List.range len).reverse.map val.testBit

def getTotalDataBytes : Nat → Nat
  | 1 => 19
  | 2 => 34
  | 3 => 55
  | 4 => 80
  | 5 => 108
  | 6 => 136
  | _ => 80

def getEcBytesCount : Nat → Nat
  | 1 => 7
  | 2 => 10
  | 3 => 15
  | 4 => 20
  | 5 => 26
  | 6 => 36
  | _ => 20

def toByte (bits : List Bool) : GF256 :=
  .ofNat (bits.foldl (fun b bit => 2 * b + bit.toNat) 0)

/-- Groups of eight bits; a last one that is shorter is filled up. -/
def toBytes : List Bool → List GF256
  | [] => []
  | a :: b :: c :: d :: e :: f :: g :: h :: rest => toByte [a, b, c, d, e, f, g, h] :: toBytes rest
  | bits => [toByte (bits ++ List.replicate (8 - bits.length) false)]

def padBytes (count : Nat) : List Bool :=
  (List.range count).flatMap fun i => pushBits (if i % 2 = 0 then 0xec else 0x11) 8

/-- The bits of the data codewords. -/
def dataBits (data : List UInt8) (version : Nat) : List Bool :=
  let bits := pushBits 4 4 ++ pushBits data.length 8 ++ data.flatMap fun b => pushBits b.toNat 8
  let capacityBits := getTotalDataBytes version * 8
  let bits := bits ++ List.replicate (min 4 (capacityBits - bits.length)) false
  let bits := bits ++ List.replicate ((8 - bits.length % 8) % 8) false
  bits ++ padBytes ((capacityBits - bits.length + 7) / 8)

def createDataBitstream (data : List UInt8) (version : Nat) : List Bool :=
  let bits := dataBits data version
  bits ++ (computeReedSolomon (toBytes bits) (getEcBytesCount version)).flatMap
    fun ec => pushBits ec.toNat 8

/-! ## The matrix -/

def getVersion (length : Nat) : Nat :=
  if 84 < length then 6 else if 60 < length then 5 else if 32 < length then 4 else 3

/-- The rows of a column pair. -/
def rows (size : Nat) (upwards : Bool) : List Nat :=
  if upwards then (List.range size).reverse else List.range size

/-- The column pairs from the right; the loop ends at the left border. -/
def zigzag (size : Nat) : Nat → Nat → Bool → List Cell
  | 0, _, _ => []
  | fuel + 1, right, upwards =>
    if right = 0 then []
    else
      let right := if right = 6 then right - 1 else right
      (rows size upwards).flatMap (fun row => [(row, right), (row, right - 1)]) ++
        zigzag size fuel (right - 2) (!upwards)

def walk (size : Nat) : List Cell := zigzag size size (size - 1) true

/-- Mask pattern 0. -/
def masked (cell : Cell) (bit : Bool) : Bool := if (cell.1 + cell.2) % 2 = 0 then !bit else bit

/-- The next bit goes to a cell that is free. -/
def placeBit (state : Grid × List Bool) (cell : Cell) : Grid × List Bool :=
  if state.1 cell = none then
    (Function.update state.1 cell (some (masked cell (state.2.headD false))), state.2.tail)
  else state

def formatBits : List Bool :=
  [true, true, true, false, true, true, true, true, true, false, false, false, true, false, false]

/-- Where the bits of the format information go: first copy, second copy. -/
def formatCells (size : Nat) : List Cell :=
  [(8, 0), (8, 1), (8, 2), (8, 3), (8, 4), (8, 5), (8, 7), (8, 8), (7, 8), (5, 8), (4, 8), (3, 8),
    (2, 8), (1, 8), (0, 8)] ++
  ((List.range 7).map (fun i => (size - 1 - i, 8)) ++
    (List.range 8).map fun i => (8, size - 8 + i))

def writeFormat (size : Nat) (matrix : Grid) : Grid :=
  ((formatCells size).zip (formatBits ++ formatBits)).foldl
    (fun matrix (cell, bit) => Function.update matrix cell (some bit)) matrix

/-- A square of modules. -/
structure Matrix where
  size : Nat
  dark : Cell → Bool

def createMatrix (text : Units) : Matrix :=
  let data := encodeUnits text
  let version := getVersion data.length
  let size := version * 4 + 17
  let placed := ((walk size).foldl placeBit
    (drawPatterns version, createDataBitstream data version)).1
  ⟨size, fun cell => (writeFormat size placed cell).getD false⟩

end QrCodeSvgGenerator
end GenChat.Client
