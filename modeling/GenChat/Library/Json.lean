import Mathlib.Tactic

/-!
# JSON as `encoding/json` reads it

`Json.parse` accepts the grammar of RFC 8259. The `read` functions decode one struct field: keys
match without regard to case, the last of several keys wins, `null` leaves the field alone, and a
value of the wrong type is an error. Invalid UTF-8 and lone surrogates read as U+FFFD.
-/
namespace GenChat.Library

inductive Json where
  | null
  | bool (b : Bool)
  /-- The value of an integer literal; `none` for a literal with a fraction or an exponent. -/
  | number (integer : Option Int)
  | string (s : String)
  | array (elems : List Json)
  | object (members : List (String × Json))

namespace Json

/-! ## Text -/

def replacement : Char := Char.ofNat 0xFFFD

/-- The value of UTF-8 continuation bytes, if they are that. -/
def continuation (bytes : List UInt8) : Option Nat :=
  bytes.foldlM (fun n b => if b.toNat / 64 = 2 then some (n * 64 + b.toNat % 64) else none) 0

def scalarOr (valid : Bool) (n : Nat) : Char :=
  if valid ∧ (n < 0xD800 ∨ 0xDFFF < n) ∧ n < 0x110000 then Char.ofNat n else replacement

def decodeUtf8 : List UInt8 → List Char
  | [] => []
  | a :: rest =>
    if a < 0x80 then Char.ofNat a.toNat :: decodeUtf8 rest
    else
      match rest with
      | b :: rest₂ =>
        match continuation [b] with
        | none => replacement :: decodeUtf8 (b :: rest₂)
        | some m =>
          if a.toNat / 32 = 6 then
            let n := a.toNat % 32 * 64 + m
            scalarOr (0x80 ≤ n) n :: decodeUtf8 rest₂
          else
            match rest₂ with
            | c :: rest₃ =>
              match continuation [b, c] with
              | none => replacement :: decodeUtf8 (b :: c :: rest₃)
              | some m =>
                if a.toNat / 16 = 14 then
                  let n := a.toNat % 16 * 4096 + m
                  scalarOr (0x800 ≤ n) n :: decodeUtf8 rest₃
                else
                  match rest₃ with
                  | d :: rest₄ =>
                    match continuation [b, c, d] with
                    | none => replacement :: decodeUtf8 (b :: c :: d :: rest₄)
                    | some m =>
                      if a.toNat / 8 = 30 then
                        let n := a.toNat % 8 * 262144 + m
                        scalarOr (0x10000 ≤ n) n :: decodeUtf8 rest₄
                      else replacement :: decodeUtf8 (b :: c :: d :: rest₄)
                  | [] => replacement :: decodeUtf8 [b, c]
            | [] => replacement :: decodeUtf8 [b]
      | [] => [replacement]

def hexDigit (c : Char) : Option Nat :=
  if '0' ≤ c ∧ c ≤ '9' then some (c.toNat - 48)
  else if 'a' ≤ c ∧ c ≤ 'f' then some (c.toNat - 87)
  else if 'A' ≤ c ∧ c ≤ 'F' then some (c.toNat - 55)
  else none

def hex4 (a b c d : Char) : Option Nat :=
  [a, b, c, d].foldlM (fun n x => (hexDigit x).map (n * 16 + ·)) 0

def escaped : Char → Option Char
  | '"' => some '"'
  | '\\' => some '\\'
  | '/' => some '/'
  | 'b' => some (Char.ofNat 8)
  | 'f' => some (Char.ofNat 12)
  | 'n' => some '\n'
  | 'r' => some '\r'
  | 't' => some '\t'
  | _ => none

/-- The rest of a string literal after its opening quote. -/
def stringBody : Nat → List Char → Option (List Char × List Char)
  | 0, _ => none
  | _ + 1, '"' :: rest => some ([], rest)
  | fuel + 1, '\\' :: 'u' :: a :: b :: c :: d :: rest =>
    (hex4 a b c d).bind fun hi =>
      let lone := (stringBody fuel rest).map fun r => (scalarOr true hi :: r.1, r.2)
      if 0xD800 ≤ hi ∧ hi < 0xDC00 then
        match rest with
        | '\\' :: 'u' :: e :: f :: g :: h :: rest₂ =>
          match hex4 e f g h with
          | none => none
          | some lo =>
            if 0xDC00 ≤ lo ∧ lo < 0xE000 then
              (stringBody fuel rest₂).map fun r =>
                (Char.ofNat (0x10000 + (hi - 0xD800) * 1024 + (lo - 0xDC00)) :: r.1, r.2)
            else lone
        | _ => lone
      else lone
  | fuel + 1, '\\' :: c :: rest =>
    (escaped c).bind fun e => (stringBody fuel rest).map fun r => (e :: r.1, r.2)
  | fuel + 1, c :: rest =>
    if c.toNat < 32 then none else (stringBody fuel rest).map fun r => (c :: r.1, r.2)
  | _ + 1, [] => none

/-! ## Numbers -/

def isDigit (c : Char) : Bool := '0' ≤ c && c ≤ '9'

def digits (cs : List Char) : List Char × List Char := (cs.takeWhile isDigit, cs.dropWhile isDigit)

def decimal (ds : List Char) : Nat := ds.foldl (fun n d => n * 10 + (d.toNat - 48)) 0

def fraction : List Char → Option (Bool × List Char)
  | '.' :: rest => let r := digits rest; if r.1 = [] then none else some (true, r.2)
  | cs => some (false, cs)

def exponent : List Char → Option (Bool × List Char)
  | e :: rest =>
    if e = 'e' ∨ e = 'E' then
      let unsigned := match rest with
        | s :: more => if s = '+' ∨ s = '-' then more else rest
        | [] => rest
      let r := digits unsigned
      if r.1 = [] then none else some (true, r.2)
    else some (false, e :: rest)
  | [] => some (false, [])

/-- A literal whose sign has been read. -/
def unsignedNumber (negative : Bool) (cs : List Char) : Option (Json × List Char) :=
  let whole := digits cs
  if whole.1 = [] ∨ (whole.1.head? = some '0' ∧ whole.1.length ≠ 1) then none
  else
    (fraction whole.2).bind fun f => (exponent f.2).map fun e =>
      let n : Int := if negative then -(decimal whole.1 : Int) else decimal whole.1
      (.number (if f.1 || e.1 then none else some n), e.2)

/-! ## Values -/

def skipSpace (cs : List Char) : List Char :=
  cs.dropWhile fun c => c = ' ' || c = '\t' || c = '\n' || c = '\r'

def literal (word : String) (v : Json) (cs : List Char) : Option (Json × List Char) :=
  if word.toList.isPrefixOf cs then some (v, cs.drop word.length) else none

mutual

def value : Nat → List Char → Option (Json × List Char)
  | 0, _ => none
  | fuel + 1, cs =>
    match skipSpace cs with
    | '"' :: rest => (stringBody fuel rest).map fun r => (.string (String.ofList r.1), r.2)
    | '[' :: rest =>
      match skipSpace rest with
      | ']' :: rest => some (.array [], rest)
      | rest => (elements fuel rest).map fun r => (.array r.1, r.2)
    | '\x7b' :: rest =>
      match skipSpace rest with
      | '\x7d' :: rest => some (.object [], rest)
      | rest => (members fuel rest).map fun r => (.object r.1, r.2)
    | '-' :: rest => unsignedNumber true rest
    | 't' :: rest => literal "true" (.bool true) ('t' :: rest)
    | 'f' :: rest => literal "false" (.bool false) ('f' :: rest)
    | 'n' :: rest => literal "null" .null ('n' :: rest)
    | cs => unsignedNumber false cs

def elements : Nat → List Char → Option (List Json × List Char)
  | 0, _ => none
  | fuel + 1, cs =>
    (value fuel cs).bind fun v =>
      match skipSpace v.2 with
      | ']' :: rest => some ([v.1], rest)
      | ',' :: rest => (elements fuel rest).map fun r => (v.1 :: r.1, r.2)
      | _ => none

def members : Nat → List Char → Option (List (String × Json) × List Char)
  | 0, _ => none
  | fuel + 1, cs =>
    match skipSpace cs with
    | '"' :: rest => (stringBody fuel rest).bind fun key =>
      match skipSpace key.2 with
      | ':' :: rest => (value fuel rest).bind fun v =>
        match skipSpace v.2 with
        | '\x7d' :: rest => some ([(String.ofList key.1, v.1)], rest)
        | ',' :: rest => (members fuel rest).map fun r => ((String.ofList key.1, v.1) :: r.1, r.2)
        | _ => none
      | _ => none
    | _ => none

end

/-- A whole text. Each call consumes a character or is followed by one that does, so the fuel
never runs out first. -/
def parse (data : List UInt8) : Option Json :=
  let cs := decodeUtf8 data
  match value (2 * cs.length + 2) cs with
  | some (v, rest) => if skipSpace rest = [] then some v else none
  | none => none

/-! ## Struct fields -/

/-- Letters that differ in case only; the long s and the Kelvin sign fold as well. -/
def foldCase (c : Char) : Char :=
  if c = Char.ofNat 0x17F then 's' else if c = Char.ofNat 0x212A then 'k' else c.toLower

def sameKey (key name : String) : Bool := key.toList.map foldCase = name.toList.map foldCase

/-- The values given for a field, in their order. -/
def field (j : Json) (name : String) : List Json :=
  match j with
  | object members => (members.filter fun m => sameKey m.1 name).map Prod.snd
  | _ => []

/-- Only an object or `null` decodes into a struct. -/
def isStruct : Json → Bool
  | null => true
  | object _ => true
  | _ => false

def readString (j : Json) (name : String) : Option String :=
  (j.field name).foldlM (fun old v => match v with
    | null => some old
    | string s => some s
    | _ => none) ""

def readBool (j : Json) (name : String) : Option Bool :=
  (j.field name).foldlM (fun old v => match v with
    | null => some old
    | bool b => some b
    | _ => none) false

/-- An integer type with the values from `lo` below `hi`. -/
def readInt (lo hi : Int) (j : Json) (name : String) : Option Int :=
  (j.field name).foldlM (fun old v => match v with
    | null => some old
    | number (some n) => if lo ≤ n ∧ n < hi then some n else none
    | _ => none) 0

abbrev readInt64 : Json → String → Option Int := readInt (-2 ^ 63) (2 ^ 63)
abbrev readInt32 : Json → String → Option Int := readInt (-2 ^ 31) (2 ^ 31)
abbrev readUint64 : Json → String → Option Int := readInt 0 (2 ^ 64)

/-- A `json.RawMessage` keeps whatever value is there. -/
def readRaw (j : Json) (name : String) : Option Json := (j.field name).getLast?

end Json
end GenChat.Library
