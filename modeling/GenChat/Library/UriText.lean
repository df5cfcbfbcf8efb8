import GenChat.Library.Base64
import GenChat.Library.BrowserText

/-!
# Texts by way of binary strings

The string functions of a browser that scripts use to take a text through base64: `btoa` and `atob`
on strings whose code units are bytes, and the percent-encodings of `escape`, `unescape`,
`encodeURIComponent` and `decodeURIComponent`. A string of code units that need not be well formed
is a list of these; a function that may throw returns an option.
-/
namespace GenChat.Library.UriText
open BrowserText

/-! ## Percent-encodings -/

def upperDigit (n : Nat) : Char := if n < 10 then Char.ofNat (n + 48) else Char.ofNat (n + 55)

/-- `%XX` -/
def percent (n : Nat) : List Char := ['%', upperDigit (n / 16), upperDigit (n % 16)]

def hexPair (h l : Char) : Option Nat :=
  (Json.hexDigit h).bind fun x => (Json.hexDigit l).map fun y => x * 16 + y

def alphanumeric (c : Char) : Bool :=
  ('A' ≤ c && c ≤ 'Z') || ('a' ≤ c && c ≤ 'z') || ('0' ≤ c && c ≤ '9')

def escapeUnit (u : Nat) : List Char :=
  if alphanumeric (Char.ofNat u) || Char.ofNat u ∈ ['@', '*', '_', '+', '-', '.', '/'] then
    [Char.ofNat u]
  else if u < 256 then percent u
  else ['%', 'u', upperDigit (u / 4096), upperDigit (u / 256 % 16), upperDigit (u / 16 % 16),
    upperDigit (u % 16)]

def escape (text : String) : String := String.ofList ((utf16 text).flatMap escapeUnit)

def unescapeUnits : Nat → List Char → List Nat
  | 0, _ => []
  | _ + 1, [] => []
  | fuel + 1, c :: cs =>
    if c = '%' then
      match cs with
      | 'u' :: x :: y :: z :: w :: rest =>
        match Json.hex4 x y z w with
        | some n => n :: unescapeUnits fuel rest
        | none => 37 :: unescapeUnits fuel cs
      | h :: l :: rest =>
        match hexPair h l with
        | some n => n :: unescapeUnits fuel rest
        | none => 37 :: unescapeUnits fuel cs
      | _ => 37 :: unescapeUnits fuel cs
    else utf16Char c ++ unescapeUnits fuel cs

def unescape (text : String) : List Nat := unescapeUnits text.toList.length text.toList

/-- The characters that `encodeURIComponent` leaves alone. -/
def unreserved (c : Char) : Bool :=
  alphanumeric c || c ∈ ['-', '_', '.', '!', '~', '*', '\'', '(', ')']

def encodeUriChar (c : Char) : List Char :=
  if unreserved c then [c] else (String.utf8EncodeChar c).flatMap fun b => percent b.toNat

def encodeURIComponent (text : String) : String :=
  String.ofList (text.toList.flatMap encodeUriChar)

/-- A `%XX` at the front. -/
def octet : List Char → Option (UInt8 × List Char)
  | '%' :: h :: l :: rest => (hexPair h l).map fun n => (UInt8.ofNat n, rest)
  | _ => none

def octets : Nat → List Char → Option (List UInt8 × List Char)
  | 0, cs => some ([], cs)
  | n + 1, cs => (octet cs).bind fun b => (octets n b.2).map fun bs => (b.1 :: bs.1, bs.2)

/-- How many octets a character takes that begins with this one. -/
def octetCount (b : UInt8) : Option Nat :=
  if b < 0x80 then some 1
  else if b < 0xC0 then none
  else if b < 0xE0 then some 2
  else if b < 0xF0 then some 3
  else if b < 0xF8 then some 4
  else none

def decodeUriChars : Nat → List Char → Option (List Char)
  | _, [] => some []
  | 0, _ :: _ => none
  | fuel + 1, c :: cs =>
    if c = '%' then
      (octet (c :: cs)).bind fun first => (octetCount first.1).bind fun n =>
        (octets n (c :: cs)).bind fun read =>
          (String.fromUTF8? ⟨read.1.toArray⟩).bind fun char =>
            (decodeUriChars fuel read.2).map fun later => char.toList ++ later
    else (decodeUriChars fuel cs).map fun later => c :: later

def decodeURIComponent (text : String) : Option String :=
  (decodeUriChars text.toList.length text.toList).map String.ofList

/-! ## Base64 of binary strings -/

/-- The string whose code units are the bytes. -/
def binaryString (bytes : List UInt8) : String :=
  String.ofList (bytes.map fun b => Char.ofNat b.toNat)

/-- Fails on a code unit that is not a byte. -/
def btoa (units : List Nat) : Option String :=
  if ∀ u ∈ units, u < 256 then some (Base64.encodeToString (units.map UInt8.ofNat)) else none

/-- Without one or two `=` at the end. -/
def unpad : List Char → List Char
  | [] => []
  | c :: cs => if c = '=' ∧ (cs = [] ∨ cs = ['=']) then [] else c :: unpad cs

/-- Groups of four; of the last one two or three may be there, with their loose bits dropped. -/
def atobChars : List Char → Option (List UInt8)
  | [] => some []
  | [_] => none
  | [a, b] =>
    (Base64.sextet a).bind fun x => (Base64.sextet b).map fun y => [UInt8.ofNat (x * 4 + y / 16)]
  | [a, b, c] =>
    (Base64.sextet a).bind fun x => (Base64.sextet b).bind fun y => (Base64.sextet c).map fun z =>
      [UInt8.ofNat (x * 4 + y / 16), UInt8.ofNat (y * 16 + z / 4)]
  | a :: b :: c :: d :: rest =>
    (Base64.sextet a).bind fun x => (Base64.sextet b).bind fun y => (Base64.sextet c).bind fun z =>
      (Base64.sextet d).bind fun u => (atobChars rest).map fun later =>
        UInt8.ofNat (x * 4 + y / 16) :: UInt8.ofNat (y * 16 + z / 4) ::
          UInt8.ofNat (z * 64 + u) :: later

def asciiSpace (c : Char) : Bool := c ∈ ['\t', '\n', Char.ofNat 12, '\r', ' ']

def atob (text : String) : Option String :=
  let cs := text.toList.filter fun c => !asciiSpace c
  (atobChars (if cs.length % 4 = 0 then unpad cs else cs)).map binaryString

/-! ## UTF-8 as a binary string -/

/-- The digits are read back, and none is a letter `u`. -/
theorem hexDigit_upperDigit {n : Nat} (h : n < 16) :
    Json.hexDigit (upperDigit n) = some n ∧ upperDigit n ≠ 'u' := by
  have all : ∀ n : Fin 16,
      Json.hexDigit (upperDigit n.val) = some n.val ∧ upperDigit n.val ≠ 'u' := by decide
  exact all ⟨n, h⟩

theorem hexPair_upperDigit {n : Nat} (h : n < 256) :
    hexPair (upperDigit (n / 16)) (upperDigit (n % 16)) = some n := by
  have high := hexDigit_upperDigit (show n / 16 < 16 by omega)
  have low := hexDigit_upperDigit (show n % 16 < 16 by omega)
  simp [hexPair, high.1, low.1, Nat.div_add_mod']

theorem unescapeUnits_percent (b : UInt8) (fuel : Nat) (rest : List Char) :
    unescapeUnits (fuel + 1) (percent b.toNat ++ rest) = b.toNat :: unescapeUnits fuel rest := by
  have bound := b.toNat_lt
  have high := (hexDigit_upperDigit (show b.toNat / 16 < 16 by omega)).2
  simp only [percent, List.cons_append, List.nil_append, unescapeUnits, if_true]
  split
  · rename_i same
    exact absurd (List.cons.inj same).1 high
  · rename_i same
    cases same
    rw [hexPair_upperDigit bound]
  · rename_i other
    exact absurd rfl (other _ _ _)

theorem unescapeUnits_percents (bytes : List UInt8) {fuel : Nat} (rest : List Char)
    (enough : bytes.length ≤ fuel) :
    unescapeUnits fuel (bytes.flatMap (fun b => percent b.toNat) ++ rest) =
      bytes.map UInt8.toNat ++ unescapeUnits (fuel - bytes.length) rest := by
  induction bytes generalizing fuel with
  | nil => rfl
  | cons b bytes ih =>
    rw [List.length_cons] at enough
    obtain ⟨fuel, rfl⟩ : ∃ n, fuel = n + 1 := ⟨fuel - 1, by omega⟩
    rw [List.flatMap_cons, List.append_assoc, unescapeUnits_percent, ih (by omega)]
    simp [Nat.add_sub_add_right]

theorem unescapeUnits_plain {c : Char} (h : c ≠ '%') (fuel : Nat) (cs : List Char) :
    unescapeUnits (fuel + 1) (c :: cs) = utf16Char c ++ unescapeUnits fuel cs := by
  rw [unescapeUnits.eq_def]
  exact if_neg h

theorem length_percents (bytes : List UInt8) :
    (bytes.flatMap fun b => percent b.toNat).length = 3 * bytes.length := by
  induction bytes with
  | nil => rfl
  | cons b bytes ih =>
    rw [List.flatMap_cons, List.length_append, ih, List.length_cons]
    exact (Nat.mul_succ ..).symm ▸ Nat.add_comm _ _

theorem toNat_of_alphanumeric {c : Char} (h : alphanumeric c = true) :
    48 ≤ c.toNat ∧ c.toNat < 123 := by
  simp only [alphanumeric, Bool.or_eq_true, Bool.and_eq_true, decide_eq_true_eq] at h
  have le (x y : Char) (h : x ≤ y) : x.toNat ≤ y.toNat := h
  rcases h with (⟨low, high⟩ | ⟨low, high⟩) | ⟨low, high⟩ <;>
    · have low := le _ _ low
      have high := le _ _ high
      simp only [Char.reduceToNat] at low high
      omega

/-- What is left alone is ASCII, and no percent sign. -/
theorem unreserved_ascii {c : Char} (h : unreserved c = true) : c.toNat < 128 ∧ c ≠ '%' := by
  simp only [unreserved, Bool.or_eq_true, decide_eq_true_eq] at h
  rcases h with h | h
  · have range := toNat_of_alphanumeric h
    exact ⟨by omega, by rintro rfl; exact absurd range.1 (by decide)⟩
  · have all : ['-', '_', '.', '!', '~', '*', '\'', '(', ')'].all
        fun c => c.toNat < 128 ∧ c ≠ '%' := by decide
    exact of_decide_eq_true (List.all_eq_true.mp all c h)

theorem utf8EncodeChar_ascii {c : Char} (h : c.toNat < 128) :
    String.utf8EncodeChar c = [UInt8.ofNat c.toNat] := by
  have small : c.val.toNat ≤ 127 := Nat.le_of_lt_succ h
  unfold String.utf8EncodeChar
  simp only [small, if_true]
  rfl

theorem unescapeUnits_encodeUriChars (cs : List Char) {fuel : Nat}
    (enough : (cs.flatMap encodeUriChar).length ≤ fuel) :
    unescapeUnits fuel (cs.flatMap encodeUriChar) =
      (textEncode (String.ofList cs)).map UInt8.toNat := by
  induction cs generalizing fuel with
  | nil => cases fuel <;> rfl
  | cons c cs ih =>
    rw [List.flatMap_cons, List.length_append] at enough
    rw [List.flatMap_cons, textEncode_ofList_cons, List.map_append]
    by_cases plain : unreserved c = true
    · obtain ⟨ascii, percent⟩ := unreserved_ascii plain
      rw [encodeUriChar, if_pos plain] at enough ⊢
      obtain ⟨fuel, rfl⟩ : ∃ n, fuel = n + 1 := ⟨fuel - 1, by simp at enough; omega⟩
      have unit : utf16Char c = [c.toNat] := if_pos (by omega)
      have byte : (UInt8.ofNat c.toNat).toNat = c.toNat := by
        rw [UInt8.toNat_ofNat', Nat.mod_eq_of_lt (by omega)]
      rw [List.length_singleton] at enough
      rw [List.singleton_append, unescapeUnits_plain percent, unit, utf8EncodeChar_ascii ascii,
        ih (by omega), List.map_singleton, byte]
    · rw [encodeUriChar, if_neg plain] at enough ⊢
      rw [length_percents] at enough
      rw [unescapeUnits_percents _ _ (by omega), ih (by omega)]

/-- The UTF-8 of a text, as a string of bytes. -/
theorem unescape_encodeURIComponent (text : String) :
    unescape (encodeURIComponent text) = (textEncode text).map UInt8.toNat := by
  rw [unescape, encodeURIComponent, String.toList_ofList,
    unescapeUnits_encodeUriChars _ le_rfl, String.ofList_toList]

theorem btoa_bytes (bytes : List UInt8) :
    btoa (bytes.map UInt8.toNat) = some (Base64.encodeToString bytes) := by
  have small : ∀ u ∈ bytes.map UInt8.toNat, u < 256 := by
    intro u hu
    obtain ⟨b, -, rfl⟩ := List.mem_map.mp hu
    exact b.toNat_lt
  have back : (bytes.map UInt8.toNat).map UInt8.ofNat = bytes := by
    rw [List.map_map]
    exact (List.map_congr_left fun b _ => UInt8.ofNat_toNat).trans (List.map_id _)
  rw [btoa, if_pos small, back]

/-! ## And back -/

theorem toNat_ofNat_byte (b : UInt8) : (Char.ofNat b.toNat).toNat = b.toNat := by
  have bound := b.toNat_lt
  have valid : b.toNat.isValidChar := .inl (by omega)
  rw [Char.ofNat, dif_pos valid]
  rfl

theorem utf16_binaryString (bytes : List UInt8) :
    utf16 (binaryString bytes) = bytes.map UInt8.toNat := by
  have unit (b : UInt8) : utf16Char (Char.ofNat b.toNat) = [b.toNat] := by
    have bound := b.toNat_lt
    rw [utf16Char, toNat_ofNat_byte, if_pos (by omega)]
  rw [utf16, binaryString, String.toList_ofList]
  induction bytes with
  | nil => rfl
  | cons b bytes ih => rw [List.map_cons, List.flatMap_cons, unit, ih]; rfl

/-- A byte stands for itself if it is a plain ASCII character, and otherwise as `%XX`. -/
theorem escapeUnit_cases (b : UInt8) :
    (escapeUnit b.toNat = [Char.ofNat b.toNat] ∧ b.toNat < 128 ∧ Char.ofNat b.toNat ≠ '%') ∨
      escapeUnit b.toNat = percent b.toNat := by
  unfold escapeUnit
  split
  · rename_i plain
    refine .inl ⟨rfl, ?_⟩
    rw [← toNat_ofNat_byte b]
    simp only [Bool.or_eq_true, decide_eq_true_eq] at plain
    rcases plain with plain | plain
    · have range := toNat_of_alphanumeric plain
      refine ⟨by omega, fun same => ?_⟩
      rw [Char.ofNat_toNat] at same
      rw [same] at range
      exact absurd range.1 (by decide)
    · have all : ['@', '*', '_', '+', '-', '.', '/'].all fun c => c.toNat < 128 ∧ c ≠ '%' := by
        decide
      rw [Char.ofNat_toNat]
      exact of_decide_eq_true (List.all_eq_true.mp all _ plain)
  · exact .inr (if_pos b.toNat_lt)

theorem octet_percent (b : UInt8) (rest : List Char) :
    octet (percent b.toNat ++ rest) = some (b, rest) := by
  simp [percent, octet, hexPair_upperDigit b.toNat_lt]

theorem octets_percents (bytes : List UInt8) (rest : List Char) :
    octets bytes.length (bytes.flatMap (fun b => percent b.toNat) ++ rest) =
      some (bytes, rest) := by
  induction bytes with
  | nil => rfl
  | cons b bytes ih =>
    rw [List.length_cons, octets, List.flatMap_cons, List.append_assoc, octet_percent,
      Option.bind_some, ih]
    rfl

theorem octetCount_ofNat {n : Nat} (h : n < 256) : octetCount (UInt8.ofNat n) =
    if n < 128 then some 1
    else if n < 192 then none
    else if n < 224 then some 2
    else if n < 240 then some 3
    else if n < 248 then some 4
    else none := by
  have byte : (UInt8.ofNat n).toNat = n := by rw [UInt8.toNat_ofNat', Nat.mod_eq_of_lt h]
  simp only [octetCount, UInt8.lt_iff_toNat_lt, byte]
  rfl

/-- The first byte of a character tells how many follow, and if any do, none of them is ASCII. -/
theorem octetCount_utf8EncodeChar (c : Char) : ∃ b bs, String.utf8EncodeChar c = b :: bs ∧
    octetCount b = some (bs.length + 1) ∧ (bs ≠ [] → ∀ x ∈ b :: bs, 128 ≤ x.toNat) := by
  have bound : c.val.toNat < 0x110000 := by
    have valid : c.val.toNat < 0xD800 ∨ 0xDFFF < c.val.toNat ∧ c.val.toNat < 0x110000 := c.valid
    omega
  unfold String.utf8EncodeChar
  dsimp only
  split_ifs with one two three
  · refine ⟨_, _, rfl, ?_, fun more => absurd rfl more⟩
    rw [octetCount_ofNat (by omega), if_pos (by omega)]
    rfl
  all_goals
    refine ⟨_, _, rfl, ?_, fun _ x hx => ?_⟩
    · rw [octetCount_ofNat (by omega)]
      split_ifs <;> first | rfl | omega
    · simp only [List.mem_cons, List.not_mem_nil, or_false] at hx
      rcases hx with rfl | rfl | rfl | rfl <;> (rw [UInt8.toNat_ofNat']; omega)

theorem fromUTF8?_char (c : Char) :
    String.fromUTF8? ⟨(String.utf8EncodeChar c).toArray⟩ = some (String.ofList [c]) := by
  have bytes : textEncode (String.ofList [c]) = String.utf8EncodeChar c := by
    rw [textEncode_ofList_cons]
    exact List.append_nil _
  rw [← bytes, fromUTF8?_textEncode]

theorem decodeUriChars_percents (c : Char) (fuel : Nat) (rest : List Char) :
    decodeUriChars (fuel + 1) ((String.utf8EncodeChar c).flatMap (fun b => percent b.toNat) ++
      rest) = (decodeUriChars fuel rest).map fun later => c :: later := by
  obtain ⟨b, bs, bytes, count, -⟩ := octetCount_utf8EncodeChar c
  have first := octet_percent b (bs.flatMap (fun b => percent b.toNat) ++ rest)
  have read := octets_percents (b :: bs) rest
  have char := fromUTF8?_char c
  rw [bytes] at char ⊢
  rw [List.flatMap_cons, List.append_assoc] at read ⊢
  rw [percent, List.cons_append] at first read ⊢
  rw [decodeUriChars.eq_def]
  simp only [if_true]
  rw [first, Option.bind_some, count, Option.bind_some]
  rw [List.length_cons] at read
  rw [read, Option.bind_some]
  simp only [char, Option.bind_some, String.toList_ofList, List.singleton_append]

theorem decodeUriChars_char (c : Char) (fuel : Nat) (rest : List Char) :
    decodeUriChars (fuel + 1) ((String.utf8EncodeChar c).flatMap (fun b => escapeUnit b.toNat) ++
      rest) = (decodeUriChars fuel rest).map fun later => c :: later := by
  obtain ⟨b, bs, bytes, -, high⟩ := octetCount_utf8EncodeChar c
  have escaped (h : ∀ x ∈ String.utf8EncodeChar c, escapeUnit x.toNat = percent x.toNat) :
      (String.utf8EncodeChar c).flatMap (fun b => escapeUnit b.toNat) =
        (String.utf8EncodeChar c).flatMap fun b => percent b.toNat :=
    List.flatMap_congr h
  by_cases more : bs = []
  · subst more
    rcases escapeUnit_cases b with ⟨plain, ascii, percent⟩ | escape
    · -- An ASCII character that is left as it is.
      have same : Char.ofNat b.toNat = c := by
        have read := fromUTF8?_char c
        have other := fromUTF8?_char (Char.ofNat b.toNat)
        rw [utf8EncodeChar_ascii (by rwa [toNat_ofNat_byte]), toNat_ofNat_byte,
          UInt8.ofNat_toNat, ← bytes, read] at other
        simpa using (Option.some.inj other).symm
      rw [bytes, List.flatMap_singleton, plain, same, List.singleton_append,
        decodeUriChars.eq_def]
      exact if_neg (same ▸ percent)
    · rw [escaped (by rw [bytes]; exact List.forall_mem_singleton.mpr escape),
        decodeUriChars_percents]
  · refine (escaped fun x hx => ?_) ▸ decodeUriChars_percents c fuel rest
    rw [bytes] at hx
    have large := high more x hx
    exact (escapeUnit_cases x).resolve_left fun plain => absurd plain.2.1 (by omega)

theorem decodeUriChars_escape (cs : List Char) {fuel : Nat} (enough : ((textEncode
    (String.ofList cs)).flatMap fun b => escapeUnit b.toNat).length ≤ fuel) :
    decodeUriChars fuel ((textEncode (String.ofList cs)).flatMap fun b => escapeUnit b.toNat) =
      some cs := by
  induction cs generalizing fuel with
  | nil => cases fuel <;> rfl
  | cons c cs ih =>
    obtain ⟨b, bs, bytes, -, -⟩ := octetCount_utf8EncodeChar c
    have unit : 0 < (escapeUnit b.toNat).length := by
      rcases escapeUnit_cases b with ⟨plain, -, -⟩ | escape
      · simp [plain]
      · simp [escape, percent]
    rw [textEncode_ofList_cons, List.flatMap_append, List.length_append, bytes,
      List.flatMap_cons, List.length_append] at enough
    obtain ⟨fuel, rfl⟩ : ∃ n, fuel = n + 1 := ⟨fuel - 1, by omega⟩
    rw [textEncode_ofList_cons, List.flatMap_append, decodeUriChars_char, ih (by omega)]
    rfl

/-- The UTF-8 of a text, taken for a string of bytes, is decoded to the text. -/
theorem decodeURIComponent_escape (text : String) :
    decodeURIComponent (escape (binaryString (textEncode text))) = some text := by
  rw [decodeURIComponent, escape, utf16_binaryString, String.toList_ofList, List.flatMap_map]
  have decoded := @decodeUriChars_escape text.toList _ le_rfl
  rw [String.ofList_toList] at decoded
  rw [decoded, Option.map_some, String.ofList_toList]

/-! ## What Go decodes -/

theorem unpad_cons {c : Char} (h : c ≠ '=') (cs : List Char) : unpad (c :: cs) = c :: unpad cs :=
  if_neg fun bad => h bad.1

theorem sextet_ne_pad {c : Char} {n : Nat} (h : Base64.sextet c = some n) : c ≠ '=' := by
  rintro rfl
  cases h

/-- What the decoder of Go reads to its end consists of whole groups of letters, with padding in
the last one at most. -/
theorem decodeChars_complete {cs : List Char} {bytes : List UInt8}
    (h : Base64.decodeChars cs = (bytes, true)) :
    cs.length % 4 = 0 ∧ (∀ c ∈ cs, asciiSpace c = false) ∧ atobChars (unpad cs) = some bytes := by
  have letter {c : Char} {n : Nat} (h : Base64.sextet c = some n) : asciiSpace c = false := by
    by_contra space
    have all : ['\t', '\n', Char.ofNat 12, '\r', ' '].all fun c => Base64.sextet c = none := by
      decide
    have none := of_decide_eq_true (List.all_eq_true.mp all c
      (of_decide_eq_true (Bool.eq_true_of_not_eq_false space)))
    rw [none] at h
    cases h
  have pad : asciiSpace '=' = false := by decide
  induction cs using Base64.decodeChars.induct generalizing bytes with
  | case1 =>
    cases h
    exact ⟨rfl, nofun, rfl⟩
  | case2 a b rest x y hb ha =>
    simp only [Base64.decodeChars, ha, hb, if_true, Prod.mk.injEq, List.isEmpty_iff] at h
    obtain ⟨rfl, rfl⟩ := h
    refine ⟨Nat.mod_self 4, ?_, ?_⟩
    · simp [letter ha, letter hb, pad]
    · rw [unpad_cons (sextet_ne_pad ha), unpad_cons (sextet_ne_pad hb), unpad,
        if_pos ⟨rfl, .inr rfl⟩]
      simp [atobChars, ha, hb]
  | case5 a b c rest x y hb ha notPad z hc =>
    simp only [Base64.decodeChars, ha, hb, hc, if_neg notPad, if_true, Prod.mk.injEq,
      List.isEmpty_iff] at h
    obtain ⟨rfl, rfl⟩ := h
    refine ⟨Nat.mod_self 4, ?_, ?_⟩
    · simp [letter ha, letter hb, letter hc, pad]
    · rw [unpad_cons (sextet_ne_pad ha), unpad_cons (sextet_ne_pad hb),
        unpad_cons (sextet_ne_pad hc), unpad, if_pos ⟨rfl, .inl rfl⟩]
      simp [atobChars, ha, hb, hc]
  | case7 a b c d rest x y hb ha notPad z hc notPad' u hd ih =>
    simp only [Base64.decodeChars, ha, hb, hc, hd, if_neg notPad, if_neg notPad',
      Prod.mk.injEq] at h
    obtain ⟨rfl, complete⟩ := h
    obtain ⟨length, spaces, decoded⟩ := ih (Prod.ext rfl complete)
    refine ⟨by simp only [List.length_cons]; omega, ?_, ?_⟩
    · simpa [letter ha, letter hb, letter hc, letter hd] using spaces
    · rw [unpad_cons (sextet_ne_pad ha), unpad_cons (sextet_ne_pad hb),
        unpad_cons (sextet_ne_pad hc), unpad_cons (sextet_ne_pad hd)]
      simp [atobChars, ha, hb, hc, hd, decoded]
  | case3 a b d rest x y hb ha notPad => simp [Base64.decodeChars, ha, hb, notPad] at h
  | case4 a b c d rest x y hb ha notPad hc => simp [Base64.decodeChars, ha, hb, hc, notPad] at h
  | case6 a b c d rest x y hb ha notPad z hc notPad' hd =>
    simp [Base64.decodeChars, ha, hb, hc, hd, notPad, notPad'] at h
  | case8 a b c d rest bad =>
    rw [Base64.decodeChars] at h
    split at h
    · exact absurd ‹_› fun hb => bad _ _ ‹_› hb
    · cases h
  | case9 cs short long =>
    rw [Base64.decodeChars.eq_3 _ short long] at h
    cases h

/-- What Go decodes without an error, `atob` decodes to the same bytes. -/
theorem atob_of_decodeString {text : String} {bytes : List UInt8}
    (h : Base64.decodeString text = (bytes, true)) : atob text = some (binaryString bytes) := by
  obtain ⟨groups, spaces, decoded⟩ := decodeChars_complete h
  have same : (text.toList.filter fun c => !asciiSpace c) =
      text.toList.filter fun c => c ≠ '\n' ∧ c ≠ '\r' := by
    refine List.filter_congr fun c hc => ?_
    by_cases lineBreak : c = '\n' ∨ c = '\r'
    · rcases lineBreak with rfl | rfl <;> rfl
    · have mem : c ∈ text.toList.filter fun c => c ≠ '\n' ∧ c ≠ '\r' :=
        List.mem_filter.mpr ⟨hc, by simpa [not_or] using lineBreak⟩
      simp [spaces c mem, not_or.mp lineBreak]
  unfold atob
  dsimp only
  rw [same, if_pos groups, decoded, Option.map_some]

end GenChat.Library.UriText
