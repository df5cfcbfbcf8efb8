import GenChat.Library.PercentEncoding
import GenChat.Library.UriText
import Mathlib.Data.List.DropRight
import Mathlib.Data.List.TakeWhile

/-!
# The query of a URL in a browser

What `new URL(text).searchParams` makes of the text behind the question mark: the URL parser drops
white space and the fragment and escapes what may not stand in a query; the parser of forms splits
the pairs, takes a plus for a space and decodes the escapes that it finds. A query whose keys and
values went through `encodeURIComponent` is read back.
-/
namespace GenChat.Library.SearchParams
open PercentEncoding BrowserText

/-- The characters that the parser of URLs escapes in a query. -/
def escapedInQuery (c : Char) : Bool :=
  c.toNat ≤ 32 || 126 < c.toNat || c ∈ ['"', '#', '<', '>', '\'']

def queryChar (c : Char) : List UInt8 :=
  if escapedInQuery c then (String.utf8EncodeChar c).flatMap PercentEncoding.percent
  else String.utf8EncodeChar c

/-- The query of a URL that goes on with this text after its question mark. -/
def query (text : List Char) : List UInt8 :=
  (((text.rdropWhile (·.toNat ≤ 32)).filter (· ∉ ['\t', '\n', '\r'])).takeWhile (· ≠ '#')).flatMap
    queryChar

/-- A percent sign without two digits stands for itself. -/
def percentDecode : List UInt8 → List UInt8
  | [] => []
  | [b] => [b]
  | [b, h] => [b, h]
  | b :: h :: l :: rest =>
    if b = percentSign then
      match PercentEncoding.hexPair h l with
      | some byte => byte :: percentDecode rest
      | none => b :: percentDecode (h :: l :: rest)
    else b :: percentDecode (h :: l :: rest)

def plusToSpace (bytes : List UInt8) : List UInt8 := bytes.map fun b => if b = 43 then 32 else b

/-- UTF-8 without a look at the byte order mark. -/
def utf8Text (bytes : List UInt8) : String :=
  match String.fromUTF8? ⟨bytes.toArray⟩ with
  | some text => text
  | none => String.ofList (Json.decodeUtf8 bytes)

def component (bytes : List UInt8) : String := utf8Text (percentDecode (plusToSpace bytes))

/-- The pairs of a form; empty pieces are skipped. -/
def params (query : List UInt8) : List (String × String) :=
  ((query.splitOn ampersand).filter (· ≠ [])).map fun piece =>
    (component (cut piece).1, component (cut piece).2)

/-- `searchParams.get` -/
def get (params : List (String × String)) (name : String) : Option String :=
  (params.find? (·.1 = name)).map (·.2)

/-! ## Components -/

/-- The bytes that neither `encodeURIComponent` nor the parser of URLs escapes. -/
def keptByte (b : UInt8) : Bool :=
  b < 128 && UriText.unreserved (Char.ofNat b.toNat) && b ≠ 39

theorem percentDecode_cons_of_ne {b : UInt8} (h : b ≠ percentSign) (rest : List UInt8) :
    percentDecode (b :: rest) = b :: percentDecode rest := by
  match rest with
  | [] => rfl
  | [_] => rfl
  | _ :: _ :: _ => rw [percentDecode, if_neg h]

theorem percentDecode_percent (b : UInt8) (rest : List UInt8) :
    percentDecode (PercentEncoding.percent b ++ rest) = b :: percentDecode rest := by
  simp only [PercentEncoding.percent, List.cons_append, List.nil_append, percentDecode, if_true,
    hexPair_upperHex]

theorem percentDecode_encode {kept : UInt8 → Bool} (escaped : kept percentSign = false)
    (text : List UInt8) : percentDecode (encode kept text) = text := by
  induction text with
  | nil => rfl
  | cons b text ih =>
    rw [encode_cons]
    by_cases keep : kept b = true
    · have ne : b ≠ percentSign := by
        rintro rfl
        rw [escaped] at keep
        cases keep
      rw [if_pos keep, List.singleton_append, percentDecode_cons_of_ne ne, ih]
    · rw [if_neg keep, percentDecode_percent, ih]

theorem component_encode (text : String) :
    component (encode keptByte (textEncode text)) = text := by
  have noPlus : plusToSpace (encode keptByte (textEncode text)) =
      encode keptByte (textEncode text) := by
    refine (List.map_congr_left fun b mem => ?_).trans (List.map_id _)
    refine if_neg fun plus => ?_
    subst plus
    exact not_mem_encode (by decide) (by decide) _ mem
  rw [component, noPlus, percentDecode_encode (by decide), utf8Text, fromUTF8?_textEncode]

/-! ## `encodeURIComponent` -/

/-- The characters that the parser of URLs passes on to the query. -/
def inQuery (c : Char) : Bool := 32 < c.toNat && c.toNat < 127 && c ≠ '#'

theorem upperDigit_inQuery {n : Nat} (h : n < 16) :
    queryChar (UriText.upperDigit n) = [upperHex n] ∧
      inQuery (UriText.upperDigit n) = true := by
  have all : ∀ n : Fin 16, queryChar (UriText.upperDigit n.val) = [upperHex n.val] ∧
      inQuery (UriText.upperDigit n.val) = true := by decide
  exact all ⟨n, h⟩

/-- A character that `encodeURIComponent` leaves alone is one byte, and the parser of URLs escapes
it only if it is an apostrophe. -/
theorem unreserved_inQuery {c : Char} (h : UriText.unreserved c = true) :
    queryChar c = encode keptByte (String.utf8EncodeChar c) ∧ inQuery c = true := by
  have ascii := (UriText.unreserved_ascii h).1
  have all : ∀ n : Fin 128, UriText.unreserved (Char.ofNat n.val) = true →
      queryChar (Char.ofNat n.val) = encode keptByte (String.utf8EncodeChar (Char.ofNat n.val)) ∧
        inQuery (Char.ofNat n.val) = true := by
    decide
  have one := all ⟨c.toNat, ascii⟩
  simp only [Char.ofNat_toNat] at one
  exact one h

theorem queryChar_percentSign : queryChar '%' = [percentSign] := rfl

theorem flatMap_queryChar_percent (b : UInt8) :
    (UriText.percent b.toNat).flatMap queryChar = PercentEncoding.percent b := by
  have bound := b.toNat_lt
  simp only [UriText.percent, List.flatMap_cons, List.flatMap_nil, queryChar_percentSign,
    (upperDigit_inQuery (show b.toNat / 16 < 16 by omega)).1,
    (upperDigit_inQuery (show b.toNat % 16 < 16 by omega)).1]
  rfl

/-- The other characters are escaped byte by byte. -/
theorem keptByte_of_not_unreserved {c : Char} (h : ¬ UriText.unreserved c = true) :
    ∀ b ∈ String.utf8EncodeChar c, ¬ keptByte b = true := by
  intro b mem kept
  simp only [keptByte, Bool.and_eq_true, decide_eq_true_eq] at kept
  by_cases ascii : c.toNat < 128
  · rw [UriText.utf8EncodeChar_ascii ascii, List.mem_singleton] at mem
    have byte : b.toNat = c.toNat := by
      rw [mem, UInt8.toNat_ofNat', Nat.mod_eq_of_lt (by omega)]
    rw [byte, Char.ofNat_toNat] at kept
    exact h kept.1.2
  · obtain ⟨first, rest, bytes, -, high⟩ := UriText.octetCount_utf8EncodeChar c
    have more : rest ≠ [] := by
      rintro rfl
      have size : c.utf8Size = 1 := by rw [← String.length_utf8EncodeChar, bytes]; rfl
      have small : c.val.toNat ≤ 127 := Char.utf8Size_eq_one_iff.mp size
      exact ascii (Nat.lt_succ_of_le small)
    have large := high more b (bytes ▸ mem)
    have small : b.toNat < 128 := kept.1.1
    omega

theorem flatMap_queryChar_encodeUriChar (c : Char) :
    (UriText.encodeUriChar c).flatMap queryChar = encode keptByte (String.utf8EncodeChar c) := by
  by_cases plain : UriText.unreserved c = true
  · rw [UriText.encodeUriChar, if_pos plain, List.flatMap_singleton, (unreserved_inQuery plain).1]
  · rw [UriText.encodeUriChar, if_neg plain, List.flatMap_assoc]
    refine List.flatMap_congr fun b mem => ?_
    rw [flatMap_queryChar_percent, if_neg (keptByte_of_not_unreserved plain b mem)]

theorem flatMap_queryChar_encodeURIComponent (text : String) :
    (UriText.encodeURIComponent text).toList.flatMap queryChar =
      encode keptByte (textEncode text) := by
  rw [UriText.encodeURIComponent, String.toList_ofList]
  conv_rhs => rw [← String.ofList_toList (s := text)]
  induction text.toList with
  | nil => rfl
  | cons c cs ih =>
    rw [List.flatMap_cons, List.flatMap_append, flatMap_queryChar_encodeUriChar, ih,
      textEncode_ofList_cons, encode_append]

theorem inQuery_encodeURIComponent (text : String) :
    ∀ c ∈ (UriText.encodeURIComponent text).toList, inQuery c = true := by
  intro c mem
  rw [UriText.encodeURIComponent, String.toList_ofList] at mem
  obtain ⟨d, -, mem⟩ := List.mem_flatMap.mp mem
  unfold UriText.encodeUriChar at mem
  split at mem
  · rename_i plain
    rw [← List.mem_singleton.mp mem] at plain
    exact (unreserved_inQuery plain).2
  · obtain ⟨b, -, mem⟩ := List.mem_flatMap.mp mem
    have bound := b.toNat_lt
    simp only [UriText.percent, List.mem_cons, List.not_mem_nil, or_false] at mem
    rcases mem with rfl | rfl | rfl
    · decide
    · exact (upperDigit_inQuery (by omega)).2
    · exact (upperDigit_inQuery (by omega)).2

/-- Such a text is not cut. -/
theorem query_of_inQuery {text : List Char} (h : ∀ c ∈ text, inQuery c = true) :
    query text = text.flatMap queryChar := by
  have facts (c : Char) (mem : c ∈ text) : 32 < c.toNat ∧ c ≠ '#' := by
    have char := h c mem
    simp only [inQuery, Bool.and_eq_true, decide_eq_true_eq] at char
    exact ⟨char.1.1, char.2⟩
  have ended : text.rdropWhile (·.toNat ≤ 32) = text := by
    refine List.rdropWhile_eq_self_iff.mpr fun some space => ?_
    have last := (facts _ (List.getLast_mem some)).1
    have small := of_decide_eq_true space
    omega
  have kept : text.filter (· ∉ ['\t', '\n', '\r']) = text := by
    refine List.filter_eq_self.mpr fun c mem => decide_eq_true fun control => ?_
    have large := (facts c mem).1
    simp only [List.mem_cons, List.not_mem_nil, or_false] at control
    rcases control with rfl | rfl | rfl <;> exact absurd large (by decide)
  have whole : text.takeWhile (· ≠ '#') = text :=
    List.takeWhile_eq_self_iff.mpr fun c mem => decide_eq_true (facts c mem).2
  rw [query, ended, kept, whole]

/-! ## Queries of components -/

theorem flatMap_intercalate {α β : Type} (f : α → List β) (sep : α) (list : List (List α)) :
    ([sep].intercalate list).flatMap f = (f sep).intercalate (list.map (·.flatMap f)) := by
  induction list with
  | nil => rfl
  | cons piece list ih =>
    cases list with
    | nil => simp
    | cons next list =>
      rw [List.intercalate_cons_cons, List.flatMap_append, List.flatMap_append, ih]
      simp [List.intercalate_cons_cons]

/-- A query whose keys and values are encoded components. -/
def render (pairs : List (String × String)) : List Char :=
  ['&'].intercalate (pairs.map fun pair => (UriText.encodeURIComponent pair.1).toList ++
    '=' :: (UriText.encodeURIComponent pair.2).toList)

theorem query_render (pairs : List (String × String)) : query (render pairs) =
    join (pairs.map fun pair =>
      (encode keptByte (textEncode pair.1), encode keptByte (textEncode pair.2))) := by
  have clean : ∀ c ∈ render pairs, inQuery c = true := by
    intro c mem
    rcases mem_intercalate mem with rfl | ⟨piece, listed, inPiece⟩
    · decide
    · obtain ⟨pair, -, rfl⟩ := List.mem_map.mp listed
      rcases List.mem_append.mp inPiece with inKey | inValue
      · exact inQuery_encodeURIComponent _ c inKey
      · rcases List.mem_cons.mp inValue with rfl | inValue
        · decide
        · exact inQuery_encodeURIComponent _ c inValue
  have separators : queryChar '&' = [ampersand] ∧ queryChar '=' = [equalsSign] := ⟨rfl, rfl⟩
  rw [query_of_inQuery clean, render, flatMap_intercalate, separators.1, join, List.map_map,
    List.map_map]
  refine congrArg _ (List.map_congr_left fun pair _ => ?_)
  simp only [Function.comp_apply, List.flatMap_append, List.flatMap_cons, separators.2,
    flatMap_queryChar_encodeURIComponent, List.singleton_append]

/-- The keys and values are read back. -/
theorem params_render {pairs : List (String × String)} (some : pairs ≠ []) :
    params (query (render pairs)) = pairs := by
  have clean (c : UInt8) (notKept : keptByte c = false) (notEscape : escapeByte c = false)
      (text : String) : c ∉ encode keptByte (textEncode text) :=
    not_mem_encode notKept notEscape _
  rw [params, query_render, splitOn_join (by simpa using some)]
  · rw [List.map_map, List.filter_eq_self.mpr, List.map_map]
    · refine (List.map_congr_left fun pair _ => ?_).trans (List.map_id pairs)
      simp only [Function.comp_apply, cut_append (clean _ (by decide) (by decide) pair.1),
        component_encode, id]
    · intro piece mem
      obtain ⟨pair, -, rfl⟩ := List.mem_map.mp mem
      simp
  · intro pair mem
    obtain ⟨texts, -, rfl⟩ := List.mem_map.mp mem
    exact ⟨clean _ (by decide) (by decide) _, clean _ (by decide) (by decide) _⟩

end GenChat.Library.SearchParams
