import GenChat.Library.SearchParams
import Mathlib.Data.Multiset.ZeroCons

/-!
# The payload of a safety QR code

One device writes the sorted user ids and the digits of the safety number into a QR code, and the
other compares them with its own. `encodeURIComponent` and the parser of `URL` agree on every text,
so a code is accepted exactly for the same two users and the same digits.
-/
namespace GenChat.Client
open Library BrowserText UriText

/-- `[a, b].sort()` orders by code units. -/
def sortedIds (a b : String) : String × String := if utf16 b < utf16 a then (b, a) else (a, b)

/-- `replace(/\s+/g, '')` -/
def compact (safetyNumber : String) : String :=
  String.ofList (safetyNumber.toList.filter fun c => !isSpace c.toNat)

def generateQrPayload (userIdA userIdB safetyNumber : String) : String :=
  let sorted := sortedIds userIdA userIdB
  "genchat:safety?v=1&a=" ++ encodeURIComponent sorted.1 ++ "&b=" ++ encodeURIComponent sorted.2 ++
    "&num=" ++ compact safetyNumber

structure Verification where
  isValid : Bool
  error : Option String
  deriving DecidableEq, Repr

def qrScheme : String := "genchat:safety?"

/-- The parser of `URL` gets `http://safety/?` in place of the scheme, and never fails. -/
def parseAndVerifyQrPayload (payload currentUserId peerId expectedSafetyNumber : String) :
    Verification :=
  if qrScheme.toList.isPrefixOf payload.toList then
    let params :=
      SearchParams.params (SearchParams.query (payload.toList.drop qrScheme.toList.length))
    let sortedExpected := sortedIds currentUserId peerId
    if SearchParams.get params "a" ≠ some sortedExpected.1 ∨
        SearchParams.get params "b" ≠ some sortedExpected.2 then
      ⟨false, some "QR code belongs to a different contact or conversation"⟩
    else if SearchParams.get params "num" ≠ some (compact expectedSafetyNumber) then
      ⟨false, some "Safety Number mismatch! Encryption keys do not match"⟩
    else ⟨true, none⟩
  else ⟨false, some "Not a valid GenChat Safety QR code"⟩

/-! ## The ids -/

theorem sortedIds_comm (a b : String) : sortedIds a b = sortedIds b a := by
  unfold sortedIds
  rcases lt_trichotomy (utf16 a) (utf16 b) with less | same | more
  · rw [if_neg less.asymm, if_pos less]
  · rw [utf16_inj.mp same]
  · rw [if_pos more, if_neg more.asymm]

theorem sortedIds_cases (a b : String) : sortedIds a b = (a, b) ∨ sortedIds a b = (b, a) := by
  unfold sortedIds
  split
  · exact .inr rfl
  · exact .inl rfl

theorem pair_sortedIds (a b : String) :
    ({(sortedIds a b).1, (sortedIds a b).2} : Multiset String) = {a, b} := by
  rcases sortedIds_cases a b with same | swapped
  · rw [same]
  · rw [swapped]
    exact Multiset.pair_comm b a

/-- The sorted ids stand for the two ids in any order. -/
theorem sortedIds_eq_iff (a b c d : String) :
    sortedIds a b = sortedIds c d ↔ ({a, b} : Multiset String) = {c, d} := by
  constructor
  · intro same
    rw [← pair_sortedIds a b, same, pair_sortedIds]
  · intro same
    have mem : a ∈ ({c, d} : Multiset String) := same ▸ Multiset.mem_cons_self a {b}
    rcases Multiset.mem_cons.mp mem with rfl | isD
    · have rest := (Multiset.cons_inj_right a).mp same
      rw [Multiset.singleton_inj.mp rest]
    · obtain rfl := Multiset.mem_singleton.mp isD
      rw [Multiset.pair_comm c a] at same
      have rest := (Multiset.cons_inj_right a).mp same
      rw [Multiset.singleton_inj.mp rest, sortedIds_comm]

/-! ## The number -/

/-- Digits and spaces only. -/
def DigitsAndSpaces (safetyNumber : String) : Prop :=
  ∀ c ∈ safetyNumber.toList, c.isDigit = true ∨ c = ' '

instance (safetyNumber : String) : Decidable (DigitsAndSpaces safetyNumber) :=
  List.decidableBAll _ _

def digits (safetyNumber : String) : List Char := safetyNumber.toList.filter Char.isDigit

theorem digit_plain {c : Char} (h : c.isDigit = true) :
    isSpace c.toNat = false ∧ unreserved c = true := by
  have ascii : c.toNat < 128 := by
    simp only [Char.isDigit, Bool.and_eq_true, decide_eq_true_eq] at h
    have high : c.toNat ≤ 57 := h.2
    omega
  have all : ∀ n : Fin 128, (Char.ofNat n.val).isDigit = true →
      isSpace (Char.ofNat n.val).toNat = false ∧ unreserved (Char.ofNat n.val) = true := by
    decide
  have one := all ⟨c.toNat, ascii⟩
  simp only [Char.ofNat_toNat] at one
  exact one h

theorem toList_compact {number : String} (h : DigitsAndSpaces number) :
    (compact number).toList = digits number := by
  rw [compact, String.toList_ofList, digits]
  refine List.filter_congr fun c mem => ?_
  rcases h c mem with digit | rfl
  · rw [(digit_plain digit).1, digit]
    rfl
  · decide

theorem compact_eq_iff {n m : String} (hn : DigitsAndSpaces n) (hm : DigitsAndSpaces m) :
    compact n = compact m ↔ digits n = digits m := by
  rw [← toList_compact hn, ← toList_compact hm, String.toList_inj]

theorem encodeURIComponent_compact {number : String} (h : DigitsAndSpaces number) :
    encodeURIComponent (compact number) = compact number := by
  rw [encodeURIComponent, toList_compact h]
  have plain : (digits number).flatMap encodeUriChar = digits number := by
    refine (List.flatMap_congr fun c mem => ?_).trans (List.flatMap_singleton' _)
    exact if_pos (digit_plain (List.mem_filter.mp mem).2).2
  rw [plain, ← toList_compact h, String.ofList_toList]

/-! ## The code -/

/-- What the query of a code says. -/
def qrPairs (userIdA userIdB safetyNumber : String) : List (String × String) :=
  [("v", "1"), ("a", (sortedIds userIdA userIdB).1), ("b", (sortedIds userIdA userIdB).2),
    ("num", compact safetyNumber)]

theorem toList_generateQrPayload {number : String} (h : DigitsAndSpaces number) (a b : String) :
    (generateQrPayload a b number).toList =
      qrScheme.toList ++ SearchParams.render (qrPairs a b number) := by
  obtain ⟨v, one, nameA, nameB, num⟩ : encodeURIComponent "v" = "v" ∧
      encodeURIComponent "1" = "1" ∧ encodeURIComponent "a" = "a" ∧
      encodeURIComponent "b" = "b" ∧ encodeURIComponent "num" = "num" := by decide
  have number := encodeURIComponent_compact h
  unfold generateQrPayload qrPairs
  generalize compact _ = text at number ⊢
  simp only [SearchParams.render, List.map_cons, List.map_nil, v, one, nameA, nameB, num]
  rw [number]
  simp [qrScheme, List.intercalate_cons_cons]

theorem qr_valid_iff {n m : String} (hn : DigitsAndSpaces n) (hm : DigitsAndSpaces m)
    (a b c d : String) :
    (parseAndVerifyQrPayload (generateQrPayload a b n) c d m).isValid = true ↔
      ({a, b} : Multiset String) = {c, d} ∧ digits n = digits m := by
  have pre : qrScheme.toList.isPrefixOf (generateQrPayload a b n).toList = true := by
    rw [toList_generateQrPayload hn, List.isPrefixOf_iff_prefix]
    exact List.prefix_append _ _
  have rest : (generateQrPayload a b n).toList.drop qrScheme.toList.length =
      SearchParams.render (qrPairs a b n) := by
    rw [toList_generateQrPayload hn, List.drop_left]
  have read : SearchParams.params (SearchParams.query (SearchParams.render (qrPairs a b n))) =
      qrPairs a b n := SearchParams.params_render (List.cons_ne_nil _ _)
  have fields : SearchParams.get (qrPairs a b n) "a" = some (sortedIds a b).1 ∧
      SearchParams.get (qrPairs a b n) "b" = some (sortedIds a b).2 ∧
      SearchParams.get (qrPairs a b n) "num" = some (compact n) := by
    simp [SearchParams.get, qrPairs]
  rw [← sortedIds_eq_iff, ← compact_eq_iff hn hm, parseAndVerifyQrPayload, if_pos pre]
  simp only [rest, read, fields, ne_eq, Option.some.injEq]
  by_cases ids : sortedIds a b = sortedIds c d
  · by_cases number : compact n = compact m
    · simp [ids, number]
    · simp [ids, number]
  · have differ : ¬ (sortedIds a b).1 = (sortedIds c d).1 ∨
        ¬ (sortedIds a b).2 = (sortedIds c d).2 := by
      by_contra same
      rw [not_or, not_not, not_not] at same
      exact ids (Prod.ext same.1 same.2)
    simp [ids, differ]

/-- Users whose ids are full of reserved characters. -/
theorem qr_valid_sample :
    (parseAndVerifyQrPayload (generateQrPayload "a&b=c" "d#%+'" "12345 67890") "d#%+'" "a&b=c"
      "1234567890").isValid = true ↔
      ({"a&b=c", "d#%+'"} : Multiset String) = {"d#%+'", "a&b=c"} ∧
        digits "12345 67890" = digits "1234567890" :=
  qr_valid_iff (by decide) (by decide) _ _ _ _

end GenChat.Client
