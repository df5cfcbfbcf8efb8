import Mathlib.Tactic

/-!
# Percent-encoding of bytes

An encoder leaves some bytes as they are and writes the others as a percent sign and two digits.
Whatever it leaves alone, apart from the percent sign, the decoder gives the text back. The pairs of
a query are split at `&`, and each at its first `=`.
-/
namespace GenChat.Library.PercentEncoding

def upperHex (n : Nat) : UInt8 := UInt8.ofNat (if n < 10 then 48 + n else 55 + n)

/-- A digit of either case. -/
def hexValue (b : UInt8) : Option Nat :=
  if 48 ≤ b ∧ b ≤ 57 then some (b.toNat - 48)
  else if 65 ≤ b ∧ b ≤ 70 then some (b.toNat - 55)
  else if 97 ≤ b ∧ b ≤ 102 then some (b.toNat - 87)
  else none

def percentSign : UInt8 := 37

/-- `%XX` -/
def percent (b : UInt8) : List UInt8 :=
  [percentSign, upperHex (b.toNat / 16), upperHex (b.toNat % 16)]

def hexPair (h l : UInt8) : Option UInt8 :=
  (hexValue h).bind fun x => (hexValue l).map fun y => UInt8.ofNat (x * 16 + y)

def encode (kept : UInt8 → Bool) (text : List UInt8) : List UInt8 :=
  text.flatMap fun b => if kept b then [b] else percent b

/-- Fails on a percent sign without two digits. -/
def decode : List UInt8 → Option (List UInt8)
  | [] => some []
  | b :: rest =>
    if b = percentSign then
      match rest with
      | h :: l :: rest => (hexPair h l).bind fun byte => (decode rest).map (byte :: ·)
      | _ => none
    else (decode rest).map (b :: ·)

/-- The bytes that an escape is made of. -/
def escapeByte (b : UInt8) : Bool := b = percentSign || (48 ≤ b && b ≤ 57) || (65 ≤ b && b ≤ 70)

/-! ## Encoding -/

theorem hexValue_upperHex {n : Nat} (h : n < 16) :
    hexValue (upperHex n) = some n ∧ escapeByte (upperHex n) = true := by
  have all : ∀ n : Fin 16, hexValue (upperHex n.val) = some n.val ∧
      escapeByte (upperHex n.val) = true := by decide
  exact all ⟨n, h⟩

theorem hexPair_upperHex (b : UInt8) :
    hexPair (upperHex (b.toNat / 16)) (upperHex (b.toNat % 16)) = some b := by
  have bound := b.toNat_lt
  have high := hexValue_upperHex (show b.toNat / 16 < 16 by omega)
  have low := hexValue_upperHex (show b.toNat % 16 < 16 by omega)
  simp only [hexPair, high.1, low.1, Option.bind_some, Option.map_some, Nat.div_add_mod',
    UInt8.ofNat_toNat]

theorem escapeByte_of_mem_percent {b c : UInt8} (h : c ∈ percent b) : escapeByte c = true := by
  have bound := b.toNat_lt
  simp only [percent, List.mem_cons, List.not_mem_nil, or_false] at h
  rcases h with rfl | rfl | rfl
  · rfl
  · exact (hexValue_upperHex (show b.toNat / 16 < 16 by omega)).2
  · exact (hexValue_upperHex (show b.toNat % 16 < 16 by omega)).2

variable {kept : UInt8 → Bool}

@[simp] theorem encode_nil : encode kept [] = [] := rfl

theorem encode_cons (b : UInt8) (text : List UInt8) :
    encode kept (b :: text) = (if kept b then [b] else percent b) ++ encode kept text :=
  List.flatMap_cons

theorem encode_append (s t : List UInt8) :
    encode kept (s ++ t) = encode kept s ++ encode kept t := List.flatMap_append

/-- What is escaped does not occur in the encoded text, if no escape is made of it. -/
theorem not_mem_encode {c : UInt8} (notKept : kept c = false) (notEscape : escapeByte c = false)
    (text : List UInt8) : c ∉ encode kept text := by
  intro mem
  obtain ⟨b, -, mem⟩ := List.mem_flatMap.mp mem
  split at mem
  · rename_i keep
    rw [← List.mem_singleton.mp mem, notKept] at keep
    cases keep
  · rw [escapeByte_of_mem_percent mem] at notEscape
    cases notEscape

theorem decode_cons_of_ne {b : UInt8} (h : b ≠ percentSign) (rest : List UInt8) :
    decode (b :: rest) = (decode rest).map (b :: ·) := by
  rw [decode.eq_def]
  exact if_neg h

theorem decode_percent (b : UInt8) (rest : List UInt8) :
    decode (percent b ++ rest) = (decode rest).map (b :: ·) := by
  simp only [percent, List.cons_append, List.nil_append, decode, if_true, hexPair_upperHex,
    Option.bind_some]

theorem decode_encode (escaped : kept percentSign = false) (text : List UInt8) :
    decode (encode kept text) = some text := by
  induction text with
  | nil => rfl
  | cons b text ih =>
    rw [encode_cons]
    by_cases keep : kept b = true
    · have ne : b ≠ percentSign := by
        rintro rfl
        rw [escaped] at keep
        cases keep
      rw [if_pos keep, List.singleton_append, decode_cons_of_ne ne, ih]
      rfl
    · rw [if_neg keep, decode_percent, ih]
      rfl

theorem length_le_encode (kept : UInt8 → Bool) (text : List UInt8) :
    text.length ≤ (encode kept text).length := by
  induction text with
  | nil => exact le_rfl
  | cons b text ih =>
    rw [encode_cons, List.length_append, List.length_cons]
    split <;> simp [percent] <;> omega

theorem length_encode_iff (kept : UInt8 → Bool) (text : List UInt8) :
    (encode kept text).length = text.length ↔ ∀ b ∈ text, kept b = true := by
  induction text with
  | nil => simp
  | cons b text ih =>
    have le := length_le_encode kept text
    rw [encode_cons, List.length_append, List.length_cons, List.forall_mem_cons, ← ih]
    by_cases keep : kept b = true
    · simp only [keep, if_true, List.length_singleton, true_and]
      omega
    · simp only [keep, Bool.false_eq_true, if_false, false_and, iff_false]
      simp only [percent, List.length_cons, List.length_nil]
      omega

/-- Nothing is escaped. -/
theorem encode_eq_self_iff (text : List UInt8) :
    encode kept text = text ↔ ∀ b ∈ text, kept b = true := by
  constructor
  · intro same
    exact (length_encode_iff kept text).mp (congrArg List.length same)
  · intro keep
    induction text with
    | nil => rfl
    | cons b text ih =>
      rw [List.forall_mem_cons] at keep
      rw [encode_cons, if_pos keep.1, ih keep.2]
      rfl

/-- Encoding piece by piece leaves the separators alone. -/
theorem intercalate_encode_splitOn (sep : UInt8) (text : List UInt8) :
    [sep].intercalate ((text.splitOn sep).map (encode kept)) =
      encode (fun b => b = sep || kept b) text := by
  induction text with
  | nil => simp
  | cons b text ih =>
    have some := List.splitOn_ne_nil sep text
    rw [List.splitOn_cons_eq_if_modifyHead, encode_cons, ← ih]
    by_cases same : b = sep
    · subst same
      simp [List.intercalate_cons_of_ne_nil, some]
    · have other : (b == sep) = false := beq_eq_false_iff_ne.mpr same
      rw [if_neg (by simp [other])]
      generalize text.splitOn sep = pieces at some
      cases pieces with
      | nil => exact absurd rfl some
      | cons piece pieces =>
        rw [List.modifyHead_cons, List.map_cons, List.map_cons, encode_cons]
        cases pieces <;> simp [same]

/-! ## The pairs of a query -/

def ampersand : UInt8 := 38

def equalsSign : UInt8 := 61

/-- Split at the first `=`; without one the value is empty. -/
def cut (piece : List UInt8) : List UInt8 × List UInt8 :=
  (piece.takeWhile (· ≠ equalsSign), (piece.dropWhile (· ≠ equalsSign)).drop 1)

def pairs (query : List UInt8) : List (List UInt8 × List UInt8) :=
  (query.splitOn ampersand).map cut

/-- A query of some pairs. -/
def join (pairs : List (List UInt8 × List UInt8)) : List UInt8 :=
  [ampersand].intercalate (pairs.map fun pair => pair.1 ++ equalsSign :: pair.2)

theorem cut_append {key : List UInt8} (h : equalsSign ∉ key) (value : List UInt8) :
    cut (key ++ equalsSign :: value) = (key, value) := by
  have before : ∀ b ∈ key, (b ≠ equalsSign : Bool) = true := by
    intro b mem
    refine decide_eq_true fun same => h ?_
    rwa [same] at mem
  rw [cut, List.takeWhile_append_of_pos before, List.dropWhile_append_of_pos before]
  simp

/-- A joined query is split into its pieces. -/
theorem splitOn_join {list : List (List UInt8 × List UInt8)} (some : list ≠ [])
    (h : ∀ pair ∈ list, ampersand ∉ pair.1 ∧ ampersand ∉ pair.2) :
    (join list).splitOn ampersand = list.map fun pair => pair.1 ++ equalsSign :: pair.2 := by
  refine List.splitOn_intercalate _ ?_ (by simpa using some)
  intro piece listed
  obtain ⟨pair, mem, rfl⟩ := List.mem_map.mp listed
  simp only [List.mem_append, List.mem_cons, not_or]
  exact ⟨(h pair mem).1, by decide, (h pair mem).2⟩

theorem pairs_join {list : List (List UInt8 × List UInt8)} (some : list ≠ [])
    (h : ∀ pair ∈ list, ampersand ∉ pair.1 ∧ ampersand ∉ pair.2)
    (keys : ∀ pair ∈ list, equalsSign ∉ pair.1) : pairs (join list) = list := by
  rw [pairs, splitOn_join some h, List.map_map]
  refine (List.map_congr_left fun pair mem => ?_).trans (List.map_id list)
  exact cut_append (keys pair mem) pair.2

theorem mem_intercalate {α : Type} {c sep : α} {list : List (List α)}
    (h : c ∈ [sep].intercalate list) : c = sep ∨ ∃ piece ∈ list, c ∈ piece := by
  induction list with
  | nil => cases h
  | cons piece list ih =>
    cases list with
    | nil => exact .inr ⟨piece, List.mem_singleton.mpr rfl, by simpa using h⟩
    | cons next list =>
      rw [List.intercalate_cons_cons] at h
      rcases List.mem_append.mp h with first | rest
      · rcases List.mem_append.mp first with mem | isSep
        · exact .inr ⟨piece, List.mem_cons_self, mem⟩
        · exact .inl (List.mem_singleton.mp isSep)
      · rcases ih rest with isSep | ⟨other, mem, inOther⟩
        · exact .inl isSep
        · exact .inr ⟨other, List.mem_cons_of_mem _ mem, inOther⟩

theorem not_mem_join {c : UInt8} (separator : c ≠ ampersand ∧ c ≠ equalsSign)
    {list : List (List UInt8 × List UInt8)} (h : ∀ pair ∈ list, c ∉ pair.1 ∧ c ∉ pair.2) :
    c ∉ join list := by
  intro mem
  rcases mem_intercalate mem with isSep | ⟨piece, listed, inPiece⟩
  · exact separator.1 isSep
  · obtain ⟨pair, pairMem, rfl⟩ := List.mem_map.mp listed
    obtain ⟨notKey, notValue⟩ := h pair pairMem
    rcases List.mem_append.mp inPiece with inKey | inValue
    · exact notKey inKey
    · rcases List.mem_cons.mp inValue with isEquals | inValue
      · exact separator.2 isEquals
      · exact notValue inValue

end GenChat.Library.PercentEncoding
