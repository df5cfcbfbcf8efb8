import GenChat.Library.BrowserText
import GenChat.Library.Json

/-!
# JSON that was printed by hand

A text with plain strings and decimal numbers put between quotes, colons and commas is read back as
these strings and numbers.
-/
namespace GenChat.Library.Json
open BrowserText (textEncode textEncode_ofList_cons)

/-! ## Plain text -/

/-- An ASCII character that stands for itself in a JSON string. -/
def plainChar (c : Char) : Bool := 32 ≤ c.toNat && c.toNat < 127 && c ≠ '"' && c ≠ '\\'

def Plain (s : String) : Prop := s.toList.all plainChar

instance (s : String) : Decidable (Plain s) := inferInstanceAs (Decidable (_ = _))

theorem decodeUtf8_ascii {cs : List Char} (h : ∀ c ∈ cs, c.toNat < 128) :
    decodeUtf8 (textEncode (String.ofList cs)) = cs := by
  induction cs with
  | nil => rfl
  | cons c cs ih =>
    have small : c.toNat < 128 := h c (by simp)
    have one : String.utf8EncodeChar c = [UInt8.ofNat c.toNat] := by
      have small : c.val.toNat ≤ 127 := Nat.le_of_lt_succ small
      unfold String.utf8EncodeChar
      simp only [small, if_true]
      rfl
    have byte : (UInt8.ofNat c.toNat).toNat = c.toNat := by
      rw [UInt8.toNat_ofNat', Nat.mod_eq_of_lt (by omega)]
    rw [textEncode_ofList_cons, one, List.cons_append, List.nil_append, decodeUtf8.eq_def]
    simp only
    rw [if_pos (UInt8.lt_iff_toNat_lt.mpr (by simpa [byte] using small)), byte, Char.ofNat_toNat,
      ih fun c hc => h c (by simp [hc])]

/-- The body of a plain string ends at the quote behind it. -/
theorem stringBody_plain {cs rest : List Char} {fuel : Nat} (h : cs.all plainChar)
    (enough : cs.length < fuel) : stringBody fuel (cs ++ '"' :: rest) = some (cs, rest) := by
  induction cs generalizing fuel with
  | nil =>
    obtain ⟨fuel, rfl⟩ := Nat.exists_eq_add_of_lt enough
    rfl
  | cons c cs ih =>
    obtain ⟨fuel, rfl⟩ : ∃ n, fuel = n + 1 := ⟨fuel - 1, by simp at enough; omega⟩
    obtain ⟨plain, later⟩ : plainChar c = true ∧ cs.all plainChar = true := by
      simpa only [List.all_cons, Bool.and_eq_true] using h
    have rest' := @ih fuel later (by simpa using enough)
    simp only [plainChar, Bool.and_eq_true, decide_eq_true_eq] at plain
    obtain ⟨⟨⟨low, -⟩, quote⟩, backslash⟩ := plain
    rw [List.cons_append, stringBody.eq_5 fuel c _ quote
      (fun _ _ _ _ _ same _ => backslash same) (fun _ _ same _ => backslash same),
      if_neg (by omega), rest']
    rfl

/-! ## Decimal numbers -/

/-- `%d` -/
def printInt (n : Int) : List Char := (toString n).toList

theorem isDigit_of_mem {n : Nat} {c : Char} (h : c ∈ Nat.toDigits 10 n) : isDigit c := by
  have digit := Nat.isDigit_of_mem_toDigits (by decide) (by decide) h
  simpa [Char.isDigit, isDigit, Char.le_def] using digit

/-- A number has no leading zero, unless it is zero. -/
theorem toDigits_head {n : Nat} : (Nat.toDigits 10 n).head? = some '0' →
    (Nat.toDigits 10 n).length = 1 := by
  induction n using Nat.strongRecOn with
  | ind n ih =>
    intro head
    rw [Nat.toDigits_eq_if (by decide)] at head ⊢
    split_ifs at head ⊢ with small
    · rfl
    · rw [List.head?_append_of_ne_nil _ Nat.toDigits_ne_nil] at head
      have one := ih (n / 10) (by omega) head
      have zero : n / 10 < 10 :=
        (Nat.length_toDigits_le_iff (b := 10) (k := 1) (by decide) (by decide)).mp one.le
      rw [Nat.toDigits_of_lt_base zero] at head
      have : n / 10 = 0 := by
        interval_cases n / 10 <;> first | rfl | simp [Nat.digitChar] at head
      omega

theorem decimal_toDigits (n : Nat) : decimal (Nat.toDigits 10 n) = n := by
  have value := @Nat.ofDigitChars_ten_toDigits n
  rw [Nat.ofDigitChars_eq_foldl] at value
  simpa [decimal, Nat.mul_comm] using value

/-- What may stand behind an integer. -/
def ends (c : Char) : Bool := !isDigit c && c ≠ '.' && c ≠ 'e' && c ≠ 'E'

theorem unsignedNumber_toDigits (negative : Bool) (n : Nat) {c : Char} {rest : List Char}
    (h : ends c) : unsignedNumber negative (Nat.toDigits 10 n ++ c :: rest) =
      some (.number (some (if negative then -(n : Int) else n)), c :: rest) := by
  simp only [ends, Bool.and_eq_true, Bool.not_eq_true', decide_eq_true_eq] at h
  obtain ⟨⟨⟨digit, dot⟩, small⟩, capital⟩ := h
  have split : digits (Nat.toDigits 10 n ++ c :: rest) = (Nat.toDigits 10 n, c :: rest) := by
    unfold digits
    rw [List.takeWhile_append_of_pos fun _ => isDigit_of_mem,
      List.dropWhile_append_of_pos fun _ => isDigit_of_mem,
      List.takeWhile_cons_of_neg (by simp [digit]), List.dropWhile_cons_of_neg (by simp [digit]),
      List.append_nil]
  have whole : fraction (c :: rest) = some (false, c :: rest) :=
    fraction.eq_2 _ fun _ same => dot (List.cons.inj same).1
  have exact : exponent (c :: rest) = some (false, c :: rest) := by
    rw [exponent.eq_def]
    exact if_neg (by simp [small, capital])
  unfold unsignedNumber
  simp only [split]
  rw [if_neg (fun bad => bad.elim Nat.toDigits_ne_nil fun zero => zero.2 (toDigits_head zero.1)),
    whole, Option.bind_some, exact, Option.map_some, decimal_toDigits]
  rfl


theorem printInt_eq (n : Int) : printInt n =
    if 0 ≤ n then Nat.toDigits 10 n.natAbs else '-' :: Nat.toDigits 10 n.natAbs := by
  cases n with
  | ofNat n => exact Nat.toList_repr
  | negSucc n =>
    show ("-" ++ (n + 1).repr).toList = _
    rw [String.toList_append, Nat.toList_repr]
    rfl

/-! ## Objects of strings and numbers -/

inductive Scalar where
  | string (s : String)
  | number (n : Int)

def printString (s : String) : List Char := '"' :: (s.toList ++ ['"'])

def Scalar.print : Scalar → List Char
  | string s => printString s
  | number n => printInt n

def Scalar.json : Scalar → Json
  | string s => .string s
  | number n => .number (some n)

def Scalar.Plain : Scalar → Prop
  | string s => Json.Plain s
  | number _ => True

def printMember (m : String × Scalar) : List Char := printString m.1 ++ ':' :: m.2.print

def printMembers : List (String × Scalar) → List Char
  | [] => []
  | [m] => printMember m
  | m :: n :: ms => printMember m ++ ',' :: printMembers (n :: ms)

def printObject (ms : List (String × Scalar)) : List Char := '\x7b' :: (printMembers ms ++ ['\x7d'])

/-- Names and texts are plain. -/
def PlainMembers (ms : List (String × Scalar)) : Prop := ∀ m ∈ ms, Json.Plain m.1 ∧ m.2.Plain

theorem stringBody_printString {s : String} {rest : List Char} {fuel : Nat} (h : Plain s)
    (enough : s.toList.length < fuel) :
    stringBody fuel (s.toList ++ ['"'] ++ rest) = some (s.toList, rest) := by
  rw [List.append_assoc]
  exact stringBody_plain h enough

theorem skipSpace_cons {c : Char} {cs : List Char} (h : 32 < c.toNat) :
    skipSpace (c :: cs) = c :: cs := by
  apply List.dropWhile_cons_of_neg
  simp only [Bool.or_eq_true, decide_eq_true_eq, not_or]
  refine ⟨⟨⟨?_, ?_⟩, ?_⟩, ?_⟩ <;> rintro rfl <;> exact absurd h (by decide)

theorem value_digit {d : Char} {cs : List Char} {fuel : Nat} (h : isDigit d) :
    value (fuel + 1) (d :: cs) = unsignedNumber false (d :: cs) := by
  have range : 48 ≤ d.toNat := by
    simp only [isDigit, Bool.and_eq_true, decide_eq_true_eq] at h
    exact h.1
  rw [value, skipSpace_cons (by omega)]
  split <;> first
    | rfl
    | injection ‹_ :: _ = _ :: _› with same
      subst same
      exact absurd h (by decide)

theorem value_printInt {n : Int} {c : Char} {rest : List Char} {fuel : Nat} (h : ends c) :
    value (fuel + 1) (printInt n ++ c :: rest) = some (.number (some n), c :: rest) := by
  rw [printInt_eq]
  split_ifs with positive
  · have read := @unsignedNumber_toDigits false n.natAbs c rest h
    obtain ⟨d, ds, digits⟩ :=
      List.exists_cons_of_ne_nil (Nat.toDigits_ne_nil (b := 10) (n := n.natAbs))
    have first : isDigit d := isDigit_of_mem (n := n.natAbs) (digits ▸ List.mem_cons_self)
    rw [digits] at read ⊢
    rw [List.cons_append, value_digit first, ← List.cons_append, read]
    simp [abs_of_nonneg positive]
  · rw [List.cons_append, value, skipSpace_cons (by decide)]
    simp only
    rw [unsignedNumber_toDigits true n.natAbs h]
    have : -(n.natAbs : Int) = n := by omega
    simp only [if_true, this]

theorem value_print {x : Scalar} {c : Char} {rest : List Char} {fuel : Nat} (h : x.Plain)
    (enough : x.print.length < fuel) (last : ends c) :
    value fuel (x.print ++ c :: rest) = some (x.json, c :: rest) := by
  obtain ⟨fuel, rfl⟩ : ∃ n, fuel = n + 1 := ⟨fuel - 1, by omega⟩
  cases x with
  | string s =>
    have length : s.toList.length < fuel := by
      simp only [Scalar.print, printString, List.length_cons, List.length_append] at enough
      omega
    rw [Scalar.print, printString, List.cons_append, value, skipSpace_cons (by decide)]
    simp only
    rw [stringBody_printString h length, Option.map_some, String.ofList_toList]
    rfl
  | number n => exact value_printInt last

/-- What follows a member is a comma or the closing brace. -/
theorem members_print {m : String × Scalar} {c : Char} {rest : List Char} {fuel : Nat}
    (h : Json.Plain m.1 ∧ m.2.Plain) (enough : (printMember m).length < fuel) (last : ends c)
    (space : 32 < c.toNat) :
    members (fuel + 1) (printMember m ++ c :: rest) =
      match c :: rest with
      | '\x7d' :: rest => some ([(m.1, m.2.json)], rest)
      | ',' :: rest => (members fuel rest).map fun r => ((m.1, m.2.json) :: r.1, r.2)
      | _ => none := by
  obtain ⟨name, x⟩ := m
  simp only [printMember, printString, List.length_cons, List.length_append] at enough
  have key : stringBody fuel (name.toList ++ '"' :: ':' :: (x.print ++ c :: rest)) =
      some (name.toList, ':' :: (x.print ++ c :: rest)) := stringBody_plain h.1 (by omega)
  have read : value fuel (x.print ++ c :: rest) = some (x.json, c :: rest) :=
    value_print h.2 (by omega) last
  simp only [printMember, printString, List.cons_append, List.append_assoc, List.nil_append]
  rw [members, skipSpace_cons (by decide)]
  simp only
  rw [key, Option.bind_some]
  simp only
  rw [skipSpace_cons (by decide)]
  simp only
  rw [read, Option.bind_some]
  change (match skipSpace (c :: rest) with
    | '\x7d' :: rest => some ([(String.ofList name.toList, x.json)], rest)
    | ',' :: rest => (members fuel rest).map fun (r : List (String × Json) × List Char) =>
      ((String.ofList name.toList, x.json) :: r.1, r.2)
    | _ => none : Option (List (String × Json) × List Char)) = _
  rw [skipSpace_cons space, String.ofList_toList]

theorem members_printMembers {ms : List (String × Scalar)} {rest : List Char} {fuel : Nat}
    (some' : ms ≠ []) (h : PlainMembers ms) (enough : (printMembers ms).length + 1 < fuel) :
    members fuel (printMembers ms ++ '\x7d' :: rest) =
      some (ms.map fun m => (m.1, m.2.json), rest) := by
  induction ms using printMembers.induct generalizing fuel with
  | case1 => exact absurd rfl some'
  | case2 m =>
    obtain ⟨fuel, rfl⟩ : ∃ n, fuel = n + 1 := ⟨fuel - 1, by omega⟩
    exact members_print (h m (by simp)) (by simp only [printMembers] at enough; omega)
      (by decide) (by decide)
  | case3 m n ms ih =>
    obtain ⟨fuel, rfl⟩ : ∃ n, fuel = n + 1 := ⟨fuel - 1, by omega⟩
    simp only [printMembers, List.length_append, List.length_cons] at enough
    have later := @ih fuel (List.cons_ne_nil _ _)
      (fun m hm => h m (List.mem_cons_of_mem _ hm)) (by omega)
    rw [printMembers, List.append_assoc, List.cons_append,
      members_print (h m (by simp)) (by omega) (by decide) (by decide)]
    simp only
    rw [later]
    rfl

/-! ## The whole text -/

theorem Plain.ascii {s : String} (h : Plain s) : ∀ c ∈ s.toList, c.toNat < 128 := by
  intro c hc
  have plain := List.all_eq_true.mp h c hc
  simp only [plainChar, Bool.and_eq_true, decide_eq_true_eq] at plain
  omega

theorem printString_ascii {s : String} (h : Plain s) : ∀ c ∈ printString s, c.toNat < 128 := by
  intro c hc
  simp only [printString, List.mem_cons, List.mem_append, List.not_mem_nil, or_false] at hc
  obtain rfl | inside | rfl := hc
  · decide
  · exact h.ascii c inside
  · decide

theorem toDigits_ascii {n : Nat} {c : Char} (h : c ∈ Nat.toDigits 10 n) : c.toNat < 128 := by
  have digit := isDigit_of_mem h
  simp only [isDigit, Bool.and_eq_true, decide_eq_true_eq] at digit
  have high : c.toNat ≤ 57 := digit.2
  omega

theorem printInt_ascii (n : Int) : ∀ c ∈ printInt n, c.toNat < 128 := by
  intro c hc
  rw [printInt_eq] at hc
  split at hc
  · exact toDigits_ascii hc
  · obtain rfl | digit := List.mem_cons.mp hc
    · decide
    · exact toDigits_ascii digit

theorem printMember_ascii {m : String × Scalar} (h : Json.Plain m.1 ∧ m.2.Plain) :
    ∀ c ∈ printMember m, c.toNat < 128 := by
  obtain ⟨name, x⟩ := m
  intro c hc
  simp only [printMember, List.mem_append, List.mem_cons] at hc
  obtain key | rfl | val := hc
  · exact printString_ascii h.1 c key
  · decide
  · cases x with
    | string s => exact printString_ascii h.2 c val
    | number n => exact printInt_ascii n c val

theorem printMembers_ascii {ms : List (String × Scalar)} (h : PlainMembers ms) :
    ∀ c ∈ printMembers ms, c.toNat < 128 := by
  induction ms using printMembers.induct with
  | case1 => simp [printMembers]
  | case2 m => exact printMember_ascii (h m (by simp))
  | case3 m n ms ih =>
    intro c hc
    simp only [printMembers, List.mem_append, List.mem_cons] at hc
    obtain first | rfl | later := hc
    · exact printMember_ascii (h m (by simp)) c first
    · decide
    · exact ih (fun m hm => h m (List.mem_cons_of_mem _ hm)) c later

theorem printMembers_cons (m : String × Scalar) (ms : List (String × Scalar)) :
    ∃ cs, printMembers (m :: ms) = '"' :: cs := by
  cases ms with
  | nil => exact ⟨_, rfl⟩
  | cons n ms => exact ⟨_, rfl⟩

theorem value_printObject {ms : List (String × Scalar)} {fuel : Nat} (some' : ms ≠ [])
    (h : PlainMembers ms) (enough : (printMembers ms).length + 1 < fuel) :
    value (fuel + 1) (printObject ms) =
      some (.object (ms.map fun m => (m.1, m.2.json)), []) := by
  obtain ⟨m, later, rfl⟩ := List.exists_cons_of_ne_nil some'
  obtain ⟨cs, quote⟩ := printMembers_cons m later
  have read := @members_printMembers _ [] fuel (List.cons_ne_nil m later) h enough
  rw [quote, List.cons_append] at read
  rw [printObject, value, skipSpace_cons (by decide)]
  simp only
  rw [quote, List.cons_append, skipSpace_cons (by decide)]
  exact congrArg (Option.map fun r => (object r.1, r.2)) read

/-- An object that was printed is read back. -/
theorem parse_printObject {ms : List (String × Scalar)} (some' : ms ≠ []) (h : PlainMembers ms) :
    parse (textEncode (String.ofList (printObject ms))) =
      some (.object (ms.map fun m => (m.1, m.2.json))) := by
  have ascii : ∀ c ∈ printObject ms, c.toNat < 128 := by
    intro c hc
    simp only [printObject, List.mem_cons, List.mem_append, List.not_mem_nil, or_false] at hc
    obtain rfl | inside | rfl := hc
    · decide
    · exact printMembers_ascii h c inside
    · decide
  have enough : (printMembers ms).length + 1 < 2 * (printObject ms).length + 1 := by
    simp only [printObject, List.length_cons, List.length_append]
    omega
  simp only [parse, decodeUtf8_ascii ascii, value_printObject some' h enough]
  rfl

end GenChat.Library.Json
