import Mathlib.Data.List.Basic
import Mathlib.Tactic

/-!
# Texts in lines

`splitPair a b` cuts a text at every occurrence of the separator `a b`, `joinPair a b` puts the
separator between lines. Two different symbols cannot overlap with themselves, so each operation
undoes the other.
-/
namespace GenChat.Library
variable {α : Type} (a b : α)

def joinPair : List (List α) → List α
  | [] => []
  | [line] => line
  | line :: next :: rest => line ++ a :: b :: joinPair (next :: rest)

/-- The separator does not occur in the line. -/
def Unbroken (line : List α) : Prop := ¬ [a, b] <:+: line

section Join
variable {a b}

theorem joinPair_cons {lines : List (List α)} (some : lines ≠ []) (line : List α) :
    joinPair a b (line :: lines) = line ++ a :: b :: joinPair a b lines := by
  cases lines with
  | nil => exact absurd rfl some
  | cons next rest => rfl

theorem joinPair_modifyHead {lines : List (List α)} (some : lines ≠ []) (c : α) :
    joinPair a b (lines.modifyHead (c :: ·)) = c :: joinPair a b lines := by
  cases lines with
  | nil => exact absurd rfl some
  | cons line rest => cases rest <;> rfl

theorem Unbroken.tail {c : α} {line : List α} (h : Unbroken a b (c :: line)) :
    Unbroken a b line := fun found => h (found.trans (List.suffix_cons c line).isInfix)

theorem unbroken_cons {c d : α} {line : List α} (h : Unbroken a b (c :: d :: line)) :
    ¬ (c = a ∧ d = b) := by
  rintro ⟨rfl, rfl⟩
  exact h ⟨[], line, rfl⟩

theorem unbroken_nil : Unbroken a b [] := by
  rintro ⟨before, after, found⟩
  simp at found

/-- A symbol in front of a line can only complete a separator at its start. -/
theorem Unbroken.cons {c : α} {line : List α} (h : Unbroken a b line)
    (start : c = a → line.head? ≠ some b) : Unbroken a b (c :: line) := by
  rintro ⟨before, after, found⟩
  cases before with
  | nil =>
    obtain ⟨same, rest⟩ := List.cons.inj found
    exact start same.symm (by rw [← rest]; rfl)
  | cons x before => exact h ⟨before, after, (List.cons.inj found).2⟩

theorem unbroken_of_notMem {line : List α} (absent : b ∉ line) : Unbroken a b line :=
  fun found => absent (found.subset (by simp))

theorem Unbroken.append {line rest : List α} (h : Unbroken a b line) (absent : b ∉ rest) :
    Unbroken a b (line ++ rest) := by
  induction line with
  | nil => exact unbroken_of_notMem absent
  | cons c line ih =>
    refine (ih h.tail).cons fun same starts => ?_
    cases line with
    | nil => exact absent (List.mem_of_head? starts)
    | cons d line => exact unbroken_cons h ⟨same, Option.some.inj starts⟩

end Join

variable [DecidableEq α]

def splitPair : List α → List (List α)
  | [] => [[]]
  | [c] => [[c]]
  | c :: d :: rest =>
    if c = a ∧ d = b then [] :: splitPair rest
    else (splitPair (d :: rest)).modifyHead (c :: ·)

variable {a b}

theorem splitPair_ne_nil (text : List α) : splitPair a b text ≠ [] := by
  fun_induction splitPair a b text with
  | case1 | case2 | case3 => simp
  | case4 c d rest other ih => simpa [List.modifyHead_eq_nil_iff] using ih

/-- Joining the lines of a text gives the text. -/
theorem joinPair_splitPair (text : List α) : joinPair a b (splitPair a b text) = text := by
  fun_induction splitPair a b text with
  | case1 => rfl
  | case2 c => rfl
  | case3 c d rest found ih =>
    obtain ⟨rfl, rfl⟩ := found
    rw [joinPair_cons (splitPair_ne_nil rest), ih]
    rfl
  | case4 c d rest other ih => rw [joinPair_modifyHead (splitPair_ne_nil _), ih]

theorem splitPair_unbroken {line : List α} (h : Unbroken a b line) :
    splitPair a b line = [line] := by
  induction line with
  | nil => rfl
  | cons c line ih =>
    cases line with
    | nil => rfl
    | cons d line =>
      rw [splitPair, if_neg (unbroken_cons h), ih h.tail]
      rfl

/-- The first separator ends the first line. -/
theorem splitPair_append {line : List α} (distinct : a ≠ b) (h : Unbroken a b line)
    (rest : List α) : splitPair a b (line ++ a :: b :: rest) = line :: splitPair a b rest := by
  induction line with
  | nil => rw [List.nil_append, splitPair, if_pos ⟨rfl, rfl⟩]
  | cons c line ih =>
    have later := ih h.tail
    cases line with
    | nil =>
      rw [List.nil_append] at later
      rw [List.cons_append, List.nil_append, splitPair, if_neg (fun found => distinct found.2),
        later]
      rfl
    | cons d line =>
      rw [List.cons_append] at later
      rw [List.cons_append, List.cons_append, splitPair, if_neg (unbroken_cons h), later]
      rfl

/-- The lines of joined lines are these lines. -/
theorem splitPair_joinPair {lines : List (List α)} (distinct : a ≠ b) (some : lines ≠ [])
    (h : ∀ line ∈ lines, Unbroken a b line) : splitPair a b (joinPair a b lines) = lines := by
  induction lines with
  | nil => exact absurd rfl some
  | cons line rest ih =>
    obtain ⟨now, later⟩ := List.forall_mem_cons.mp h
    cases rest with
    | nil => exact splitPair_unbroken now
    | cons next rest =>
      rw [joinPair, splitPair_append distinct now, ih (by simp) later]

/-- The first line of a text starts as the text does. -/
theorem head_splitPair {text line : List α} {lines : List (List α)} {x : α}
    (cut : splitPair a b text = line :: lines) (first : line.head? = some x) :
    text.head? = some x := by
  fun_cases splitPair a b text with
  | case1 => simp_all [splitPair]
  | case2 c => simp_all [splitPair]
  | case3 c d rest found => simp_all [splitPair]
  | case4 c d rest other =>
    rw [splitPair, if_neg other] at cut
    cases later : splitPair a b (d :: rest) with
    | nil => exact absurd later (splitPair_ne_nil _)
    | cons l ls =>
      rw [later, List.modifyHead_cons] at cut
      obtain ⟨rfl, -⟩ := List.cons.inj cut
      exact first

/-- No line of a text holds the separator. -/
theorem unbroken_of_mem_splitPair {text line : List α} (mem : line ∈ splitPair a b text) :
    Unbroken a b line := by
  fun_induction splitPair a b text generalizing line with
  | case1 =>
    rw [List.mem_singleton.mp mem]
    exact unbroken_nil
  | case2 c =>
    rw [List.mem_singleton.mp mem]
    exact unbroken_nil.cons fun _ => by simp
  | case3 c d rest found ih =>
    rcases List.mem_cons.mp mem with rfl | later
    · exact unbroken_nil
    · exact ih later
  | case4 c d rest other ih =>
    cases later : splitPair a b (d :: rest) with
    | nil => exact absurd later (splitPair_ne_nil _)
    | cons l ls =>
      rw [later] at ih mem
      rcases List.mem_cons.mp mem with rfl | mem
      · refine (ih List.mem_cons_self).cons fun same starts => other ⟨same, ?_⟩
        exact Option.some.inj (head_splitPair later starts)
      · exact ih (List.mem_cons_of_mem _ mem)

end GenChat.Library
