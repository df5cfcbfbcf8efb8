import GenChat.Library.Phases

/-!
# Read-write locks

`RWMutex` behaves like the lock of this name in Go. A writer that has got past the other writers
waits for the readers in front of it; a reader that comes later waits for this writer, and gets the
lock when the writer gives it back. A `Stance` says what a participant holds of a lock and wants of
it, and `Balanced` that the lock and its participants agree. If all participants are stuck, one of
them waits for a read lock while it holds one.
-/
namespace GenChat.Library

inductive Writer where
  | absent
  /-- It waits for the readers in front of it. -/
  | waiting
  | holding
  deriving DecidableEq

structure RWMutex where
  /-- Read locks that are held. -/
  readers : Nat
  /-- Readers that wait for the writer. -/
  queued : Nat
  writer : Writer
  /-- How often a writer has given the lock back. -/
  rounds : Nat
  deriving DecidableEq

namespace RWMutex

def fresh : RWMutex := ⟨0, 0, .absent, 0⟩

/-- The reader has the lock at once, or a ticket for the end of this round. -/
def rLock (m : RWMutex) : RWMutex × Option Nat :=
  if m.writer = .absent then ({ m with readers := m.readers + 1 }, none)
  else ({ m with queued := m.queued + 1 }, some m.rounds)

def admits (m : RWMutex) (ticket : Nat) : Bool := ticket < m.rounds

def rUnlock (m : RWMutex) : RWMutex := { m with readers := m.readers - 1 }

/-- The first part of `Lock`: the writer gets past the other writers. -/
def lock (m : RWMutex) : Option RWMutex :=
  if m.writer = .absent then some { m with writer := .waiting } else none

/-- The second part of `Lock`: the readers in front have left. -/
def acquire (m : RWMutex) : Option RWMutex :=
  if m.writer = .waiting ∧ m.readers = 0 then some { m with writer := .holding } else none

/-- The waiting readers get the lock. -/
def unlock (m : RWMutex) : RWMutex := ⟨m.readers + m.queued, 0, .absent, m.rounds + 1⟩

end RWMutex

inductive Stance where
  /-- It can go on, with this many read locks. -/
  | free (held : Nat)
  /-- It waits with a ticket for a read lock, and holds this many others. -/
  | queued (held ticket : Nat)
  /-- It has called `Lock` and not got past the other writers. -/
  | asking
  | waiting
  | writing
  | finished
  deriving DecidableEq

namespace Stance

/-- The read locks that it holds. -/
def reads (rounds : Nat) : Stance → Nat
  | free held => held
  | queued held ticket => held + if ticket < rounds then 1 else 0
  | _ => 0

def isQueued (rounds : Nat) : Stance → Bool
  | queued _ ticket => ¬ ticket < rounds
  | _ => false

/-- It cannot take a step. -/
def Blocked (m : RWMutex) : Stance → Prop
  | free _ | writing => False
  | queued _ ticket => m.admits ticket = false
  | asking => m.lock = none
  | waiting => m.acquire = none
  | finished => True

/-- The steps of one participant. -/
inductive Moves (m : RWMutex) : Stance → RWMutex → Stance → Prop where
  | rLock (held : Nat) : m.writer = .absent →
      Moves m (free held) { m with readers := m.readers + 1 } (free (held + 1))
  | queue (held : Nat) : m.writer ≠ .absent →
      Moves m (free held) { m with queued := m.queued + 1 } (queued held m.rounds)
  | enter (held ticket : Nat) : m.admits ticket = true →
      Moves m (queued held ticket) m (free (held + 1))
  | rUnlock (held : Nat) : Moves m (free (held + 1)) m.rUnlock (free held)
  | leave : Moves m (free 1) m.rUnlock finished
  | lock : m.writer = .absent → Moves m asking { m with writer := .waiting } waiting
  | acquire : m.writer = .waiting → m.readers = 0 →
      Moves m waiting { m with writer := .holding } writing
  | unlock : Moves m writing m.unlock finished
  | stay (s : Stance) : Moves m s m s

end Stance

open Stance

structure Balanced (m : RWMutex) (stances : List Stance) : Prop where
  readers : m.readers = (stances.map (reads m.rounds)).sum
  queued : m.queued = stances.countP (isQueued m.rounds)
  waiting : stances.countP (· = .waiting) = if m.writer = .waiting then 1 else 0
  writing : stances.countP (· = .writing) = if m.writer = .holding then 1 else 0
  tickets : ∀ held ticket, .queued held ticket ∈ stances → ticket ≤ m.rounds
  front : m.writer = .absent → m.queued = 0

variable {m m' : RWMutex} {stances : List Stance} {s s' : Stance} {i : Nat}

theorem balanced_fresh : Balanced .fresh [] :=
  ⟨rfl, rfl, rfl, rfl, by simp, fun _ => rfl⟩

/-- A new participant has nothing yet. -/
theorem Balanced.concat (h : Balanced m stances) (new : s = .free 0 ∨ s = .asking) :
    Balanced m (stances ++ [s]) := by
  rcases new with rfl | rfl
  · exact ⟨by simp [h.readers, reads], by simp [h.queued, isQueued], by simp [h.waiting],
      by simp [h.writing], by simpa using h.tickets, h.front⟩
  · exact ⟨by simp [h.readers, reads], by simp [h.queued, isQueued], by simp [h.waiting],
      by simp [h.writing], by simpa using h.tickets, h.front⟩

/-- Within a round it is enough that the counters follow the participant. -/
theorem Balanced.set (h : Balanced m stances) (here : stances[i]? = some s)
    (round : m'.rounds = m.rounds)
    (readers : m.readers + reads m.rounds s' = m'.readers + reads m.rounds s)
    (queued : m'.queued + (if isQueued m.rounds s then 1 else 0) =
      m.queued + if isQueued m.rounds s' then 1 else 0)
    (waiting : (if m'.writer = .waiting then 1 else 0) + (if s = .waiting then 1 else 0) =
      (if m.writer = .waiting then 1 else 0) + if s' = .waiting then 1 else 0)
    (writing : (if m'.writer = .holding then 1 else 0) + (if s = .writing then 1 else 0) =
      (if m.writer = .holding then 1 else 0) + if s' = .writing then 1 else 0)
    (tickets : ∀ held ticket, s' = .queued held ticket → ticket ≤ m.rounds)
    (front : m'.writer = .absent → m'.queued = 0) : Balanced m' (stances.set i s') where
  readers := by
    have sum := sum_map_set (g := reads m.rounds) (y := s') here
    have old := h.readers
    rw [round]
    omega
  queued := by
    have count := countP_set_add (a := isQueued m.rounds) (y := s') here
    have old := h.queued
    rw [round]
    omega
  waiting := by
    have count := countP_set_add (a := fun s => decide (s = Stance.waiting)) (y := s') here
    have old := h.waiting
    simp only [decide_eq_true_eq] at count
    omega
  writing := by
    have count := countP_set_add (a := fun s => decide (s = Stance.writing)) (y := s') here
    have old := h.writing
    simp only [decide_eq_true_eq] at count
    omega
  tickets held ticket mem := by
    rw [round]
    rcases List.mem_or_eq_of_mem_set mem with old | new
    · exact h.tickets held ticket old
    · exact tickets held ticket new.symm
  front := front

/-- When a round ends, the waiting readers hold the lock. -/
theorem sum_reads_succ {rounds : Nat}
    (tickets : ∀ held ticket, .queued held ticket ∈ stances → ticket ≤ rounds) :
    (stances.map (reads (rounds + 1))).sum =
      (stances.map (reads rounds)).sum + stances.countP (isQueued rounds) ∧
    stances.countP (isQueued (rounds + 1)) = 0 := by
  induction stances with
  | nil => exact ⟨rfl, rfl⟩
  | cons s stances ih =>
    obtain ⟨sum, none⟩ := ih fun held ticket mem => tickets held ticket (List.mem_cons_of_mem s mem)
    rw [List.map_cons, List.sum_cons, sum, List.map_cons, List.sum_cons, List.countP_cons,
      List.countP_cons, none]
    cases s with
    | queued held ticket =>
      have old := tickets held ticket List.mem_cons_self
      have admitted : ticket < rounds + 1 := by omega
      by_cases now : ticket < rounds
      · simp [reads, isQueued, admitted, now]
        omega
      · simp [reads, isQueued, admitted, now]
        omega
    | free | asking | waiting | writing | finished =>
      simp [reads, isQueued]
      try omega

theorem Balanced.unlock (h : Balanced m stances) (here : stances[i]? = some .writing) :
    Balanced m.unlock (stances.set i .finished) := by
  have holding : m.writer = .holding := by
    have count := h.writing
    by_contra other
    rw [if_neg other, List.countP_eq_zero] at count
    simpa using count _ (List.mem_of_getElem? here)
  obtain ⟨sum, none⟩ := sum_reads_succ h.tickets
  have readers := sum_map_set (g := reads (m.rounds + 1)) (y := Stance.finished) here
  have queued := countP_set_add (a := isQueued (m.rounds + 1)) (y := Stance.finished) here
  have waiting := countP_set_add (a := fun s => decide (s = Stance.waiting))
    (y := Stance.finished) here
  have writing := countP_set_add (a := fun s => decide (s = Stance.writing))
    (y := Stance.finished) here
  have oldWaiting := h.waiting
  have oldWriting := h.writing
  rw [holding] at oldWaiting oldWriting
  simp only [reads, isQueued, reduceCtorEq, decide_false, decide_true, if_true, if_false,
    Bool.false_eq_true] at readers queued waiting writing oldWaiting oldWriting
  refine ⟨?_, ?_, ?_, ?_, ?_, fun _ => rfl⟩
  · have first := h.readers
    have second := h.queued
    change m.readers + m.queued = ((stances.set i finished).map (reads (m.rounds + 1))).sum
    omega
  · change 0 = (stances.set i finished).countP (isQueued (m.rounds + 1))
    omega
  · simp only [RWMutex.unlock, reduceCtorEq, if_false]
    omega
  · simp only [RWMutex.unlock, reduceCtorEq, if_false]
    omega
  · intro held ticket mem
    rcases List.mem_or_eq_of_mem_set mem with old | new
    · have bound := h.tickets held ticket old
      change ticket ≤ m.rounds + 1
      omega
    · cases new

/-- A reader gives back one of its locks. -/
theorem Balanced.rUnlock {held : Nat} (h : Balanced m stances)
    (here : stances[i]? = some (.free (held + 1))) (reads_eq : reads m.rounds s' = held)
    (queued : isQueued m.rounds s' = false) (waiting : decide (s' = .waiting) = false)
    (writing : decide (s' = .writing) = false)
    (tickets : ∀ held ticket, s' ≠ .queued held ticket) :
    Balanced m.rUnlock (stances.set i s') := by
  have own : reads m.rounds (.free (held + 1)) = held + 1 := rfl
  have some : 0 < m.readers := by
    have sum := sum_map_set (g := reads m.rounds) (y := s') here
    have total := h.readers
    omega
  refine h.set here rfl ?_ ?_ ?_ ?_ (fun held ticket same => absurd same (tickets held ticket))
    h.front
  · change m.readers + reads m.rounds s' = m.readers - 1 + reads m.rounds (.free (held + 1))
    omega
  · rw [queued]
    rfl
  · rw [if_neg (of_decide_eq_false waiting)]
    rfl
  · rw [if_neg (of_decide_eq_false writing)]
    rfl

/-- Every step of a participant keeps the lock and the participants in agreement. -/
theorem Balanced.move (h : Balanced m stances) (here : stances[i]? = some s)
    (step : Moves m s m' s') : Balanced m' (stances.set i s') := by
  cases step with
  | rLock held absent =>
    exact h.set here rfl (by simp [reads]; omega) (by simp [isQueued]) (by simp) (by simp)
      (by simp) h.front
  | queue held present =>
    exact h.set here rfl (by simp [reads]) (by simp [isQueued]) (by simp) (by simp) (by simp)
      fun absent => absurd absent present
  | enter held ticket admitted =>
    have lt : ticket < m.rounds := by simpa [RWMutex.admits] using admitted
    exact h.set here rfl (by simp [reads, lt]) (by simp [isQueued, lt]) (by simp) (by simp)
      (by simp) h.front
  | rUnlock held => exact h.rUnlock here rfl rfl rfl rfl nofun
  | leave => exact h.rUnlock here rfl rfl rfl rfl nofun
  | lock absent =>
    exact h.set here rfl (by simp [reads]) (by simp [isQueued]) (by simp [absent])
      (by simp [absent]) (by simp) (by simp)
  | acquire waiting none =>
    exact h.set here rfl (by simp [reads]) (by simp [isQueued]) (by simp [waiting])
      (by simp [waiting]) (by simp) (by simp)
  | unlock => exact h.unlock here
  | stay =>
    refine h.set here rfl rfl rfl rfl rfl ?_ h.front
    rintro held ticket rfl
    exact h.tickets held ticket (List.mem_of_getElem? here)

/-- A writer comes from `Lock`. -/
theorem Stance.Moves.writer (step : Moves m s m' s') (absent : m.writer = .absent)
    (present : m'.writer ≠ .absent) : s = .asking ∧ s' = .waiting ∧ m'.rounds = m.rounds := by
  cases step with
  | lock => exact ⟨rfl, rfl, rfl⟩
  | acquire waiting =>
    rw [absent] at waiting
    cases waiting
  | queue held other => exact absurd absent other
  | unlock => exact absurd rfl present
  | rLock | enter | rUnlock | leave | stay => exact absurd absent present

/-- While a writer holds the lock there are no readers. -/
def RWMutex.Excludes (m : RWMutex) : Prop := m.writer = .holding → m.readers = 0

theorem Stance.Moves.excludes (step : Moves m s m' s') (h : m.Excludes) : m'.Excludes := by
  intro holds
  cases step with
  | rLock held absent =>
    rw [absent] at holds
    cases holds
  | queue | enter | stay => exact h holds
  | rUnlock | leave =>
    have none := h holds
    change m.readers - 1 = 0
    omega
  | lock => cases holds
  | acquire waiting none => exact none
  | unlock => cases holds

/-- A participant without locks asks for the write lock, or finishes. -/
theorem Balanced.turn (h : Balanced m stances) (here : stances[i]? = some (.free 0))
    (turned : s' = .asking ∨ s' = .finished) : Balanced m (stances.set i s') := by
  rcases turned with rfl | rfl
  · exact h.set here rfl rfl rfl rfl rfl (fun _ _ same => by cases same) h.front
  · exact h.set here rfl rfl rfl rfl rfl (fun _ _ same => by cases same) h.front

theorem Balanced.holding (h : Balanced m stances) (mem : .writing ∈ stances) :
    m.writer = .holding := by
  by_contra other
  have count := h.writing
  rw [if_neg other, List.countP_eq_zero] at count
  simpa using count _ mem

/-- While one participant writes, no other has a read lock. -/
theorem Balanced.reads_eq_zero (h : Balanced m stances) (excludes : m.Excludes)
    (writes : .writing ∈ stances) (mem : s ∈ stances) : s.reads m.rounds = 0 := by
  have readers := h.readers
  rw [excludes (h.holding writes), eq_comm, List.sum_eq_zero_iff] at readers
  exact readers _ (List.mem_map_of_mem mem)

/-- At most one participant writes. -/
theorem Balanced.writing_unique {j : Nat} (h : Balanced m stances)
    (here : stances[i]? = some .writing) (there : stances[j]? = some .writing) : i = j := by
  by_contra ne
  have others := countP_set_add (a := fun s => decide (s = Stance.writing)) (y := .finished) here
  have count := h.writing
  rw [if_pos (h.holding (List.mem_of_getElem? here))] at count
  have none : (stances.set i .finished).countP (· = Stance.writing) = 0 := by
    simp only [decide_true, reduceCtorEq, decide_false, if_true, Bool.false_eq_true,
      if_false] at others
    omega
  rw [List.countP_eq_zero] at none
  rw [← List.getElem?_set_ne ne] at there
  simpa using none _ (List.mem_of_getElem? there)

/-! ## Stuck participants -/

theorem Balanced.exists_waiting (h : Balanced m stances) (waits : m.writer = .waiting) :
    .waiting ∈ stances := by
  have count := h.waiting
  rw [if_pos waits] at count
  obtain ⟨s, mem, same⟩ := List.countP_pos_iff.mp (by omega : 0 < stances.countP (· = .waiting))
  rwa [← of_decide_eq_true same]

theorem Balanced.exists_writing (h : Balanced m stances) (holds : m.writer = .holding) :
    .writing ∈ stances := by
  have count := h.writing
  rw [if_pos holds] at count
  obtain ⟨s, mem, same⟩ := List.countP_pos_iff.mp (by omega : 0 < stances.countP (· = .writing))
  rwa [← of_decide_eq_true same]

/-- Without a writer nobody is blocked. -/
theorem Balanced.not_blocked (h : Balanced m stances) (absent : m.writer = .absent)
    (mem : s ∈ stances) (unfinished : s ≠ .finished) : ¬ s.Blocked m := by
  intro blocked
  cases s with
  | free | writing => exact blocked
  | finished => exact unfinished rfl
  | asking => simp [Blocked, RWMutex.lock, absent] at blocked
  | queued held ticket =>
    have count := h.queued
    rw [h.front absent, eq_comm, List.countP_eq_zero] at count
    exact count _ mem (by simpa [Blocked, RWMutex.admits, isQueued] using blocked)
  | waiting =>
    have count := h.waiting
    rw [absent, if_neg (by simp), List.countP_eq_zero] at count
    exact count _ mem (by simp)

/-- Where everybody who has not finished is blocked, a writer waits for a reader that waits for a
second read lock. -/
theorem Balanced.nested_of_stuck (h : Balanced m stances)
    (some : ∃ s ∈ stances, s ≠ .finished) (stuck : ∀ s ∈ stances, s.Blocked m) :
    m.writer = .waiting ∧ ∃ held ticket, .queued (held + 1) ticket ∈ stances := by
  obtain ⟨s, mem, unfinished⟩ := some
  cases writer : m.writer with
  | absent => exact absurd (stuck s mem) (h.not_blocked writer mem unfinished)
  | holding => exact (stuck _ (h.exists_writing writer)).elim
  | waiting =>
    refine ⟨rfl, ?_⟩
    have readers : m.readers ≠ 0 := by
      intro none
      have blocked := stuck _ (h.exists_waiting writer)
      simp [Blocked, RWMutex.acquire, writer, none] at blocked
    rw [h.readers] at readers
    obtain ⟨n, mem, positive⟩ : ∃ n ∈ stances.map (reads m.rounds), n ≠ 0 := by
      by_contra none
      push Not at none
      exact readers (List.sum_eq_zero none)
    obtain ⟨reader, present, rfl⟩ := List.mem_map.mp mem
    have blocked := stuck reader present
    cases reader with
    | free => exact blocked.elim
    | queued held ticket =>
      have late : ¬ ticket < m.rounds := by simpa [Blocked, RWMutex.admits] using blocked
      rw [reads, if_neg late] at positive
      obtain ⟨others, rfl⟩ := Nat.exists_eq_succ_of_ne_zero positive
      exact ⟨others, ticket, present⟩
    | asking | waiting | writing | finished => exact absurd rfl positive

end GenChat.Library
