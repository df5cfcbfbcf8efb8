import GenChat.E2ee.Service
import GenChat.Library.Utf16

/-!
# Context ids of one-to-one conversations

The context id goes into the key derivation, so both sides of a conversation have to arrive at the
same one from whatever name they have for it. `extractPeerId` takes `dm` for the marker wherever it
stands between colons, also where it is a user.
-/
namespace GenChat.E2ee
open Library

/-- Ids of users name no pair of users and no channel. -/
structure UserId (id : String) : Prop where
  single : ':' ∉ id.toList
  direct : startsWith id "chan_" = false

/-- The names that `user` may have for the conversation with `peer`, as a conversation id and an
explicit peer id. -/
inductive Names (user peer : String) : String → String → Prop where
  | peer : Names user peer peer ""
  | pair (x y : String) : x = user ∧ y = peer ∨ x = peer ∧ y = user →
      Names user peer (x ++ ":" ++ y) ""
  | marked (x y : String) : x = user ∧ y = peer ∨ x = peer ∧ y = user →
      Names user peer ("dm:" ++ x ++ ":" ++ y) ""
  | explicit (conversationId : String) : startsWith conversationId "chan_" = false → peer ≠ "" →
      Names user peer conversationId peer

/-- Both users arrive at one context id. -/
def Agree (a b : String) : Prop :=
  ∀ c p c' p', Names a b c p → Names b a c' p' →
    getCanonicalContextId c a p = getCanonicalContextId c' b p'

/-- The context ids of the two conversations are those of conversations between two users. -/
structure Canonical (a b c d : String) : Prop where
  agree : Agree a b ∧ Agree c d
  /-- Only the same two users have the same context id. -/
  apart : ∀ x p y q, Names a b x p → Names c d y q →
    getCanonicalContextId x a p = getCanonicalContextId y c q → a = c ∧ b = d ∨ a = d ∧ b = c
  /-- No channel has it. -/
  direct : ∀ x p, Names a b x p → startsWith (getCanonicalContextId x a p) "chan_" = false

/-- No user is taken for the marker or for nobody. -/
def Plain (id : String) : Prop := id ≠ "" ∧ id ≠ "dm"

/-! ## Sorted pairs -/

variable {a b c d : String}

theorem sortedPair_comm (a b : String) : sortedPair a b = sortedPair b a := by
  unfold sortedPair
  rcases lt_trichotomy (codeUnits a) (codeUnits b) with less | same | greater
  · rw [if_pos less, if_neg (lt_asymm less)]
  · have : a = b := utf16_inj.mp same
    rw [this]
  · rw [if_pos greater, if_neg (lt_asymm greater)]

theorem toList_sortedPair (a b : String) : ∃ x y, (x = a ∧ y = b ∨ x = b ∧ y = a) ∧
    (sortedPair a b).toList = x.toList ++ ':' :: y.toList := by
  unfold sortedPair
  split
  · exact ⟨b, a, .inr ⟨rfl, rfl⟩, by simp⟩
  · exact ⟨a, b, .inl ⟨rfl, rfl⟩, by simp⟩

/-- A sorted pair tells its users. -/
theorem sortedPair_inj (ha : ':' ∉ a.toList) (hb : ':' ∉ b.toList)
    (h : sortedPair a b = sortedPair c d) : a = c ∧ b = d ∨ a = d ∧ b = c := by
  obtain ⟨x, y, names, key⟩ := toList_sortedPair a b
  obtain ⟨x', y', names', key'⟩ := toList_sortedPair c d
  have hx : ':' ∉ x.toList := by rcases names with ⟨rfl, -⟩ | ⟨rfl, -⟩ <;> assumption
  have hy : ':' ∉ y.toList := by rcases names with ⟨-, rfl⟩ | ⟨-, rfl⟩ <;> assumption
  rw [h, key'] at key
  obtain ⟨left, -, right⟩ := (List.append_cons_inj_of_notMem hx hy).mp key.symm
  obtain rfl : x = x' := String.toList_inj.mp left
  obtain rfl : y = y' := String.toList_inj.mp right
  rcases names with ⟨rfl, rfl⟩ | ⟨rfl, rfl⟩ <;> rcases names' with ⟨rfl, rfl⟩ | ⟨rfl, rfl⟩ <;> simp

/-- What starts like a channel has no colon before the fifth character is through. -/
theorem startsWith_append_colon {x : String} {rest : List Char} {s : String}
    (hs : s.toList = x.toList ++ ':' :: rest) (direct : startsWith x "chan_" = false) :
    startsWith s "chan_" = false := by
  by_contra channel
  rw [Bool.not_eq_false, startsWith, hs] at channel
  obtain ⟨tail, whole⟩ := List.isPrefixOf_iff_prefix.mp channel
  rcases List.append_eq_append_iff.mp whole with ⟨between, left, -⟩ | ⟨between, left, right⟩
  · have pre : startsWith x "chan_" = true :=
      List.isPrefixOf_iff_prefix.mpr ⟨between, left.symm⟩
    rw [direct] at pre
    cases pre
  · cases between with
    | nil =>
      have pre : startsWith x "chan_" = true :=
        List.isPrefixOf_iff_prefix.mpr ⟨[], by simpa using left⟩
      rw [direct] at pre
      cases pre
    | cons colon between =>
      obtain ⟨rfl, -⟩ := List.cons.inj right
      have mem : ':' ∈ "chan_".toList := by
        rw [left]
        simp
      exact absurd mem (by decide)

theorem startsWith_pair {x : String} (y : String) (direct : startsWith x "chan_" = false) :
    startsWith (x ++ ":" ++ y) "chan_" = false := by
  have cut : (x ++ ":" ++ y).toList = x.toList ++ ':' :: y.toList := by simp
  exact startsWith_append_colon cut direct

theorem startsWith_marked (x y : String) :
    startsWith ("dm:" ++ x ++ ":" ++ y) "chan_" = false := by
  have cut : ("dm:" ++ x ++ ":" ++ y).toList = "dm".toList ++ ':' :: (x ++ ":" ++ y).toList := by
    simp
  exact startsWith_append_colon cut (by decide)

theorem startsWith_sortedPair (ha : startsWith a "chan_" = false)
    (hb : startsWith b "chan_" = false) : startsWith (sortedPair a b) "chan_" = false := by
  unfold sortedPair
  split
  · exact startsWith_pair a hb
  · exact startsWith_pair b ha

/-! ## The peer in a name -/

theorem dropDm_single {s : String} (single : ':' ∉ s.toList) : dropDm s = s := by
  rw [dropDm, if_neg]
  intro marked
  obtain ⟨rest, whole⟩ := List.isPrefixOf_iff_prefix.mp marked
  apply single
  rw [← whole]
  simp

theorem dropDm_pair {x y : String} (hx : ':' ∉ x.toList) (hy : ':' ∉ y.toList)
    (plain : x ≠ "dm") : dropDm (x ++ ":" ++ y) = x ++ ":" ++ y := by
  rw [dropDm, if_neg]
  intro marked
  obtain ⟨rest, whole⟩ := List.isPrefixOf_iff_prefix.mp marked
  have split : x.toList ++ ':' :: y.toList = "dm".toList ++ ':' :: rest := by
    simpa using whole.symm
  obtain ⟨same, -⟩ := (List.append_cons_inj_of_notMem hx hy).mp split
  exact plain (String.toList_inj.mp same)

theorem dropDm_marked (x y : String) : dropDm ("dm:" ++ x ++ ":" ++ y) = x ++ ":" ++ y := by
  have marked : startsWith ("dm:" ++ x ++ ":" ++ y) "dm:" = true := by
    apply List.isPrefixOf_iff_prefix.mpr
    exact ⟨x.toList ++ ':' :: y.toList, by simp⟩
  rw [dropDm, if_pos marked]
  apply String.toList_inj.mp
  simp

theorem extractPeerId_single {s : String} (single : ':' ∉ s.toList) (u : String) :
    extractPeerId s u = s := by
  rw [extractPeerId, dropDm_single single, if_neg single]

/-- The users that `extractPeerId` finds in a pair. -/
def partsOf (x y : String) : List String := [x, y].filter fun p => p ≠ "" ∧ p ≠ "dm"

theorem extractPeerId_pair {s x y : String} (clean : dropDm s = x ++ ":" ++ y)
    (hx : ':' ∉ x.toList) (hy : ':' ∉ y.toList) (u : String) :
    extractPeerId s u = match (partsOf x y).find? (· ≠ u) with
      | some p => p
      | none => (partsOf x y).head?.getD (x ++ ":" ++ y) := by
  have parts : ((x ++ ":" ++ y).toList.splitOn ':').map String.ofList = [x, y] := by
    have cut : (x ++ ":" ++ y).toList = x.toList ++ ':' :: y.toList := by simp
    rw [cut, List.splitOn_append_cons_self, List.splitOn_eq_singleton hx,
      List.splitOn_eq_singleton hy]
    simp
  rw [extractPeerId, clean, if_pos (by simp), parts]
  rfl

/-- Of two users that are not mistaken, the other one is found. -/
theorem extractPeerId_other {s x y user peer : String} (clean : dropDm s = x ++ ":" ++ y)
    (hu : UserId user) (hp : UserId peer) (different : user ≠ peer) (plainUser : Plain user)
    (plainPeer : Plain peer) (names : x = user ∧ y = peer ∨ x = peer ∧ y = user) :
    extractPeerId s user = peer := by
  obtain ⟨some, unmarked⟩ := plainUser
  obtain ⟨some', unmarked'⟩ := plainPeer
  rcases names with ⟨rfl, rfl⟩ | ⟨rfl, rfl⟩
  · rw [extractPeerId_pair clean hu.single hp.single]
    simp [partsOf, some, some', unmarked, unmarked', Ne.symm different]
  · rw [extractPeerId_pair clean hp.single hu.single]
    simp [partsOf, some, some', unmarked, unmarked', Ne.symm different]

/-! ## Context ids -/

theorem getCanonicalContextId_peer {c p u peer : String} (direct : startsWith c "chan_" = false)
    (found : orElse p (extractPeerId c u) = peer) (some : peer ≠ "") (user : u ≠ "")
    (different : peer ≠ u) : getCanonicalContextId c u p = sortedPair u peer := by
  rw [getCanonicalContextId, if_neg (by simp [direct])]
  simp only [found]
  rw [if_pos ⟨some, user, different⟩]

theorem getCanonicalContextId_raw {c p u : String}
    (absent : u = "" ∨ orElse p (extractPeerId c u) = u) : getCanonicalContextId c u p = c := by
  unfold getCanonicalContextId
  split
  · rfl
  · dsimp only
    rw [if_neg]
    rintro ⟨-, user, different⟩
    rcases absent with rfl | same
    · exact user rfl
    · exact different same

/-- Every name of a user that is not mistaken leads to the sorted pair. -/
theorem Names.canonical {c p : String} (h : Names a b c p) (ha : UserId a) (hb : UserId b)
    (different : a ≠ b) (plainA : Plain a) (plainB : Plain b) :
    getCanonicalContextId c a p = sortedPair a b := by
  have whole {c p : String} (direct : startsWith c "chan_" = false)
      (found : orElse p (extractPeerId c a) = b) : getCanonicalContextId c a p = sortedPair a b :=
    getCanonicalContextId_peer direct found plainB.1 plainA.1 (Ne.symm different)
  have absent (s : String) : orElse "" s = s := if_pos rfl
  cases h with
  | peer => exact whole hb.direct ((absent _).trans (extractPeerId_single hb.single a))
  | pair x y names =>
    have hx : UserId x ∧ Plain x := by rcases names with ⟨rfl, -⟩ | ⟨rfl, -⟩ <;> exact ⟨‹_›, ‹_›⟩
    have hy : UserId y := by rcases names with ⟨-, rfl⟩ | ⟨-, rfl⟩ <;> assumption
    have found := extractPeerId_other (dropDm_pair hx.1.single hy.single hx.2.2) ha hb different
      plainA plainB names
    exact whole (startsWith_pair y hx.1.direct) ((absent _).trans found)
  | marked x y names =>
    have found := extractPeerId_other (dropDm_marked x y) ha hb different plainA plainB names
    exact whole (startsWith_marked x y) ((absent _).trans found)
  | explicit conversationId direct given => exact whole direct (if_neg given)

theorem Agree.of_plain (ha : UserId a) (hb : UserId b) (different : a ≠ b) (plainA : Plain a)
    (plainB : Plain b) : Agree a b := by
  intro c p c' p' left right
  rw [left.canonical ha hb different plainA plainB,
    right.canonical hb ha (Ne.symm different) plainB plainA, sortedPair_comm]

/-! ## Mistaken users -/

theorem Agree.symm (h : Agree a b) : Agree b a :=
  fun c p c' p' left right => (h c' p' c p right left).symm

/-- A user who keeps two names as they are cannot agree with the other one on both. -/
theorem not_agree_of_raw {c p c' p' : String} (one : Names b a c p) (two : Names b a c' p')
    (raw : getCanonicalContextId c b p = c) (raw' : getCanonicalContextId c' b p' = c')
    (ne : c ≠ c') : ¬ Agree a b := by
  intro agree
  have left := agree _ _ _ _ .peer one
  have right := agree _ _ _ _ .peer two
  rw [raw] at left
  rw [raw'] at right
  exact ne (left.symm.trans right)

theorem not_agree_nobody (a : String) : ¬ Agree a "" := by
  refine not_agree_of_raw .peer (.pair a "" (.inr ⟨rfl, rfl⟩))
    (getCanonicalContextId_raw (.inl rfl))
    (getCanonicalContextId_raw (.inl rfl)) ?_
  intro same
  have length := congrArg (fun s => s.toList.length) same
  simp at length

theorem not_agree_marker (hb : UserId b) (some : b ≠ "") (unmarked : b ≠ "dm") :
    ¬ Agree "dm" b := by
  have absent (s : String) : orElse "" s = s := if_pos rfl
  have first : extractPeerId ("dm" ++ ":" ++ b) b = b := by
    have clean : dropDm ("dm" ++ ":" ++ b) = b := by
      have marked : startsWith ("dm" ++ ":" ++ b) "dm:" = true :=
        List.isPrefixOf_iff_prefix.mpr ⟨b.toList, by simp⟩
      rw [dropDm, if_pos marked]
      apply String.toList_inj.mp
      simp
    rw [extractPeerId, clean, if_neg hb.single]
  have second : extractPeerId (b ++ ":" ++ "dm") b = b := by
    rw [extractPeerId_pair (dropDm_pair hb.single (by decide) unmarked) hb.single (by decide)]
    simp [partsOf, some, unmarked]
  refine not_agree_of_raw (.pair "dm" b (.inr ⟨rfl, rfl⟩)) (.pair b "dm" (.inl ⟨rfl, rfl⟩))
    (getCanonicalContextId_raw (.inr ((absent _).trans first)))
    (getCanonicalContextId_raw (.inr ((absent _).trans second))) ?_
  intro same
  have split : "dm".toList ++ ':' :: b.toList = b.toList ++ ':' :: "dm".toList := by
    simpa using congrArg String.toList same
  obtain ⟨left, -⟩ := (List.append_cons_inj_of_notMem (by decide) hb.single).mp split
  exact unmarked (String.toList_inj.mp left.symm)

theorem Agree.plain (ha : UserId a) (hb : UserId b) (different : a ≠ b) (h : Agree a b) :
    Plain a ∧ Plain b := by
  have someA : a ≠ "" := by
    rintro rfl
    exact not_agree_nobody b h.symm
  have someB : b ≠ "" := by
    rintro rfl
    exact not_agree_nobody a h
  refine ⟨⟨someA, ?_⟩, someB, ?_⟩
  · rintro rfl
    exact not_agree_marker hb someB (Ne.symm different) h
  · rintro rfl
    exact not_agree_marker ha someA different h.symm

/-- The context ids are those of conversations between two users exactly if no user has the marker
or nothing for an id. -/
theorem canonical_iff (ha : UserId a) (hb : UserId b) (hc : UserId c) (hd : UserId d)
    (ab : a ≠ b) (cd : c ≠ d) :
    Canonical a b c d ↔ Plain a ∧ Plain b ∧ Plain c ∧ Plain d := by
  constructor
  · intro h
    obtain ⟨plainA, plainB⟩ := h.agree.1.plain ha hb ab
    exact ⟨plainA, plainB, h.agree.2.plain hc hd cd⟩
  · rintro ⟨plainA, plainB, plainC, plainD⟩
    refine ⟨⟨.of_plain ha hb ab plainA plainB, .of_plain hc hd cd plainC plainD⟩, ?_, ?_⟩
    · intro x p y q left right same
      rw [left.canonical ha hb ab plainA plainB, right.canonical hc hd cd plainC plainD] at same
      exact sortedPair_inj ha.single hb.single same
    · intro x p left
      rw [left.canonical ha hb ab plainA plainB]
      exact startsWith_sortedPair ha.direct hb.direct

theorem canonical_iff_sample : Canonical "alice" "bob" "alice" "carol" ↔
    Plain "alice" ∧ Plain "bob" ∧ Plain "alice" ∧ Plain "carol" :=
  canonical_iff ⟨by decide, by decide⟩ ⟨by decide, by decide⟩ ⟨by decide, by decide⟩
    ⟨by decide, by decide⟩ (by decide) (by decide)

/-- The user `dm` and `alice` derive different keys for their conversation. -/
theorem marker_taken_for_nobody :
    Names "dm" "alice" "alice" "" ∧ Names "alice" "dm" ("dm" ++ ":" ++ "alice") "" ∧
      getCanonicalContextId "alice" "dm" "" = "alice:dm" ∧
      getCanonicalContextId "dm:alice" "alice" "" = "dm:alice" ∧
      ¬ Canonical "dm" "alice" "dm" "alice" := by
  refine ⟨.peer, .pair _ _ (.inr ⟨rfl, rfl⟩), by decide, by decide, fun h => ?_⟩
  exact not_agree_marker ⟨by decide, by decide⟩ (by decide) (by decide) h.agree.1

end GenChat.E2ee
