import GenChat.Library.BrowserText
import Mathlib.Data.Sym.Sym2

/-!
# Safety numbers

Two users compare a number that each device computes from both identity keys. The device puts the
two parties in the order of `localeCompare`, joins their four texts with colons and hashes them. So
the numbers are the same where the devices order the parties alike, and they stand for these users
and keys where no text contains a colon itself.
-/
namespace GenChat.Client
open Library

/-- A string of JavaScript, well formed or not. -/
abbrev Units := List UInt16

def units (text : String) : Units := (utf16 text).map UInt16.ofNat

def colon : UInt16 := 58

/-! ## Encoding -/

def isHigh (u : UInt16) : Bool := 0xD800 ≤ u && u < 0xDC00

def isLow (u : UInt16) : Bool := 0xDC00 ≤ u && u < 0xE000

/-- A unit by itself; a surrogate stands for the replacement character. -/
def singleUnit (u : UInt16) : Char :=
  if isHigh u || isLow u then Char.ofNat 0xFFFD else Char.ofNat u.toNat

def scalarValues : Units → List Char
  | [] => []
  | [u] => [singleUnit u]
  | u :: v :: rest =>
    if isHigh u && isLow v then
      Char.ofNat (0x10000 + (u.toNat - 0xD800) * 0x400 + (v.toNat - 0xDC00)) :: scalarValues rest
    else singleUnit u :: scalarValues (v :: rest)

/-- `TextEncoder.encode`. -/
def encodeUnits (text : Units) : List UInt8 :=
  (scalarValues text).flatMap String.utf8EncodeChar

/-! ## Computation -/

/-- An identity key as the caller has it. -/
inductive IdentityKey where
  | bytes (key : List UInt8)
  | text (key : Units)
  deriving DecidableEq, Repr

def bytesToHex (bytes : List UInt8) : Units := units (Hex.encode bytes)

def IdentityKey.toText : IdentityKey → Units
  | bytes key => bytesToHex key
  | text key => key

structure Party where
  userId : Units
  key : Units
  deriving DecidableEq, Repr

def Party.text (p : Party) : Units := p.userId ++ colon :: p.key

/-- The two parties of a call with four arguments, or with two user ids only. -/
def parties (userAOrIdA : Units) (keyAOrIdB : IdentityKey) :
    Option Units → Option IdentityKey → Party × Party
  | some userIdB, some identityKeyB =>
    (⟨userAOrIdA, keyAOrIdB.toText⟩, ⟨userIdB, identityKeyB.toText⟩)
  | _, _ => (⟨userAOrIdA, []⟩,
    ⟨match keyAOrIdB with | .text userIdB => userIdB | .bytes _ => [], []⟩)

def safetyPrefix : Units := units "genchat-safety-v1:"

/-- The payload of two parties in this order. -/
def joined (p₁ p₂ : Party) : Units :=
  safetyPrefix ++ [colon].intercalate [p₁.userId, p₁.key, p₂.userId, p₂.key]

/-- The device orders the parties by its `localeCompare`. -/
def payload (localeCompare : Units → Units → Int) (a b : Party) : Units :=
  if localeCompare a.text b.text ≤ 0 then joined a b else joined b a

/-- Five decimal digits of four bytes. -/
def block (hash : List UInt8) (i : Nat) : String :=
  let byte (k : Nat) : Nat := (hash.getD (i * 4 + k) 0).toNat
  let val := (byte 0 * 2 ^ 24 + byte 1 * 2 ^ 16 + byte 2 * 2 ^ 8 + byte 3) % 100000
  String.ofList ((toString val).toList.leftpad 5 '0')

def blocks (hash : List UInt8) : String :=
  String.intercalate " " ((List.range 12).map (block hash))

/-- `digest` is SHA-512. -/
def safetyNumber (digest : List UInt8 → List UInt8) (payload : Units) : String :=
  blocks (digest^[5] (digest (encodeUnits payload)))

def computeSafetyNumber (localeCompare : Units → Units → Int) (digest : List UInt8 → List UInt8)
    (userAOrIdA : Units) (keyAOrIdB : IdentityKey) (userIdB : Option Units)
    (identityKeyB : Option IdentityKey) : String :=
  let (a, b) := parties userAOrIdA keyAOrIdB userIdB identityKeyB
  safetyNumber digest (payload localeCompare a b)

/-! ## Symmetry and binding -/

/-- Two devices with their own collations show the same number, whatever the digest is; and no
device hashes the same payload for another pair of parties. -/
structure SymmetricAndBinding (compare₁ compare₂ : Units → Units → Int) (userA : Units)
    (keyA : IdentityKey) (userB : Units) (keyB : IdentityKey) : Prop where
  symmetric (digest : List UInt8 → List UInt8) :
    computeSafetyNumber compare₁ digest userA keyA (some userB) (some keyB) =
      computeSafetyNumber compare₂ digest userB keyB (some userA) (some keyA)
  binding (localeCompare : Units → Units → Int) (c d : Party) :
    s((⟨userA, keyA.toText⟩ : Party), ⟨userB, keyB.toText⟩) ≠ s(c, d) →
      payload compare₁ ⟨userA, keyA.toText⟩ ⟨userB, keyB.toText⟩ ≠ payload localeCompare c d

/-- The devices put the parties in the same order. -/
def SameOrder (compare₁ compare₂ : Units → Units → Int) (a b : Party) : Prop :=
  compare₁ a.text b.text ≤ 0 ↔ ¬ compare₂ b.text a.text ≤ 0

/-- No colon in the user id nor in the key. -/
def Party.Plain (p : Party) : Prop := colon ∉ p.userId ∧ colon ∉ p.key

/-! ## The payload -/

theorem joined_eq (p q : Party) :
    joined p q = safetyPrefix ++ (p.text ++ colon :: q.text) := by
  simp [joined, Party.text, List.intercalate, List.intersperse]

theorem count_joined (p q : Party) : (joined p q).count colon =
    safetyPrefix.count colon + 3 + (p.userId.count colon + p.key.count colon +
      (q.userId.count colon + q.key.count colon)) := by
  rw [joined_eq]
  simp only [Party.text, List.count_append, List.count_cons_self]
  omega

theorem splitOn_fields {p q : Party} (hp : p.Plain) (hq : q.Plain) :
    ([colon].intercalate [p.userId, p.key, q.userId, q.key]).splitOn colon =
      [p.userId, p.key, q.userId, q.key] := by
  refine List.splitOn_intercalate colon ?_ (List.cons_ne_nil _ _)
  intro field mem
  simp only [List.mem_cons, List.not_mem_nil, or_false] at mem
  rcases mem with rfl | rfl | rfl | rfl
  · exact hp.1
  · exact hp.2
  · exact hq.1
  · exact hq.2

/-- The fields of a payload without further colons can be read back. -/
theorem joined_inj {a b c d : Party} (ha : a.Plain) (hb : b.Plain)
    (same : joined a b = joined c d) : a = c ∧ b = d := by
  have counts := congrArg (List.count colon) same
  rw [count_joined, count_joined, List.count_eq_zero.mpr ha.1, List.count_eq_zero.mpr ha.2,
    List.count_eq_zero.mpr hb.1, List.count_eq_zero.mpr hb.2] at counts
  have hc : c.Plain := ⟨List.count_eq_zero.mp (by omega), List.count_eq_zero.mp (by omega)⟩
  have hd : d.Plain := ⟨List.count_eq_zero.mp (by omega), List.count_eq_zero.mp (by omega)⟩
  have split := congrArg (List.splitOn colon) (List.append_cancel_left same)
  rw [splitOn_fields ha hb, splitOn_fields hc hd] at split
  simp only [List.cons.injEq, and_true] at split
  obtain ⟨userA, keyA, userB, keyB⟩ := split
  exact ⟨Party.mk.injEq .. ▸ ⟨userA, keyA⟩, Party.mk.injEq .. ▸ ⟨userB, keyB⟩⟩

theorem payload_cases (localeCompare : Units → Units → Int) (a b : Party) :
    payload localeCompare a b = joined a b ∨ payload localeCompare a b = joined b a := by
  unfold payload
  split
  · exact .inl rfl
  · exact .inr rfl

/-- A colon in a party can be taken for the one between its user id and its key. -/
theorem exists_same_text {p : Party} (h : ¬ p.Plain) : ∃ p' ≠ p, p'.text = p.text := by
  obtain ⟨userId, key⟩ := p
  rcases not_and_or.mp h with inUser | inKey
  · obtain ⟨x, y, rfl⟩ := List.mem_iff_append.mp (not_not.mp inUser)
    refine ⟨⟨x, y ++ colon :: key⟩, fun same => ?_, by simp [Party.text]⟩
    have lengths := congrArg (fun p : Party => p.userId.length) same
    simp at lengths
  · obtain ⟨x, y, rfl⟩ := List.mem_iff_append.mp (not_not.mp inKey)
    refine ⟨⟨userId ++ colon :: x, y⟩, fun same => ?_, by simp [Party.text]⟩
    have lengths := congrArg (fun p : Party => p.userId.length) same
    simp at lengths

/-- The payload depends on the texts of the parties only. -/
theorem payload_congr (localeCompare : Units → Units → Int) {a a' b b' : Party}
    (ha : a'.text = a.text) (hb : b'.text = b.text) :
    payload localeCompare a' b' = payload localeCompare a b := by
  simp only [payload, joined_eq, ha, hb]

theorem payload_binding_iff (compare₁ : Units → Units → Int) (a b : Party) :
    (∀ (localeCompare : Units → Units → Int) (c d : Party), s(a, b) ≠ s(c, d) →
      payload compare₁ a b ≠ payload localeCompare c d) ↔ a.Plain ∧ b.Plain := by
  constructor
  · intro binding
    by_contra colons
    rcases not_and_or.mp colons with inA | inB
    · obtain ⟨a', ne, same⟩ := exists_same_text inA
      refine binding compare₁ a' b (fun eq => ?_) (payload_congr compare₁ same rfl).symm
      rcases Sym2.eq_iff.mp eq with ⟨eq, -⟩ | ⟨eq, eq'⟩
      · exact ne eq.symm
      · exact ne (eq'.symm.trans eq.symm)
    · obtain ⟨b', ne, same⟩ := exists_same_text inB
      refine binding compare₁ a b' (fun eq => ?_) (payload_congr compare₁ rfl same).symm
      rcases Sym2.eq_iff.mp eq with ⟨-, eq⟩ | ⟨eq, eq'⟩
      · exact ne eq.symm
      · exact ne (eq.symm.trans eq'.symm)
  · rintro ⟨ha, hb⟩ localeCompare c d ne same
    refine ne (Sym2.eq_iff.mpr ?_)
    rcases payload_cases compare₁ a b with one | one <;>
      rcases payload_cases localeCompare c d with two | two <;> rw [one, two] at same
    · exact .inl (joined_inj ha hb same)
    · exact .inr (joined_inj ha hb same)
    · exact .inr (joined_inj hb ha same).symm
    · exact .inl (joined_inj hb ha same).symm

/-! ## The number -/

/-- A digest that tells one text from all others. -/
def telling (bytes : List UInt8) (text : List UInt8) : List UInt8 :=
  if text = bytes ∨ text = [0, 0, 0, 1] then [0, 0, 0, 1] else []

theorem encode_joined (p q : Party) : ∃ rest, encodeUnits (joined p q) = 103 :: rest := by
  have start : ∃ later, joined p q = 103 :: 101 :: later :=
    ⟨_, rfl⟩
  obtain ⟨later, start⟩ := start
  rw [start]
  exact ⟨_, rfl⟩

theorem safetyNumber_telling {p q r s : Party}
    (same : safetyNumber (telling (encodeUnits (joined p q))) (joined p q) =
      safetyNumber (telling (encodeUnits (joined p q))) (joined r s)) :
    encodeUnits (joined p q) = encodeUnits (joined r s) := by
  by_contra ne
  obtain ⟨first, hfirst⟩ := encode_joined p q
  obtain ⟨second, hsecond⟩ := encode_joined r s
  rw [hfirst, hsecond] at ne
  have one : telling (103 :: first) (103 :: first) = [0, 0, 0, 1] := if_pos (.inl rfl)
  have again : telling (103 :: first) [0, 0, 0, 1] = [0, 0, 0, 1] := if_pos (.inr rfl)
  have other : telling (103 :: first) (103 :: second) = [] := by
    refine if_neg (not_or.mpr ⟨Ne.symm ne, fun eq => ?_⟩)
    exact absurd (List.cons.inj eq).1 (by decide)
  have none : telling (103 :: first) [] = [] := if_neg (by simp)
  simp only [safetyNumber, hfirst, hsecond, one, other, Function.iterate_succ,
    Function.comp_apply, again, none, Function.iterate_zero, id] at same
  exact absurd same (by decide)

theorem computeSafetyNumber_four (localeCompare : Units → Units → Int)
    (digest : List UInt8 → List UInt8) (userA userB : Units) (keyA keyB : IdentityKey) :
    computeSafetyNumber localeCompare digest userA keyA (some userB) (some keyB) =
      safetyNumber digest
        (payload localeCompare ⟨userA, keyA.toText⟩ ⟨userB, keyB.toText⟩) := rfl

theorem symmetric_iff (compare₁ compare₂ : Units → Units → Int) (a b : Party) :
    (∀ digest, safetyNumber digest (payload compare₁ a b) =
      safetyNumber digest (payload compare₂ b a)) ↔
      SameOrder compare₁ compare₂ a b ∨
        encodeUnits (joined a b) = encodeUnits (joined b a) := by
  unfold SameOrder payload
  by_cases one : compare₁ a.text b.text ≤ 0 <;> by_cases two : compare₂ b.text a.text ≤ 0
  · simp only [one, two, if_true, not_true, iff_false, false_or]
    constructor
    · exact fun same => safetyNumber_telling (same _)
    · exact fun same digest => by rw [safetyNumber, safetyNumber, same]
  · simp [one, two]
  · simp [one, two]
  · simp only [one, two, if_false, not_false_eq_true, iff_true, false_or]
    constructor
    · exact fun same => (safetyNumber_telling (same _)).symm
    · exact fun same digest => by rw [safetyNumber, safetyNumber, same]

/-- The devices have to order the parties alike, and no text may contain a colon. -/
theorem symmetric_and_binding_iff (compare₁ compare₂ : Units → Units → Int) (userA : Units)
    (keyA : IdentityKey) (userB : Units) (keyB : IdentityKey) :
    SymmetricAndBinding compare₁ compare₂ userA keyA userB keyB ↔
      (SameOrder compare₁ compare₂ ⟨userA, keyA.toText⟩ ⟨userB, keyB.toText⟩ ∨
        encodeUnits (joined ⟨userA, keyA.toText⟩ ⟨userB, keyB.toText⟩) =
          encodeUnits (joined ⟨userB, keyB.toText⟩ ⟨userA, keyA.toText⟩)) ∧
      (⟨userA, keyA.toText⟩ : Party).Plain ∧ (⟨userB, keyB.toText⟩ : Party).Plain := by
  rw [← symmetric_iff, ← payload_binding_iff compare₁]
  exact ⟨fun h => ⟨h.symmetric, h.binding⟩, fun h => ⟨h.1, h.2⟩⟩

/-- A collation that agrees with the real ones on lower-case letters and digits. -/
def byUnits (s t : Units) : Int := if s < t then -1 else if s = t then 0 else 1

/-- The users `u:1` and `u` with the keys `k` and `1:k` hash the same payload with `v`. -/
theorem colon_in_user_id :
    payload byUnits ⟨units "u:1", units "k"⟩ ⟨units "v", units "w"⟩ =
      payload byUnits ⟨units "u", units "1:k"⟩ ⟨units "v", units "w"⟩ ∧
    ¬ SymmetricAndBinding byUnits byUnits (units "u:1") (.text (units "k")) (units "v")
      (.text (units "w")) := by
  have same : payload byUnits ⟨units "u:1", units "k"⟩ ⟨units "v", units "w"⟩ =
      payload byUnits ⟨units "u", units "1:k"⟩ ⟨units "v", units "w"⟩ := by rfl
  refine ⟨same, fun h => h.binding byUnits ⟨units "u", units "1:k"⟩ ⟨units "v", units "w"⟩ ?_ same⟩
  decide

end GenChat.Client
