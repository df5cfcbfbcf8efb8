import Mathlib.Data.List.AList
import Mathlib.Tactic

/-!
# The trust store

The safety numbers that the user has verified are kept in `localStorage`, one record for each peer.
`getTrustRecord` compares the stored number with the current one, `getVerifiedPeerIds` does not. So
the two agree on a peer as long as the stored number is current.
-/
namespace GenChat.Client

/-- A stored record, and also what `getTrustRecord` reports. -/
structure TrustRecord where
  peerId : String
  safetyNumber : String
  isVerified : Bool
  verifiedAt : Option Nat
  hasChanged : Bool
  previousSafetyNumber : Option String
  deriving DecidableEq, Repr

/-- The own properties of the stored object, in any order. -/
abbrev TrustStore := AList fun _ : String => TrustRecord

namespace TrustStore
variable (store : TrustStore)

/-- An inherited property of the object (such as `constructor`) has no `isVerified`, and its report
is the one of a peer without a record. -/
def getTrustRecord (peerId currentSafetyNumber : String) : TrustRecord :=
  match store.lookup peerId with
  | none => ⟨peerId, currentSafetyNumber, false, none, false, none⟩
  | some record =>
    let hasChanged := record.isVerified && record.safetyNumber ≠ currentSafetyNumber
    { peerId
      safetyNumber := currentSafetyNumber
      isVerified := if hasChanged then false else record.isVerified
      verifiedAt := record.verifiedAt
      hasChanged
      previousSafetyNumber := if hasChanged then some record.safetyNumber else none }

def getVerifiedPeerIds : List String :=
  (store.entries.filter fun entry => entry.2.isVerified).map (·.1)

/-- `store[peerId] = record`. The property `__proto__` has a setter, which replaces the prototype of
the object and is lost when the object is stored. -/
def assign (peerId : String) (record : TrustRecord) : TrustStore :=
  if peerId = "__proto__" then store else store.insert peerId record

/-- `accepted` says whether `localStorage` takes the write. -/
def setVerified (peerId safetyNumber : String) (now : Nat) (accepted : Bool) : TrustStore :=
  if accepted then store.assign peerId ⟨peerId, safetyNumber, true, some now, false, none⟩
  else store

def revokeVerification (peerId : String) (accepted : Bool) : TrustStore :=
  match store.lookup peerId with
  | some record =>
    if accepted then
      store.insert peerId
        { record with isVerified := false, hasChanged := false, verifiedAt := none }
    else store
  | none => store

end TrustStore

/-! ## Histories -/

inductive TrustCall where
  | setVerified (peerId safetyNumber : String) (now : Nat) (accepted : Bool)
  | revokeVerification (peerId : String) (accepted : Bool)
  deriving DecidableEq, Repr

namespace TrustCall

def peerId : TrustCall → String
  | setVerified peerId .. | revokeVerification peerId _ => peerId

/-- The safety number that the call verifies. -/
def verifies : TrustCall → Option String
  | setVerified _ safetyNumber .. => some safetyNumber
  | revokeVerification .. => none

/-- The write is accepted, and does not go to the prototype. -/
def stored : TrustCall → Bool
  | setVerified peerId _ _ accepted => accepted && peerId ≠ "__proto__"
  | revokeVerification _ accepted => accepted

def run (store : TrustStore) : TrustCall → TrustStore
  | setVerified peerId safetyNumber now accepted =>
    store.setVerified peerId safetyNumber now accepted
  | revokeVerification peerId accepted => store.revokeVerification peerId accepted

end TrustCall

/-- The store after some calls. -/
def TrustStore.after (calls : List TrustCall) : TrustStore := calls.foldl TrustCall.run ∅

/-- The number that the last of some calls verifies for a peer. -/
def lastVerified (calls : List TrustCall) (peerId : String) : Option String :=
  ((calls.filter (·.peerId = peerId)).getLast?).bind TrustCall.verifies

/-- The views agree on a peer with this current safety number. -/
structure ViewsAgree (calls : List TrustCall) (peerId current : String) : Prop where
  listed : peerId ∈ (TrustStore.after calls).getVerifiedPeerIds ↔
    ((TrustStore.after calls).getTrustRecord peerId current).isVerified = true
  verified : ((TrustStore.after calls).getTrustRecord peerId current).isVerified = true ↔
    lastVerified calls peerId = some current
  changed : ((TrustStore.after calls).getTrustRecord peerId current).hasChanged = true ↔
    ∃ number ≠ current, lastVerified calls peerId = some number

/-! ## What the store knows -/

namespace TrustStore
variable (store : TrustStore)

/-- The number that is stored as verified. -/
def verifiedNumber (peerId : String) : Option String :=
  (store.lookup peerId).bind fun record =>
    if record.isVerified then some record.safetyNumber else none

theorem mem_getVerifiedPeerIds (peerId : String) :
    peerId ∈ store.getVerifiedPeerIds ↔ (store.verifiedNumber peerId).isSome := by
  have entry (record : TrustRecord) :
      ⟨peerId, record⟩ ∈ store.entries ↔ store.lookup peerId = some record :=
    AList.mem_lookup_iff.symm
  constructor
  · intro mem
    obtain ⟨⟨id, record⟩, listed, rfl⟩ := List.mem_map.mp mem
    obtain ⟨own, isVerified⟩ := List.mem_filter.mp listed
    have verified : record.isVerified = true := isVerified
    simp [verifiedNumber, (entry record).mp own, verified]
  · intro some
    cases found : store.lookup peerId with
    | none => simp [verifiedNumber, found] at some
    | some record =>
      have verified : record.isVerified = true := by
        by_contra unverified
        simp [verifiedNumber, found, unverified] at some
      exact List.mem_map.mpr ⟨⟨peerId, record⟩,
        List.mem_filter.mpr ⟨(entry record).mpr found, verified⟩, rfl⟩

theorem getTrustRecord_isVerified (peerId current : String) :
    (store.getTrustRecord peerId current).isVerified = true ↔
      store.verifiedNumber peerId = some current := by
  cases found : store.lookup peerId with
  | none => simp [getTrustRecord, verifiedNumber, found]
  | some record =>
    cases verified : record.isVerified <;>
      simp [getTrustRecord, verifiedNumber, found, verified]

theorem getTrustRecord_hasChanged (peerId current : String) :
    (store.getTrustRecord peerId current).hasChanged = true ↔
      ∃ number ≠ current, store.verifiedNumber peerId = some number := by
  cases found : store.lookup peerId with
  | none => simp [getTrustRecord, verifiedNumber, found]
  | some record =>
    cases verified : record.isVerified <;>
      simp [getTrustRecord, verifiedNumber, found, verified]

/-- The number that a record shows as verified. -/
theorem verifiedNumber_insert (peerId other : String) (record : TrustRecord) :
    verifiedNumber (store.insert peerId record) other =
      if peerId = other then (if record.isVerified then some record.safetyNumber else none)
      else store.verifiedNumber other := by
  by_cases same : peerId = other
  · subst same
    simp [verifiedNumber]
  · simp [verifiedNumber, same, AList.lookup_insert_ne (Ne.symm same)]

/-- One call changes what is stored for its peer, if it is stored at all. -/
theorem verifiedNumber_run (call : TrustCall) (peerId : String) :
    (call.run store).verifiedNumber peerId =
      if call.peerId = peerId ∧ call.stored = true then call.verifies
      else store.verifiedNumber peerId := by
  cases call with
  | setVerified id safetyNumber now accepted =>
    by_cases proto : id = "__proto__"
    · cases accepted <;> simp [TrustCall.run, TrustCall.stored, setVerified, assign, proto]
    · cases accepted with
      | false => simp [TrustCall.run, TrustCall.stored, setVerified]
      | true => simp [TrustCall.run, TrustCall.stored, TrustCall.peerId, TrustCall.verifies,
          setVerified, assign, proto, verifiedNumber_insert]
  | revokeVerification id accepted =>
    cases found : store.lookup id with
    | none =>
      by_cases same : id = peerId
      · subst same
        simp [TrustCall.run, revokeVerification, TrustCall.verifies, verifiedNumber, found]
      · simp [TrustCall.run, revokeVerification, TrustCall.peerId, found, same]
    | some record =>
      cases accepted with
      | false => simp [TrustCall.run, TrustCall.stored, revokeVerification, found]
      | true => simp [TrustCall.run, TrustCall.stored, TrustCall.peerId, TrustCall.verifies,
          revokeVerification, found, verifiedNumber_insert]

end TrustStore

theorem lastVerified_concat (calls : List TrustCall) (call : TrustCall) (peerId : String) :
    lastVerified (calls ++ [call]) peerId =
      if call.peerId = peerId then call.verifies else lastVerified calls peerId := by
  by_cases same : call.peerId = peerId
  · simp [lastVerified, List.filter_append, same]
  · simp [lastVerified, List.filter_append, same]

/-- The store knows the last of the calls that were stored. -/
theorem verifiedNumber_after (calls : List TrustCall) (peerId : String) :
    (TrustStore.after calls).verifiedNumber peerId =
      lastVerified (calls.filter (·.stored)) peerId := by
  induction calls using List.reverseRecOn with
  | nil => rfl
  | append_singleton calls call ih =>
    have run : TrustStore.after (calls ++ [call]) = call.run (TrustStore.after calls) := by
      simp [TrustStore.after]
    rw [run, TrustStore.verifiedNumber_run, ih, List.filter_append]
    by_cases stored : call.stored = true
    · rw [List.filter_cons_of_pos stored, List.filter_nil, lastVerified_concat]
      simp [stored]
    · rw [List.filter_cons_of_neg stored, List.filter_nil, List.append_nil]
      simp [stored]

/-- The views agree where the last call for the peer and the last one that was stored verify the
same number, if any, and that number is current. -/
theorem views_agree_iff (calls : List TrustCall) (peerId current : String) :
    ViewsAgree calls peerId current ↔
      lastVerified (calls.filter (·.stored)) peerId = lastVerified calls peerId ∧
        ∀ number ∈ lastVerified calls peerId, number = current := by
  have known := verifiedNumber_after calls peerId
  constructor
  · rintro ⟨listed, verified, changed⟩
    rw [TrustStore.mem_getVerifiedPeerIds, TrustStore.getTrustRecord_isVerified, known] at listed
    rw [TrustStore.getTrustRecord_isVerified, known] at verified
    rw [TrustStore.getTrustRecord_hasChanged, known] at changed
    cases stored : lastVerified (calls.filter (·.stored)) peerId with
    | some number =>
      have last := verified.mp (listed.mp (by simp [stored]))
      have same := verified.mpr last
      rw [stored] at same
      exact ⟨same.trans last.symm, by simp [last]⟩
    | none =>
      cases last : lastVerified calls peerId with
      | none => exact ⟨rfl, nofun⟩
      | some number =>
        rw [stored, last] at verified changed
        by_cases same : number = current
        · exact absurd (verified.mpr (congrArg some same)) nofun
        · obtain ⟨_, -, impossible⟩ := changed.mpr ⟨number, same, rfl⟩
          cases impossible
  · rintro ⟨same, isCurrent⟩
    rw [same] at known
    refine ⟨?_, ?_, ?_⟩
    · rw [TrustStore.mem_getVerifiedPeerIds, TrustStore.getTrustRecord_isVerified, known]
      cases last : lastVerified calls peerId with
      | none => simp
      | some number => simp [isCurrent number last]
    · rw [TrustStore.getTrustRecord_isVerified, known]
    · rw [TrustStore.getTrustRecord_hasChanged, known]

/-- After a key change the contact is still listed as verified. -/
theorem listed_with_old_number :
    "bob" ∈ (TrustStore.after [.setVerified "bob" "11111" 0 true]).getVerifiedPeerIds ∧
    ((TrustStore.after [.setVerified "bob" "11111" 0 true]).getTrustRecord
      "bob" "22222").isVerified = false ∧
    ¬ ViewsAgree [.setVerified "bob" "11111" 0 true] "bob" "22222" := by
  have listed :
      "bob" ∈ (TrustStore.after [.setVerified "bob" "11111" 0 true]).getVerifiedPeerIds := by
    decide
  have unverified : ((TrustStore.after [.setVerified "bob" "11111" 0 true]).getTrustRecord
      "bob" "22222").isVerified = false := by rfl
  refine ⟨listed, unverified, fun agree => ?_⟩
  rw [agree.listed.mp listed] at unverified
  cases unverified

end GenChat.Client
