import GenChat.Library.Machine
import GenChat.Ledger.Store

/-!
# The media keys of a group call

`GroupWebRtcManager` of `group-webrtc-manager.ts` exports a media key for each peer when it sets up
the connection, and keeps it under the peer's id; nothing else writes or deletes these keys.
`MlsGroupManager` moves the group on from epoch to epoch meanwhile. The keys are those of the
current members and the current epoch as long as nobody leaves who has a key, and the epoch stays
while there are keys.
-/
namespace GenChat.Call
open Library
open Ledger (Table)

/-- HKDF-SHA-256 of the browser: the bytes of a hexadecimal text, a salt and an info to 256 bits in
hexadecimal. -/
structure Kdf where
  hkdf : String → String → String → String

variable (H : Kdf)

/-! ## The group manager -/

structure Member where
  leafIndex : Nat
  userId : String
  publicKeyHex : String
  deriving DecidableEq

structure MlsLocalGroupState where
  groupId : String
  epoch : Nat
  myLeafIndex : Nat
  epochSecretHex : String
  members : List Member
  deriving DecidableEq

structure MediaKey where
  keyHex : String
  saltHex : String
  deriving DecidableEq

inductive CommitAction where
  | add
  | remove
  | rekey
  deriving DecidableEq

/-- What `applyIncomingCommit` reads of a commit; the empty string stands for no user. -/
structure MlsCommitEnvelope where
  action : CommitAction
  targetUserId : String
  addedMember : Option Member
  deriving DecidableEq

/-- The methods that move a group on. `addMember` comes with the key of the fetched key package. -/
inductive GroupOp where
  | advanceEpoch (removedUserId : String)
  | addMember (newUserId newMemberKeyHex : String)
  | applyIncomingCommit (commit : MlsCommitEnvelope) (newEpoch : Nat)
  deriving DecidableEq

namespace MlsLocalGroupState

def nextSecret (state : MlsLocalGroupState) (channelId : String) (epoch : Nat) : String :=
  H.hkdf state.epochSecretHex s!"mls_epoch_salt_{epoch}"
    s!"mls_epoch_transition_{channelId}_{epoch}"

def without (state : MlsLocalGroupState) (userId : String) : List Member :=
  if userId = "" then state.members else state.members.filter (·.userId ≠ userId)

/-- The state in the epoch, with these members. -/
def advanced (state : MlsLocalGroupState) (channelId : String) (epoch : Nat)
    (members : List Member) : MlsLocalGroupState :=
  { state with
    groupId := channelId
    epoch := epoch
    epochSecretHex := state.nextSecret H channelId epoch
    members := members }

/-- The state that the method saves; nothing where it stops before. -/
def next (state : MlsLocalGroupState) (channelId : String) : GroupOp → Option MlsLocalGroupState
  | .advanceEpoch removedUserId =>
    some (state.advanced H channelId (state.epoch + 1) (state.without removedUserId))
  | .addMember newUserId newMemberKeyHex =>
    if newUserId ∈ state.members.map Member.userId then none
    else
      let leaf := (state.members.map Member.leafIndex).foldl max 0 + 1
      some (state.advanced H channelId (state.epoch + 1)
        (state.members ++ [⟨leaf, newUserId, newMemberKeyHex⟩]))
  | .applyIncomingCommit commit newEpoch =>
    if newEpoch ≤ state.epoch then none
    else some (state.advanced H channelId newEpoch <|
      match commit.action, commit.addedMember with
      | .remove, _ => state.without commit.targetUserId
      | .add, some added => state.without added.userId ++ [added]
      | _, _ => state.members)

/-- `exportGroupMediaKey` for a group that is found. An empty secret makes it fail. -/
def exportGroupMediaKey (state : MlsLocalGroupState) (groupId participantId : String) :
    Option MediaKey :=
  if state.epochSecretHex = "" then none
  else
    let exporter := H.hkdf state.epochSecretHex s!"mls_epoch_{state.epoch}"
      s!"sframe_media_exporter:{groupId}"
    let keyHex := H.hkdf exporter participantId "sframe_participant_media_key"
    some ⟨keyHex, String.ofList (keyHex.toList.take 32)⟩

end MlsLocalGroupState

/-! ## The call manager -/

/-- The fields of both managers. The empty group id stands for none. -/
structure Session where
  groupId : String
  peers : List String
  sframeKeys : Table String MediaKey
  /-- The exports under way, with the group states that they have read. -/
  exports : List (String × MlsLocalGroupState)
  groupCache : Table String MlsLocalGroupState
  storage : Table String MlsLocalGroupState
  /-- The states that methods of the group manager are about to save. -/
  transitions : List MlsLocalGroupState
  deriving DecidableEq

namespace Session

def getLocalGroupState (s : Session) (channelId : String) : Option MlsLocalGroupState :=
  s.groupCache.lookup channelId <|> s.storage.lookup channelId

/-- `localStorage` may be unavailable. -/
def saveLocalGroupState (s : Session) (state : MlsLocalGroupState) (persisted : Bool) : Session :=
  { s with
    groupCache := s.groupCache.insert state.groupId state
    storage := if persisted then s.storage.insert state.groupId state else s.storage }

def clearLocalGroupState (s : Session) (channelId : String) (removed : Bool) : Session :=
  { s with
    groupCache := s.groupCache.erase channelId
    storage := if removed then s.storage.erase channelId else s.storage }

/-- The export starts at once, and fails without a group. -/
def addPeer (s : Session) (peerId : String) : Session :=
  if peerId ∈ s.peers then s
  else
    { s with
      peers := s.peers ++ [peerId]
      exports := s.exports ++ if s.groupId = "" then []
        else (s.getLocalGroupState s.groupId).toList.map fun state => (peerId, state) }

def removePeer (s : Session) (peerId : String) : Session :=
  { s with peers := s.peers.filter (· ≠ peerId) }

def leave (s : Session) : Session := { s with peers := [] }

def getPeerSframeKey (s : Session) (peerId : String) : Option MediaKey :=
  s.sframeKeys.lookup peerId

end Session

/-- `handleOffer` adds its sender first; a connection that fails or is closed removes its peer. A
method of the group manager reads a state and saves the next one later; `createGroup`, `joinGroup`
and `addMember` without a state save one that does not depend on what is there. -/
inductive Event where
  | addPeer (peerId : String)
  | removePeer (peerId : String)
  | exported (n : Nat)
  | leave
  | begin (channelId : String) (op : GroupOp)
  | finish (n : Nat) (persisted : Bool)
  | saveLocalGroupState (state : MlsLocalGroupState) (persisted : Bool)
  | clearLocalGroupState (channelId : String) (removed : Bool)
  deriving DecidableEq

namespace Session

def step (s : Session) : Event → Option Session
  | .addPeer peerId => some (s.addPeer peerId)
  | .removePeer peerId => some (s.removePeer peerId)
  | .exported n => s.exports[n]?.map fun (peerId, state) =>
    { s with
      exports := s.exports.eraseIdx n
      sframeKeys := match state.exportGroupMediaKey H s.groupId peerId with
        | some key => s.sframeKeys.insert peerId key
        | none => s.sframeKeys }
  | .leave => some s.leave
  | .begin channelId op => (s.getLocalGroupState channelId).map fun state =>
    { s with transitions := s.transitions ++ (state.next H channelId op).toList }
  | .finish n persisted => s.transitions[n]?.map fun state =>
    { s.saveLocalGroupState state persisted with transitions := s.transitions.eraseIdx n }
  | .saveLocalGroupState state persisted => some (s.saveLocalGroupState state persisted)
  | .clearLocalGroupState channelId removed => some (s.clearLocalGroupState channelId removed)

end Session

/-- A new call, in a browser with any groups. -/
def machine : Machine Session Event where
  start s := s.peers = [] ∧ s.sframeKeys = ∅ ∧ s.exports = []
  step := Session.step H

/-! ## Coherence -/

/-- A peer with a key is in the call and in the group, and the key is of the current epoch. -/
def Session.Coherent (s : Session) : Prop :=
  ∀ p key, s.getPeerSframeKey p = some key → p ∈ s.peers ∧
    ∃ state, s.getLocalGroupState s.groupId = some state ∧ p ∈ state.members.map Member.userId ∧
      state.exportGroupMediaKey H s.groupId p = some key

/-- The peers with a key are members in the state, which is of the current epoch. -/
def Session.SameEpoch (s : Session) (state : MlsLocalGroupState) : Prop :=
  (∀ p ∈ s.sframeKeys.keys, p ∈ state.members.map Member.userId) ∧
    ∀ now ∈ s.getLocalGroupState s.groupId,
      state.epoch = now.epoch ∧ state.epochSecretHex = now.epochSecretHex

/-- Nobody leaves who has a key, an export that succeeds ends in the epoch in which it has begun,
while the peer is in the call and in the group, and the epoch stays while there are keys. -/
def Session.Settled (s : Session) : Event → Prop
  | .removePeer peerId => (s.getPeerSframeKey peerId).isNone
  | .leave => s.sframeKeys.keys = []
  | .exported n => ∀ e ∈ s.exports[n]?, e.2.epochSecretHex ≠ "" → e.1 ∈ s.peers ∧
    ∃ now ∈ s.getLocalGroupState s.groupId, e.1 ∈ now.members.map Member.userId ∧
      now.epoch = e.2.epoch ∧ now.epochSecretHex = e.2.epochSecretHex
  | .finish n _ => ∀ state ∈ s.transitions[n]?, state.groupId = s.groupId →
    s.sframeKeys.keys = [] ∨ s.SameEpoch state
  | .saveLocalGroupState state _ => state.groupId = s.groupId →
    s.sframeKeys.keys = [] ∨ s.SameEpoch state
  | .clearLocalGroupState channelId _ => channelId = s.groupId → s.sframeKeys.keys = []
  | _ => True

instance (s : Session) (event : Event) : Decidable (s.Settled event) := by
  cases event with
  | addPeer => exact .isTrue trivial
  | begin => exact .isTrue trivial
  | _ => simp only [Session.Settled, Session.SameEpoch]; infer_instance

namespace MlsLocalGroupState
variable {H} {state now : MlsLocalGroupState} {g p : String}

theorem exportGroupMediaKey_congr (epoch : now.epoch = state.epoch)
    (secret : now.epochSecretHex = state.epochSecretHex) :
    now.exportGroupMediaKey H g p = state.exportGroupMediaKey H g p := by
  simp only [exportGroupMediaKey, epoch, secret]

theorem secret_of_export {key : MediaKey} (h : state.exportGroupMediaKey H g p = some key) :
    state.epochSecretHex ≠ "" := by
  intro empty
  simp [exportGroupMediaKey, empty] at h

end MlsLocalGroupState

namespace Session
variable {H} {s t : Session}

theorem getLocalGroupState_save (state : MlsLocalGroupState) (persisted : Bool) (g : String) :
    (s.saveLocalGroupState state persisted).getLocalGroupState g =
      if g = state.groupId then some state else s.getLocalGroupState g := by
  unfold getLocalGroupState saveLocalGroupState
  by_cases same : g = state.groupId
  · subst same
    simp
  · cases persisted <;> simp [same]

theorem getLocalGroupState_clear {channelId g : String} (removed : Bool) (other : g ≠ channelId) :
    (s.clearLocalGroupState channelId removed).getLocalGroupState g = s.getLocalGroupState g := by
  cases removed <;> simp [getLocalGroupState, clearLocalGroupState, other]

theorem mem_keys {p : String} {key : MediaKey} (h : s.getPeerSframeKey p = some key) :
    p ∈ s.sframeKeys.keys :=
  AList.lookup_isSome.mp (Option.isSome_of_eq_some h)

theorem no_key (empty : s.sframeKeys.keys = []) (p : String) : s.getPeerSframeKey p = none := by
  cases found : s.getPeerSframeKey p with
  | none => rfl
  | some key => exact absurd (mem_keys found) (by simp [empty])

theorem Coherent.of_empty (empty : s.sframeKeys.keys = []) : s.Coherent H := by
  intro p key found
  rw [no_key empty] at found
  cases found

/-- The peers with keys stay in the call, and members in the epoch of their keys. -/
def Keeps (s t : Session) : Prop :=
  t.sframeKeys = s.sframeKeys ∧ t.groupId = s.groupId ∧
    ∀ p ∈ s.sframeKeys.keys, p ∈ s.peers →
      ∀ state, s.getLocalGroupState s.groupId = some state → p ∈ state.members.map Member.userId →
        p ∈ t.peers ∧ ∃ now, t.getLocalGroupState s.groupId = some now ∧
          p ∈ now.members.map Member.userId ∧ now.epoch = state.epoch ∧
          now.epochSecretHex = state.epochSecretHex

theorem Coherent.of_keeps (coherent : s.Coherent H) (keeps : s.Keeps t) : t.Coherent H := by
  obtain ⟨keys, group, stay⟩ := keeps
  intro p key found
  have before : s.getPeerSframeKey p = some key := by
    rw [← found, getPeerSframeKey, getPeerSframeKey, keys]
  obtain ⟨inCall, state, current, member, exported⟩ := coherent p key before
  obtain ⟨inCall', now, current', member', epoch, secret⟩ :=
    stay p (mem_keys before) inCall state current member
  rw [group]
  refine ⟨inCall', now, current', member', ?_⟩
  rw [← exported]
  exact MlsLocalGroupState.exportGroupMediaKey_congr epoch secret

theorem Keeps.of_save {state : MlsLocalGroupState} {persisted : Bool}
    (same : state.groupId = s.groupId → s.SameEpoch state) :
    s.Keeps (s.saveLocalGroupState state persisted) := by
  refine ⟨rfl, rfl, fun p hasKey inCall before current member => ⟨inCall, ?_⟩⟩
  rw [getLocalGroupState_save]
  by_cases group : s.groupId = state.groupId
  · obtain ⟨members, epoch⟩ := same group.symm
    obtain ⟨epoch, secret⟩ := epoch before current
    exact ⟨state, if_pos group, members p hasKey, epoch, secret⟩
  · exact ⟨before, by rw [if_neg group, current], member, rfl, rfl⟩

theorem Coherent.save {state : MlsLocalGroupState} {persisted : Bool} (coherent : s.Coherent H)
    (ok : state.groupId = s.groupId → s.sframeKeys.keys = [] ∨ s.SameEpoch state) :
    (s.saveLocalGroupState state persisted).Coherent H := by
  by_cases empty : s.sframeKeys.keys = []
  · exact .of_empty empty
  · exact coherent.of_keeps (.of_save fun group => (ok group).resolve_left empty)

/-- An export binds the key of the peer in the epoch in which it has begun, which is the current. -/
theorem Coherent.export {n : Nat} (coherent : s.Coherent H) (ok : s.Settled (.exported n))
    (h : s.step H (.exported n) = some t) : t.Coherent H := by
  obtain ⟨⟨peerId, state⟩, begun, same⟩ := Option.map_eq_some_iff.mp h
  dsimp only at same
  subst same
  intro p key found
  cases exported : state.exportGroupMediaKey H s.groupId peerId with
  | none =>
    simp only [getPeerSframeKey, exported] at found
    exact coherent p key found
  | some new =>
    simp only [getPeerSframeKey, exported] at found
    obtain found | ⟨rfl, rfl⟩ := Ledger.lookup_insert_cases found
    · exact coherent p key found
    · obtain ⟨inCall, now, current, member, epoch, secret⟩ :=
        ok _ begun (MlsLocalGroupState.secret_of_export exported)
      refine ⟨inCall, now, current, member, ?_⟩
      rw [← exported]
      exact MlsLocalGroupState.exportGroupMediaKey_congr epoch secret

theorem Coherent.step {event : Event} (coherent : s.Coherent H) (ok : s.Settled event)
    (h : s.step H event = some t) : t.Coherent H := by
  cases event with
  | addPeer peerId =>
    cases h
    refine coherent.of_keeps ?_
    unfold addPeer
    split
    · exact ⟨rfl, rfl, fun p _ inCall state current member =>
        ⟨inCall, state, current, member, rfl, rfl⟩⟩
    · exact ⟨rfl, rfl, fun p _ inCall state current member =>
        ⟨List.mem_append_left _ inCall, state, current, member, rfl, rfl⟩⟩
  | removePeer peerId =>
    cases h
    refine coherent.of_keeps ⟨rfl, rfl, fun p hasKey inCall state current member =>
      ⟨List.mem_filter.mpr ⟨inCall, ?_⟩, state, current, member, rfl, rfl⟩⟩
    have stays : p ≠ peerId := by
      rintro rfl
      have found := AList.lookup_isSome.mpr hasKey
      rw [Session.Settled, getPeerSframeKey, Option.isNone_iff_eq_none] at ok
      rw [ok] at found
      cases found
    simpa using stays
  | exported n => exact coherent.export ok h
  | leave =>
    cases h
    exact .of_empty ok
  | «begin» channelId op =>
    obtain ⟨state, -, rfl⟩ := Option.map_eq_some_iff.mp h
    exact coherent
  | finish n persisted =>
    obtain ⟨state, begun, rfl⟩ := Option.map_eq_some_iff.mp h
    exact coherent.save (ok state begun)
  | saveLocalGroupState state persisted =>
    cases h
    exact coherent.save ok
  | clearLocalGroupState channelId removed =>
    cases h
    by_cases group : s.groupId = channelId
    · exact .of_empty (ok group.symm)
    · exact coherent.of_keeps ⟨rfl, rfl, fun p _ inCall state current member =>
        ⟨inCall, state, (getLocalGroupState_clear removed group).trans current, member, rfl, rfl⟩⟩

end Session

/-- Whenever the call manager yields a key, its peer is in the call and in the group, and the key
is the one that the group exports now. So it yields none in a call without peers. -/
theorem media_keys_follow_group {s : Session} (h : (machine H).Reach Session.Settled s) :
    s.Coherent H ∧ (s.peers = [] → ∀ p, s.getPeerSframeKey p = none) := by
  have coherent : s.Coherent H := by
    induction h with
    | start new => exact .of_empty (by rw [new.2.1]; rfl)
    | step _ ok step ih => exact ih.step ok step
  refine ⟨coherent, fun left p => ?_⟩
  cases found : s.getPeerSframeKey p with
  | none => rfl
  | some key => exact absurd (coherent p key found).1 (by simp [left])

/-! ## A call with Bob -/

namespace Sample

/-- A derivation that loses nothing of its inputs. -/
def joined : Kdf := ⟨fun key salt info => s!"({key}|{salt}|{info})"⟩

def withBob : MlsLocalGroupState :=
  ⟨"channel", 3, 0, "aa", [⟨0, "alice", "0a"⟩, ⟨1, "bob", "0b"⟩]⟩

abbrev call := machine joined

def ringing : Session :=
  ⟨"channel", [], ∅, [], (∅ : Table String MlsLocalGroupState).insert "channel" withBob, ∅, []⟩

theorem ringing_start : call.start ringing := ⟨rfl, rfl, rfl⟩

def talking : List Event := [.addPeer "bob", .exported 0]

def bobRemoved : List Event :=
  [.begin "channel" (.applyIncomingCommit ⟨.remove, "bob", none⟩ 4), .finish 0 true]

def afterRemoval : Option Session :=
  call.follow (fun _ _ => True) ringing (talking ++ bobRemoved)

theorem afterRemoval_isSome : afterRemoval.isSome := by rfl

def afterLeaving : Option Session :=
  call.follow (fun _ _ => True) ringing (talking ++ [.leave])

theorem afterLeaving_isSome : afterLeaving.isSome := by rfl

/-- Bob is removed from the group and keeps his key, and so he does when the call is left. -/
theorem removed_member_keeps_key :
    (∃ s, call.Reachable s ∧ ¬ s.Coherent joined) ∧
      ∃ s, call.Reachable s ∧ s.peers = [] ∧ (s.getPeerSframeKey "bob").isSome := by
  have start : call.Reachable ringing := .start ringing_start
  refine ⟨⟨_, start.follow (Option.some_get afterRemoval_isSome).symm, fun coherent => ?_⟩,
    ⟨_, start.follow (Option.some_get afterLeaving_isSome).symm, by decide⟩⟩
  have kept : ((afterRemoval.get afterRemoval_isSome).getPeerSframeKey "bob").isSome := by
    rfl
  obtain ⟨-, state, current, member, -⟩ := coherent "bob" _ (Option.some_get kept).symm
  have gone : ∀ state ∈ (afterRemoval.get afterRemoval_isSome).getLocalGroupState "channel",
      "bob" ∉ state.members.map Member.userId := by decide
  exact gone state current member

def anotherGroup : List Event :=
  [.saveLocalGroupState { withBob with groupId := "other" } false, .begin "channel"
    (.advanceEpoch "carol"), .addPeer "carol", .begin "other" (.advanceEpoch "bob"), .finish 1 true]

def undisturbed : Option Session :=
  call.follow Session.Settled ringing (talking ++ anotherGroup)

theorem undisturbed_isSome : undisturbed.isSome := by rfl

/-- Changes of another group leave Bob his key. -/
theorem media_keys_follow_group_sample : ∃ s, call.Reach Session.Settled s ∧
    (s.getPeerSframeKey "bob").isSome ∧
    s.Coherent joined ∧ (s.peers = [] → ∀ p, s.getPeerSframeKey p = none) := by
  have start : call.Reach Session.Settled ringing := .start ringing_start
  have reach := start.follow (Option.some_get undisturbed_isSome).symm
  exact ⟨_, reach, by rfl, media_keys_follow_group joined reach⟩

end Sample

end GenChat.Call
