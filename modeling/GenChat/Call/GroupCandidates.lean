import GenChat.Client.AudioSdp
import GenChat.Ledger.Store
import GenChat.Library.Machine
import GenChat.Library.Phases

/-!
# Candidates in group calls

`group-webrtc-manager.ts`. Every call of a handler is a task, which goes on when what it awaits is
there; in between other handlers run on the same items. Candidates that come before the remote
description wait in an array of their item, which is walked through once the description is set
and replaced after that. Media tracks, streams, analysers and frame keys are left out.
-/
namespace GenChat.Call.GroupCandidates
open Library
open Ledger (Table lookup_insert_cases)
open Client (optimizeAudioSdp)

/-! ## Items -/

inductive SdpType where
  | offer
  | answer
  deriving DecidableEq

/-- What `new RTCIceCandidate` takes: one of the two places is there. -/
structure RTCIceCandidateInit where
  candidate : String
  sdpMid : Option String
  sdpMLineIndex : Option Nat
  usernameFragment : Option String
  located : sdpMid ≠ none ∨ sdpMLineIndex ≠ none
  deriving DecidableEq

inductive Callback where
  /-- `onSignal` with a session description. -/
  | onDescription (targetUserId : String) (signalType : SdpType) (sdp : String)
  /-- `onSignal` with a candidate. -/
  | onCandidate (targetUserId : String) (candidate : RTCIceCandidateInit)
  | onPeerLeft (peerId : String)
  | onError
  deriving DecidableEq

/-- A call of `addIceCandidate`, and whether the remote description was set by then. -/
structure Addition where
  candidate : RTCIceCandidateInit
  described : Bool
  deriving DecidableEq

structure PeerConnectionItem where
  peerId : String
  /-- `remoteDescription` of the connection. -/
  remoteDescription : Option (SdpType × String)
  /-- The calls of the connection's `addIceCandidate`. -/
  additions : List Addition
  /-- The arrays that `pendingCandidates` was before, which a loop may still walk through. -/
  former : List (List RTCIceCandidateInit)
  pendingCandidates : List RTCIceCandidateInit
  isRemoteDescriptionSet : Bool
  deriving DecidableEq

namespace PeerConnectionItem

def fresh (peerId : String) : PeerConnectionItem := ⟨peerId, none, [], [], [], false⟩

/-- The array with this number, as it is now. -/
def array (item : PeerConnectionItem) (number : Nat) : List RTCIceCandidateInit :=
  (item.former ++ [item.pendingCandidates])[number]?.getD []

def addIceCandidate (item : PeerConnectionItem) (c : RTCIceCandidateInit) : PeerConnectionItem :=
  { item with additions := item.additions ++ [⟨c, item.remoteDescription.isSome⟩] }

/-- `pendingCandidates = []` -/
def replace (item : PeerConnectionItem) : PeerConnectionItem :=
  { item with former := item.former ++ [item.pendingCandidates], pendingCandidates := [] }

def passed (item : PeerConnectionItem) : List RTCIceCandidateInit :=
  item.additions.map Addition.candidate

end PeerConnectionItem

/-! ## Tasks -/

/-- What a call of a handler waits for. Items are numbered as they are made. -/
inductive Task where
  /-- `handleOffer` behind `addPeer`. -/
  | added (peerId sdp : String)
  /-- `setRemoteDescription`, and whether the connection has it already. -/
  | describing (type : SdpType) (item : Nat) (sdp : String) (applied : Bool)
  /-- `addIceCandidate` for one element of an array. -/
  | draining (type : SdpType) (item array position : Nat)
  /-- `createOffer` or `createAnswer`. -/
  | creating (type : SdpType) (item : Nat)
  /-- `setLocalDescription` -/
  | settingLocal (type : SdpType) (item : Nat) (sdp : String)
  /-- `addIceCandidate` in `handleIceCandidate`. -/
  | adding (item : Nat) (candidate : RTCIceCandidateInit)
  | finished
  deriving DecidableEq

inductive Outcome where
  /-- The connection takes the description over; the promise is not resolved yet. -/
  | applied
  | resolved (sdp : Option String)
  | rejected

namespace Task

def item? : Task → Option Nat
  | describing _ i _ _ | draining _ i _ _ | creating _ i | settingLocal _ i _ | adding i _ => some i
  | added _ _ | finished => none

/-- Behind the loop: `handleOffer` goes on with the answer, `handleAnswer` returns. -/
def drained (type : SdpType) (i : Nat) : Task :=
  match type with
  | .offer => creating .answer i
  | .answer => finished

/-- The head of the loop. -/
def drain (item : PeerConnectionItem) (type : SdpType) (i array position : Nat) :
    PeerConnectionItem × Task :=
  match (item.array array)[position]? with
  | some cand => (item.addIceCandidate cand, draining type i array position)
  | none => (item.replace, drained type i)

/-- A task on an item goes on. -/
def resume (item : PeerConnectionItem) :
    Task → Outcome → Option (PeerConnectionItem × Task × List Callback)
  | describing type i sdp false, .applied =>
    some ({ item with remoteDescription := some (type, sdp) }, describing type i sdp true, [])
  | describing type i _ true, .resolved _ =>
    let set := { item with isRemoteDescriptionSet := true }
    if 0 < set.pendingCandidates.length then
      let (item, t) := drain set type i set.former.length 0
      some (item, t, [])
    else some (set, drained type i, [])
  | describing _ _ _ false, .rejected => some (item, finished, [.onError])
  | draining type i array position, .resolved _ =>
    let (item, t) := drain item type i array (position + 1)
    some (item, t, [])
  | draining _ _ _ _, .rejected => some (item, finished, [.onError])
  | creating type i, .resolved sdp =>
    some (item, settingLocal type i (optimizeAudioSdp (sdp.getD "")), [])
  | creating _ _, .rejected => some (item, finished, [.onError])
  | settingLocal type _ sdp, .resolved _ =>
    some (item, finished, [.onDescription item.peerId type sdp])
  | settingLocal _ _ _, .rejected => some (item, finished, [.onError])
  | adding _ _, .resolved _ | adding _ _, .rejected => some (item, finished, [])
  | _, _ => none

end Task

/-! ## The manager -/

structure GroupWebRtcManager where
  peers : Table String Nat
  items : List PeerConnectionItem
  tasks : List Task
  callbacks : List Callback
  /-- The candidates that have come from a peer since it was removed last. -/
  arrived : String → List RTCIceCandidateInit

namespace GroupWebRtcManager

def fresh : GroupWebRtcManager := ⟨∅, [], [], [], fun _ => []⟩

def spawn (m : GroupWebRtcManager) (t : Task) : GroupWebRtcManager :=
  { m with tasks := m.tasks ++ [t] }

def addPeer (m : GroupWebRtcManager) (peerId : String) (isInitiator : Bool) : GroupWebRtcManager :=
  match m.peers.lookup peerId with
  | some _ => m
  | none =>
    let i := m.items.length
    let m := { m with peers := m.peers.insert peerId i, items := m.items ++ [.fresh peerId] }
    if isInitiator then m.spawn (.creating .offer i) else m

def handleOffer (m : GroupWebRtcManager) (peerId sdp : String) : GroupWebRtcManager :=
  match m.peers.lookup peerId with
  | some i => m.spawn (.describing .offer i sdp false)
  | none => (m.addPeer peerId false).spawn (.added peerId sdp)

def handleAnswer (m : GroupWebRtcManager) (peerId sdp : String) : GroupWebRtcManager :=
  match m.peers.lookup peerId with
  | some i => m.spawn (.describing .answer i sdp false)
  | none => m

/-- The candidate comes in. -/
def receive (m : GroupWebRtcManager) (peerId : String) (c : RTCIceCandidateInit) :
    GroupWebRtcManager :=
  { m with arrived := Function.update m.arrived peerId (m.arrived peerId ++ [c]) }

def handleIceCandidate (m : GroupWebRtcManager) (peerId : String) (c : RTCIceCandidateInit) :
    Option GroupWebRtcManager :=
  match m.peers.lookup peerId with
  -- "Buffered ICE candidate for unknown peer", says the log
  | none => some (m.receive peerId c)
  | some i => m.items[i]?.map fun item =>
    let m := m.receive peerId c
    if item.isRemoteDescriptionSet && item.remoteDescription.isSome then
      { m with items := m.items.set i (item.addIceCandidate c) }.spawn (.adding i c)
    else
      let pending := item.pendingCandidates ++ [c]
      { m with items := m.items.set i { item with pendingCandidates := pending } }

def removePeer (m : GroupWebRtcManager) (peerId : String) : GroupWebRtcManager :=
  match m.peers.lookup peerId with
  | none => m
  | some _ =>
    { m with
      peers := m.peers.erase peerId
      callbacks := m.callbacks ++ [.onPeerLeft peerId]
      arrived := Function.update m.arrived peerId [] }

def leave (m : GroupWebRtcManager) : GroupWebRtcManager :=
  { m with peers := ∅, arrived := fun _ => [] }

/-- `onicecandidate` of an item's connection. -/
def onicecandidate (m : GroupWebRtcManager) (i : Nat) (c : RTCIceCandidateInit) :
    Option GroupWebRtcManager :=
  m.items[i]?.map fun item =>
    { m with callbacks := m.callbacks ++ [.onCandidate item.peerId c] }

/-- A task goes on. Where the peer has left behind `addPeer`, `handleOffer` throws. -/
def resume (m : GroupWebRtcManager) (k : Nat) (o : Outcome) : Option GroupWebRtcManager :=
  m.tasks[k]?.bind fun
    | .added peerId sdp =>
      match o with
      | .resolved _ =>
        let next := match m.peers.lookup peerId with
          | some i => .describing .offer i sdp false
          | none => .finished
        some { m with tasks := m.tasks.set k next }
      | _ => none
    | t => t.item?.bind fun i => m.items[i]?.bind fun item => (t.resume item o).map fun r =>
      { m with
        items := m.items.set i r.1
        tasks := m.tasks.set k r.2.1
        callbacks := m.callbacks ++ r.2.2 }

end GroupWebRtcManager

inductive Label where
  | addPeer (peerId : String) (isInitiator : Bool)
  | handleOffer (peerId sdp : String)
  | handleAnswer (peerId sdp : String)
  | handleIceCandidate (peerId : String) (c : RTCIceCandidateInit)
  /-- By the page, or by a connection that has failed or is closed. -/
  | removePeer (peerId : String)
  | leave
  | onicecandidate (item : Nat) (c : RTCIceCandidateInit)
  | resume (task : Nat) (o : Outcome)

def GroupWebRtcManager.step (m : GroupWebRtcManager) : Label → Option GroupWebRtcManager
  | .addPeer peerId isInitiator => some (m.addPeer peerId isInitiator)
  | .handleOffer peerId sdp => some (m.handleOffer peerId sdp)
  | .handleAnswer peerId sdp => some (m.handleAnswer peerId sdp)
  | .handleIceCandidate peerId c => m.handleIceCandidate peerId c
  | .removePeer peerId => some (m.removePeer peerId)
  | .leave => some m.leave
  | .onicecandidate i c => m.onicecandidate i c
  | .resume k o => m.resume k o

def group : Machine GroupWebRtcManager Label where
  start m := m = .fresh
  step := GroupWebRtcManager.step

/-! ## What is promised, and when -/

def Task.drains (i : Nat) : Task → Prop
  | .draining _ j _ _ => j = i
  | _ => False

instance (i : Nat) : ∀ t : Task, Decidable (t.drains i)
  | .draining _ j _ _ => inferInstanceAs (Decidable (j = i))
  | .added _ _ | .describing _ _ _ _ | .creating _ _ | .settingLocal _ _ _ | .adding _ _
  | .finished => .isFalse id

/-- No candidate is passed before the remote description, or twice, and where the description is
set and no loop is under way, none is missing. -/
def Served (m : GroupWebRtcManager) : Prop :=
  ∀ peerId i item, m.peers.lookup peerId = some i → m.items[i]? = some item →
    (∀ a ∈ item.additions, a.described = true) ∧
      item.passed.Subperm (m.arrived peerId) ∧
      (item.isRemoteDescriptionSet = true → (∀ t ∈ m.tasks, ¬ t.drains i) →
        item.passed.Perm (m.arrived peerId))

/-- The task with its item, if `peers` still holds that. -/
def GroupWebRtcManager.current (m : GroupWebRtcManager) (k : Nat) :
    Option (PeerConnectionItem × Task) :=
  m.tasks[k]?.bind fun t => t.item?.bind fun i => m.items[i]?.bind fun item =>
    if m.peers.lookup item.peerId = some i then some (item, t) else none

/-- A loop fails at the last element only, and a loop begins only where no description was set or
no candidate is pending. -/
def Task.gentle (item : PeerConnectionItem) : Task → Outcome → Bool
  | .draining _ _ array position, .rejected => (item.array array).length ≤ position + 1
  | .describing _ _ _ true, .resolved _ =>
    !item.isRemoteDescriptionSet || item.pendingCandidates.isEmpty
  | _, _ => true

/-- A peer becomes known before its first candidate comes, and its tasks are gentle. -/
def Gentle (m : GroupWebRtcManager) : Label → Prop
  | .addPeer peerId _ | .handleOffer peerId _ =>
    m.peers.lookup peerId = none → m.arrived peerId = []
  | .resume k o => ∀ p ∈ m.current k, p.2.gentle p.1 o = true
  | _ => True

instance (m : GroupWebRtcManager) : ∀ l, Decidable (Gentle m l)
  | .addPeer _ _ | .handleOffer _ _ => inferInstanceAs (Decidable (_ → _))
  | .resume k _ => inferInstanceAs (Decidable (∀ p ∈ m.current k, _))
  | .handleAnswer _ _ | .handleIceCandidate _ _ | .removePeer _ | .leave
  | .onicecandidate _ _ => .isTrue trivial

/-! ## The steps of the manager -/

variable {m m' : GroupWebRtcManager} {item item' : PeerConnectionItem} {t t' : Task}
  {i k : Nat} {o : Outcome} {peerId : String} {c : RTCIceCandidateInit}

theorem resume_cases (h : m.resume k o = some m') :
    (∃ peerId sdp t', m.tasks[k]? = some (.added peerId sdp) ∧
      (t' = .finished ∨ ∃ i, m.peers.lookup peerId = some i ∧ t' = .describing .offer i sdp false) ∧
      m' = { m with tasks := m.tasks.set k t' }) ∨
    ∃ t i item item' t' calls, m.tasks[k]? = some t ∧ t.item? = some i ∧ m.items[i]? = some item ∧
      t.resume item o = some (item', t', calls) ∧
      m' = { m with
        items := m.items.set i item'
        tasks := m.tasks.set k t'
        callbacks := m.callbacks ++ calls } := by
  obtain ⟨t, here, h⟩ := Option.bind_eq_some_iff.mp h
  cases t with
  | added peerId sdp =>
    left
    cases o with
    | resolved =>
      cases h
      refine ⟨peerId, sdp, _, here, ?_, rfl⟩
      cases known : m.peers.lookup peerId with
      | none => exact .inl rfl
      | some i => exact .inr ⟨i, rfl, rfl⟩
    | applied | rejected => cases h
  | _ =>
    right
    obtain ⟨i, on, h⟩ := Option.bind_eq_some_iff.mp h
    obtain ⟨item, there, h⟩ := Option.bind_eq_some_iff.mp h
    obtain ⟨⟨item', t', calls⟩, went, rfl⟩ := Option.map_eq_some_iff.mp h
    exact ⟨_, i, item, item', t', calls, here, on, there, went, rfl⟩

theorem addPeer_cases (m : GroupWebRtcManager) (peerId : String) (isInitiator : Bool) :
    (∃ i, m.peers.lookup peerId = some i ∧ m.addPeer peerId isInitiator = m) ∨
    m.peers.lookup peerId = none ∧ ∃ tasks : List Task,
      (tasks = [] ∨ tasks = [.creating .offer m.items.length]) ∧
      m.addPeer peerId isInitiator = { m with
        peers := m.peers.insert peerId m.items.length
        items := m.items ++ [.fresh peerId]
        tasks := m.tasks ++ tasks } := by
  unfold GroupWebRtcManager.addPeer
  cases known : m.peers.lookup peerId with
  | some i => exact .inl ⟨i, rfl, rfl⟩
  | none =>
    right
    cases isInitiator with
    | true => exact ⟨rfl, _, .inr rfl, rfl⟩
    | false => exact ⟨rfl, [], .inl rfl, by simp⟩

/-! ## Items and tasks fit together -/

/-- Behind `setRemoteDescription`. -/
def Task.described : Task → Bool
  | .describing _ _ _ applied => applied
  | .draining _ _ _ _ => true
  | _ => false

structure PeerConnectionItem.Clean (item : PeerConnectionItem) : Prop where
  additions : ∀ a ∈ item.additions, a.described = true
  set : item.isRemoteDescriptionSet = true → item.remoteDescription.isSome = true

structure Fits (m : GroupWebRtcManager) : Prop where
  items : ∀ item ∈ m.items, item.Clean
  tasks : ∀ t ∈ m.tasks, ∀ i, t.item? = some i → ∃ item, m.items[i]? = some item ∧
    (t.described = true → item.remoteDescription.isSome = true)
  peers : ∀ peerId i, m.peers.lookup peerId = some i →
    ∃ item, m.items[i]? = some item ∧ item.peerId = peerId

theorem clean_fresh (peerId : String) : (PeerConnectionItem.fresh peerId).Clean :=
  ⟨nofun, nofun⟩

theorem PeerConnectionItem.Clean.addIceCandidate (h : item.Clean)
    (described : item.remoteDescription.isSome = true) : (item.addIceCandidate c).Clean := by
  refine ⟨fun a mem => ?_, h.set⟩
  rcases List.mem_append.mp mem with old | new
  · exact h.additions a old
  · rw [List.mem_singleton.mp new]
    exact described

/-- What the head of the loop does to an item whose description is set. -/
theorem drain_clean {type : SdpType} {array position : Nat} (h : item.Clean)
    (described : item.remoteDescription.isSome = true) :
    (Task.drain item type i array position).1.Clean ∧
      (Task.drain item type i array position).1.peerId = item.peerId ∧
      (Task.drain item type i array position).1.remoteDescription = item.remoteDescription ∧
      ((Task.drain item type i array position).2.item? = some i ∨
        (Task.drain item type i array position).2 = .finished) := by
  unfold Task.drain
  split
  · exact ⟨h.addIceCandidate described, rfl, rfl, .inl rfl⟩
  · refine ⟨⟨h.additions, h.set⟩, rfl, rfl, ?_⟩
    cases type with
    | offer => exact .inl rfl
    | answer => exact .inr rfl

/-- A task keeps its item clean, whose description stays set. -/
theorem resume_clean {calls : List Callback} (went : t.resume item o = some (item', t', calls))
    (on : t.item? = some i) (h : item.Clean)
    (described : t.described = true → item.remoteDescription.isSome = true) :
    item'.Clean ∧ item'.peerId = item.peerId ∧
      (item.remoteDescription.isSome = true → item'.remoteDescription.isSome = true) ∧
      (t'.item? = some i ∨ t' = .finished) ∧
      (t'.described = true → item'.remoteDescription.isSome = true) := by
  cases t with
  | added | finished => cases on
  | describing type j sdp applied =>
    cases on
    cases applied with
    | false =>
      cases o with
      | applied =>
        cases went
        exact ⟨⟨h.additions, fun _ => rfl⟩, rfl, fun _ => rfl, .inl rfl, fun _ => rfl⟩
      | resolved => cases went
      | rejected =>
        cases went
        exact ⟨h, rfl, id, .inr rfl, nofun⟩
    | true =>
      have there := described rfl
      have set : { item with isRemoteDescriptionSet := true }.Clean := ⟨h.additions, fun _ => there⟩
      cases o with
      | applied | rejected => cases went
      | resolved =>
        simp only [Task.resume] at went
        split at went
        · cases went
          obtain ⟨clean, name, same, on⟩ := drain_clean (i := i) set there
          have still := same ▸ there
          exact ⟨clean, name, fun _ => still, on, fun _ => still⟩
        · cases went
          refine ⟨set, rfl, id, ?_, fun _ => there⟩
          cases type with
          | offer => exact .inl rfl
          | answer => exact .inr rfl
  | draining type j array position =>
    cases on
    have there := described rfl
    cases o with
    | applied => cases went
    | resolved =>
      cases went
      obtain ⟨clean, name, same, on⟩ := drain_clean (i := i) h there
      have still := same ▸ there
      exact ⟨clean, name, fun _ => still, on, fun _ => still⟩
    | rejected =>
      cases went
      exact ⟨h, rfl, id, .inr rfl, nofun⟩
  | creating type j =>
    cases on
    cases o with
    | applied => cases went
    | resolved =>
      cases went
      exact ⟨h, rfl, id, .inl rfl, nofun⟩
    | rejected =>
      cases went
      exact ⟨h, rfl, id, .inr rfl, nofun⟩
  | settingLocal type j sdp =>
    cases on
    cases o with
    | applied => cases went
    | resolved | rejected =>
      cases went
      exact ⟨h, rfl, id, .inr rfl, nofun⟩
  | adding j c =>
    cases on
    cases o with
    | applied => cases went
    | resolved | rejected =>
      cases went
      exact ⟨h, rfl, id, .inr rfl, nofun⟩

/-- A task that can join: it is on no item, or on one that is described if it needs that. -/
def Joins (m : GroupWebRtcManager) (t : Task) : Prop :=
  ∀ i, t.item? = some i → ∃ item, m.items[i]? = some item ∧
    (t.described = true → item.remoteDescription.isSome = true)

theorem Fits.spawn (h : Fits m) (joins : Joins m t) : Fits (m.spawn t) := by
  refine ⟨h.items, fun t' mem => ?_, h.peers⟩
  rcases List.mem_append.mp mem with old | new
  · exact h.tasks t' old
  · rw [List.mem_singleton.mp new]
    exact joins

theorem Fits.joins (h : Fits m) (known : m.peers.lookup peerId = some i) (on : t.item? = some i)
    (fresh : t.described = false) : Joins m t := by
  intro j same
  rw [on] at same
  cases same
  obtain ⟨item, there, -⟩ := h.peers peerId i known
  refine ⟨item, there, fun described => ?_⟩
  rw [fresh] at described
  cases described

theorem Fits.setTask (h : Fits m) (joins : Joins m t) :
    Fits { m with tasks := m.tasks.set k t } := by
  refine ⟨h.items, fun t' mem => ?_, h.peers⟩
  rcases List.mem_or_eq_of_mem_set mem with old | rfl
  · exact h.tasks t' old
  · exact joins

/-- An item changes, keeps its peer and loses no description. -/
theorem Fits.setItem (h : Fits m) (there : m.items[i]? = some item) (clean : item'.Clean)
    (name : item'.peerId = item.peerId)
    (described : item.remoteDescription.isSome = true → item'.remoteDescription.isSome = true) :
    Fits { m with items := m.items.set i item' } := by
  have here : (m.items.set i item')[i]? = some item' := by
    obtain ⟨lt, -⟩ := List.getElem?_eq_some_iff.mp there
    exact List.getElem?_set_self lt
  refine ⟨fun other mem => ?_, fun t mem j on => ?_, fun p j known => ?_⟩
  · rcases List.mem_or_eq_of_mem_set mem with old | rfl
    · exact h.items other old
    · exact clean
  · obtain ⟨other, present, fits⟩ := h.tasks t mem j on
    by_cases same : i = j
    · subst same
      rw [there] at present
      cases present
      exact ⟨item', here, fun t => described (fits t)⟩
    · exact ⟨other, by rw [← present]; exact List.getElem?_set_ne same, fits⟩
  · obtain ⟨other, present, called⟩ := h.peers p j known
    by_cases same : i = j
    · subst same
      rw [there] at present
      cases present
      exact ⟨item', here, name.trans called⟩
    · exact ⟨other, by rw [← present]; exact List.getElem?_set_ne same, called⟩

theorem fits_fresh : Fits .fresh := ⟨nofun, nofun, nofun⟩

theorem Fits.addPeer (h : Fits m) (peerId : String) (isInitiator : Bool) :
    Fits (m.addPeer peerId isInitiator) := by
  rcases addPeer_cases m peerId isInitiator with ⟨i, -, same⟩ | ⟨-, tasks, new, same⟩
  · rwa [same]
  · rw [same]
    have kept : ∀ {i : Nat} {item : PeerConnectionItem}, m.items[i]? = some item →
        (m.items ++ [.fresh peerId])[i]? = some item := by
      intro i item there
      obtain ⟨lt, -⟩ := List.getElem?_eq_some_iff.mp there
      rwa [List.getElem?_append_left lt]
    have last : (m.items ++ [PeerConnectionItem.fresh peerId])[m.items.length]? =
        some (.fresh peerId) := List.getElem?_concat_length
    refine ⟨fun item mem => ?_, fun t mem i on => ?_, fun p i known => ?_⟩
    · rcases List.mem_append.mp mem with old | rest
      · exact h.items item old
      · rw [List.mem_singleton.mp rest]
        exact clean_fresh peerId
    · rcases List.mem_append.mp mem with old | rest
      · obtain ⟨item, there, fits⟩ := h.tasks t old i on
        exact ⟨item, kept there, fits⟩
      · rcases new with rfl | rfl
        · cases rest
        · rw [List.mem_singleton.mp rest] at on ⊢
          cases on
          exact ⟨_, last, nofun⟩
    · rcases lookup_insert_cases known with old | ⟨rfl, rfl⟩
      · obtain ⟨item, there, name⟩ := h.peers p i old
        exact ⟨item, kept there, name⟩
      · exact ⟨_, last, rfl⟩

theorem Fits.forget {peers : Table String Nat} (h : Fits m)
    (fewer : ∀ p i, peers.lookup p = some i → m.peers.lookup p = some i) :
    Fits { m with peers := peers } :=
  ⟨h.items, h.tasks, fun p i known => h.peers p i (fewer p i known)⟩

theorem lookup_erase_some {peers : Table String Nat} {p : String}
    (h : (peers.erase peerId).lookup p = some i) : p ≠ peerId ∧ peers.lookup p = some i := by
  by_cases same : p = peerId
  · subst same
    rw [AList.lookup_erase] at h
    cases h
  · rw [AList.lookup_erase_ne same] at h
    exact ⟨same, h⟩

theorem Fits.handleIceCandidate (h : Fits m) (went : m.handleIceCandidate peerId c = some m') :
    Fits m' := by
  unfold GroupWebRtcManager.handleIceCandidate at went
  cases known : m.peers.lookup peerId with
  | none =>
    rw [known] at went
    cases went
    exact ⟨h.items, h.tasks, h.peers⟩
  | some i =>
    rw [known] at went
    obtain ⟨item, there, rfl⟩ := Option.map_eq_some_iff.mp went
    have clean := h.items item (List.mem_of_getElem? there)
    have same : Fits (m.receive peerId c) := ⟨h.items, h.tasks, h.peers⟩
    dsimp only
    split
    · rename_i ready
      have described : item.remoteDescription.isSome = true := by simp_all
      have changed := same.setItem there (clean.addIceCandidate (c := c) described) rfl id
      exact changed.spawn (changed.joins known rfl rfl)
    · exact same.setItem there ⟨clean.additions, clean.set⟩ rfl id

theorem Fits.resume (h : Fits m) (went : m.resume k o = some m') : Fits m' := by
  rcases resume_cases went with ⟨p, sdp, t', -, next, rfl⟩ |
    ⟨t, i, item, item', t', calls, here, on, there, ran, rfl⟩
  · apply h.setTask
    rcases next with rfl | ⟨i, known, rfl⟩
    · exact nofun
    · exact h.joins known rfl rfl
  · obtain ⟨item₀, present, described⟩ := h.tasks t (List.mem_of_getElem? here) i on
    rw [there] at present
    cases present
    obtain ⟨clean, name, still, next, ready⟩ := resume_clean ran on
      (h.items item (List.mem_of_getElem? there)) described
    have changed := h.setItem there clean name still
    have joins : Joins { m with items := m.items.set i item' } t' := by
      intro j same
      rcases next with next | rfl
      · rw [next] at same
        cases same
        obtain ⟨lt, -⟩ := List.getElem?_eq_some_iff.mp there
        exact ⟨item', List.getElem?_set_self lt, ready⟩
      · cases same
    have set := changed.setTask (k := k) joins
    exact ⟨set.items, set.tasks, set.peers⟩

theorem Fits.step {l : Label} (h : Fits m) (went : m.step l = some m') : Fits m' := by
  cases l with
  | addPeer peerId isInitiator =>
    cases went
    exact h.addPeer peerId isInitiator
  | handleOffer peerId sdp =>
    cases went
    unfold GroupWebRtcManager.handleOffer
    cases known : m.peers.lookup peerId with
    | some i => exact h.spawn (h.joins known rfl rfl)
    | none => exact (h.addPeer peerId false).spawn nofun
  | handleAnswer peerId sdp =>
    cases went
    unfold GroupWebRtcManager.handleAnswer
    cases known : m.peers.lookup peerId with
    | some i => exact h.spawn (h.joins known rfl rfl)
    | none => exact h
  | handleIceCandidate peerId c => exact h.handleIceCandidate went
  | removePeer peerId =>
    cases went
    unfold GroupWebRtcManager.removePeer
    split
    · exact h
    · have fewer := h.forget fun p i known => (@lookup_erase_some i peerId m.peers p known).2
      exact ⟨fewer.items, fewer.tasks, fewer.peers⟩
  | leave =>
    cases went
    exact ⟨h.items, h.tasks, nofun⟩
  | onicecandidate i c =>
    obtain ⟨item, -, rfl⟩ := Option.map_eq_some_iff.mp went
    exact ⟨h.items, h.tasks, h.peers⟩
  | resume k o => exact h.resume went

/-! ## How far an item has come -/

def Idle (tasks : List Task) (i : Nat) : Prop :=
  ∀ (j : Nat) (t : Task), tasks[j]? = some t → ¬ t.drains i

/-- The candidates of an item are collected, walked through by one loop, or through. -/
inductive Stage (tasks : List Task) (arrived : List RTCIceCandidateInit) (i : Nat)
    (item : PeerConnectionItem) : Prop where
  | collecting : item.isRemoteDescriptionSet = false → item.additions = [] →
      item.pendingCandidates = arrived → Idle tasks i → Stage tasks arrived i item
  | looping (k : Nat) (type : SdpType) (position : Nat) : item.isRemoteDescriptionSet = true →
      tasks[k]? = some (.draining type i item.former.length position) →
      (∀ (j : Nat) (t : Task), tasks[j]? = some t → t.drains i → j = k) →
      position < item.pendingCandidates.length →
      (item.passed ++ item.pendingCandidates.drop (position + 1)).Perm arrived →
      Stage tasks arrived i item
  | through : item.isRemoteDescriptionSet = true → item.passed.Perm arrived → Idle tasks i →
      Stage tasks arrived i item

variable {tasks tasks' : List Task} {arrived : List RTCIceCandidateInit}

@[simp] theorem array_length (item : PeerConnectionItem) :
    item.array item.former.length = item.pendingCandidates := by
  simp [PeerConnectionItem.array]

/-- Only the loops over the item matter. -/
theorem Stage.frame (h : Stage tasks arrived i item)
    (same : ∀ (j : Nat) (t : Task), t.drains i → (tasks'[j]? = some t ↔ tasks[j]? = some t)) :
    Stage tasks' arrived i item := by
  cases h with
  | collecting unset none pending idle =>
    exact .collecting unset none pending fun j t here drains =>
      idle j t ((same j t drains).mp here) drains
  | looping k type position set here only lt perm =>
    have loops : (Task.draining type i item.former.length position).drains i := rfl
    exact .looping k type position set ((same k _ loops).mpr here)
      (fun j t here drains => only j t ((same j t drains).mp here) drains) lt perm
  | through set perm idle =>
    exact .through set perm fun j t here drains => idle j t ((same j t drains).mp here) drains

theorem getElem?_concat_idle {j : Nat} (new : ¬ t.drains i) (drains : t'.drains i) :
    (tasks ++ [t])[j]? = some t' ↔ tasks[j]? = some t' := by
  constructor
  · intro here
    rcases getElem?_concat_cases here with old | rfl
    · exact old
    · exact absurd drains new
  · intro here
    obtain ⟨lt, -⟩ := List.getElem?_eq_some_iff.mp here
    rwa [List.getElem?_append_left lt]

theorem Stage.concat (h : Stage tasks arrived i item) (new : ¬ t.drains i) :
    Stage (tasks ++ [t]) arrived i item :=
  h.frame fun _ _ drains => getElem?_concat_idle new drains

theorem getElem?_set_idle {s : Task} {j : Nat} (here : tasks[k]? = some t) (old : ¬ t.drains i)
    (new : ¬ t'.drains i) (drains : s.drains i) :
    (tasks.set k t')[j]? = some s ↔ tasks[j]? = some s := by
  constructor
  · intro there
    rcases getElem?_set_cases there with ⟨-, rfl⟩ | ⟨-, there⟩
    · exact absurd drains new
    · exact there
  · intro there
    have other : k ≠ j := by
      rintro rfl
      rw [here] at there
      cases there
      exact old drains
    rwa [List.getElem?_set_ne other]

theorem Stage.set (h : Stage tasks arrived i item) (here : tasks[k]? = some t)
    (old : ¬ t.drains i) (new : ¬ t'.drains i) : Stage (tasks.set k t') arrived i item :=
  h.frame fun _ _ drains => getElem?_set_idle here old new drains

theorem not_drains_of_item? {j : Nat} (on : t.item? = some j) (other : j ≠ i) :
    ¬ t.drains i := by
  cases t with
  | draining =>
    cases on
    exact other
  | _ => exact id

/-- A candidate comes in. -/
theorem Stage.handleIceCandidate (h : Stage tasks arrived i item) :
    (item.isRemoteDescriptionSet = true →
      Stage (tasks ++ [.adding i c]) (arrived ++ [c]) i (item.addIceCandidate c)) ∧
    (item.isRemoteDescriptionSet = false → Stage tasks (arrived ++ [c]) i
      { item with pendingCandidates := item.pendingCandidates ++ [c] }) := by
  have passed : (item.addIceCandidate c).passed = item.passed ++ [c] := by
    simp [PeerConnectionItem.passed, PeerConnectionItem.addIceCandidate]
  constructor
  · intro set
    refine Stage.concat ?_ id
    cases h with
    | collecting unset =>
      rw [set] at unset
      cases unset
    | looping k type position set here only lt perm =>
      refine .looping k type position set here only lt ?_
      rw [passed, List.append_assoc]
      have swap : (item.passed ++ ([c] ++ item.pendingCandidates.drop (position + 1))).Perm
          (item.passed ++ (item.pendingCandidates.drop (position + 1) ++ [c])) :=
        List.perm_append_comm.append_left item.passed
      rw [← List.append_assoc item.passed (item.pendingCandidates.drop (position + 1))] at swap
      exact swap.trans (perm.append_right [c])
    | through set perm idle =>
      refine .through set ?_ idle
      rw [passed]
      exact perm.append_right [c]
  · intro unset
    cases h with
    | collecting _ none pending idle =>
      refine .collecting unset none ?_ idle
      rw [← pending]
    | looping k type position set => rw [unset] at set; cases set
    | through set => rw [unset] at set; cases set

/-- The task that goes on does not loop over the item, before or after. -/
theorem Stage.quiet {type : Option (SdpType × String)} (h : Stage tasks arrived i item)
    (here : tasks[k]? = some t) (old : ¬ t.drains i) (new : ¬ t'.drains i) :
    Stage (tasks.set k t') arrived i { item with remoteDescription := type } := by
  cases h.set here old new with
  | collecting unset none pending idle => exact .collecting unset none pending idle
  | looping j type position set here only lt perm =>
    exact .looping j type position set here only lt perm
  | through set perm idle => exact .through set perm idle

theorem drained_not_drains (type : SdpType) (i j : Nat) : ¬ (Task.drained type i).drains j := by
  cases type <;> exact id

/-- The continuation of `setRemoteDescription`. -/
theorem Stage.describe {type : SdpType} {sdp : String} {calls : List Callback}
    {answer : Option String} (h : Stage tasks arrived i item)
    (here : tasks[k]? = some (.describing type i sdp true))
    (went : Task.resume item (.describing type i sdp true) (.resolved answer) =
      some (item', t', calls))
    (first : item.isRemoteDescriptionSet = true → item.pendingCandidates = []) :
    Stage (tasks.set k t') arrived i item' := by
  simp only [Task.resume] at went
  have self : ∀ t', (tasks.set k t')[k]? = some t' := by
    intro t'
    obtain ⟨lt, -⟩ := List.getElem?_eq_some_iff.mp here
    exact List.getElem?_set_self lt
  cases h with
  | looping j type position set _ _ lt =>
    rw [first set] at lt
    cases lt
  | through set perm idle =>
    rw [first set] at went
    cases went
    refine .through rfl perm fun j t there => ?_
    rcases getElem?_set_cases there with ⟨-, rfl⟩ | ⟨-, old⟩
    · exact drained_not_drains type i i
    · exact idle j t old
  | collecting unset none pending idle =>
    cases more : item.pendingCandidates with
    | nil =>
      rw [more] at went
      cases went
      rw [more] at pending
      refine .through rfl ?_ fun j t there => ?_
      · simp [PeerConnectionItem.passed, none, ← pending]
      · rcases getElem?_set_cases there with ⟨-, rfl⟩ | ⟨-, old⟩
        · exact drained_not_drains type i i
        · exact idle j t old
    | cons c rest =>
      have drain : Task.drain { item with isRemoteDescriptionSet := true } type i
          item.former.length 0 =
          ({ item with isRemoteDescriptionSet := true }.addIceCandidate c,
            .draining type i item.former.length 0) := by
        have array := array_length { item with isRemoteDescriptionSet := true }
        rw [Task.drain, array, more]
        rfl
      rw [drain, more] at went
      cases went
      refine .looping k type 0 rfl (self _) (fun j t there drains => ?_) ?_ ?_
      · rcases getElem?_set_cases there with ⟨same, -⟩ | ⟨-, old⟩
        · exact same
        · exact absurd drains (idle j t old)
      · exact Nat.succ_pos _
      · simp [PeerConnectionItem.passed, PeerConnectionItem.addIceCandidate, none, ← pending, more]

/-- The next turn of a loop, or its end. -/
theorem Stage.loop {type : SdpType} {array position : Nat} {calls : List Callback}
    (h : Stage tasks arrived i item)
    (here : tasks[k]? = some (.draining type i array position))
    (went : Task.resume item (.draining type i array position) o = some (item', t', calls))
    (last : Task.gentle item (.draining type i array position) o = true) :
    Stage (tasks.set k t') arrived i item' := by
  have self : (tasks.set k t')[k]? = some t' := by
    obtain ⟨lt, -⟩ := List.getElem?_eq_some_iff.mp here
    exact List.getElem?_set_self lt
  cases h with
  | collecting _ _ _ idle => exact absurd rfl (idle k _ here)
  | through _ _ idle => exact absurd rfl (idle k _ here)
  | looping k' type' position' set here' only lt perm =>
    obtain rfl := only k _ here rfl
    rw [here] at here'
    cases here'
    -- It is the only loop over the item, and `t'` takes its place.
    have others : ¬ t'.drains i → Idle (tasks.set k t') i := by
      intro stopped j t there
      rcases getElem?_set_cases there with ⟨-, rfl⟩ | ⟨other, old⟩
      · exact stopped
      · exact fun drains => other (only j t old drains)
    cases o with
    | applied => cases went
    | rejected =>
      cases went
      have none : item.pendingCandidates.drop (position + 1) = [] := by
        have short := of_decide_eq_true last
        rw [array_length] at short
        exact List.drop_of_length_le short
      rw [none, List.append_nil] at perm
      exact .through set perm (others id)
    | resolved =>
      cases next : item.pendingCandidates[position + 1]? with
      | none =>
        have stop : Task.drain item type i item.former.length (position + 1) =
            (item.replace, .drained type i) := by rw [Task.drain, array_length, next]
        have none : item.pendingCandidates.drop (position + 1) = [] :=
          List.drop_of_length_le (List.getElem?_eq_none_iff.mp next)
        rw [none, List.append_nil] at perm
        rw [Task.resume, stop] at went
        cases went
        exact .through set perm (others (drained_not_drains type i i))
      | some c =>
        have go : Task.drain item type i item.former.length (position + 1) =
            (item.addIceCandidate c, .draining type i item.former.length (position + 1)) := by
          rw [Task.drain, array_length, next]
        obtain ⟨more, found⟩ := List.getElem?_eq_some_iff.mp next
        rw [List.drop_eq_getElem_cons more, found] at perm
        rw [Task.resume, go] at went
        cases went
        refine .looping k type (position + 1) set self (fun j t there drains => ?_) more ?_
        · rcases getElem?_set_cases there with ⟨same, -⟩ | ⟨-, old⟩
          · exact same
          · exact only j t old drains
        · simpa [PeerConnectionItem.passed, PeerConnectionItem.addIceCandidate] using perm

theorem Stage.resume {calls : List Callback} (h : Stage tasks arrived i item)
    (here : tasks[k]? = some t) (on : t.item? = some i)
    (went : t.resume item o = some (item', t', calls)) (gentle : t.gentle item o = true) :
    Stage (tasks.set k t') arrived i item' := by
  cases t with
  | added | finished => cases on
  | describing type j sdp applied =>
    cases on
    cases applied with
    | true =>
      cases o with
      | applied | rejected => cases went
      | resolved =>
        refine h.describe here went fun set => ?_
        simpa [Task.gentle, set] using gentle
    | false =>
      cases o with
      | resolved => cases went
      | applied | rejected =>
        cases went
        exact h.quiet here id id
  | draining type j array position =>
    cases on
    exact h.loop here went gentle
  | creating | settingLocal | adding =>
    cases o with
    | applied => cases went
    | resolved | rejected =>
      cases went
      exact h.quiet here id id

/-! ## Runs -/

def InTurn (m : GroupWebRtcManager) : Prop :=
  ∀ peerId i item, m.peers.lookup peerId = some i → m.items[i]? = some item →
    Stage m.tasks (m.arrived peerId) i item

theorem InTurn.spawn (h : InTurn m) (idle : ∀ i, ¬ t.drains i) : InTurn (m.spawn t) :=
  fun p i item known there => (h p i item known there).concat (idle i)

theorem Fits.idle_new (h : Fits m) : Idle m.tasks m.items.length := by
  intro j t here drains
  cases t with
  | draining type i array position =>
    obtain ⟨item, there, -⟩ := h.tasks _ (List.mem_of_getElem? here) i rfl
    obtain ⟨lt, -⟩ := List.getElem?_eq_some_iff.mp there
    have same : i = m.items.length := drains
    omega
  | _ => exact drains

theorem InTurn.addPeer {isInitiator : Bool} (h : InTurn m) (fits : Fits m)
    (first : m.peers.lookup peerId = none → m.arrived peerId = []) :
    InTurn (m.addPeer peerId isInitiator) := by
  rcases addPeer_cases m peerId isInitiator with ⟨i, -, same⟩ | ⟨unknown, tasks, new, same⟩
  · rwa [same]
  · rw [same]
    have concat : ∀ {arrived i item}, Stage m.tasks arrived i item →
        Stage (m.tasks ++ tasks) arrived i item := by
      intro arrived i item stage
      rcases new with rfl | rfl
      · rwa [List.append_nil]
      · exact stage.concat id
    intro p i item known there
    rcases lookup_insert_cases known with old | ⟨rfl, rfl⟩
    · obtain ⟨item₀, present, -⟩ := fits.peers p i old
      obtain ⟨lt, -⟩ := List.getElem?_eq_some_iff.mp present
      have there : (m.items ++ [.fresh peerId])[i]? = some item := there
      rw [List.getElem?_append_left lt] at there
      exact concat (h p i item old there)
    · have there : (m.items ++ [.fresh p])[m.items.length]? = some item := there
      rw [List.getElem?_concat_length] at there
      cases there
      exact concat (.collecting rfl rfl (first unknown).symm fits.idle_new)

/-- Two peers have two items. -/
theorem Fits.ne_of_ne {p : String} {j : Nat} (h : Fits m) (known : m.peers.lookup peerId = some i)
    (other : m.peers.lookup p = some j) (ne : p ≠ peerId) : i ≠ j := by
  rintro rfl
  obtain ⟨item, there, name⟩ := h.peers peerId i known
  obtain ⟨item', there', name'⟩ := h.peers p i other
  rw [there] at there'
  cases there'
  exact ne (name'.symm.trans name)

theorem InTurn.receive_of_unknown (h : InTurn m) (unknown : m.peers.lookup peerId = none) :
    InTurn (m.receive peerId c) := by
  intro p i item known there
  have other : p ≠ peerId := by
    rintro rfl
    rw [GroupWebRtcManager.receive, unknown] at known
    cases known
  have same : (m.receive peerId c).arrived p = m.arrived p := Function.update_of_ne other _ _
  rw [same]
  exact h p i item known there

theorem InTurn.handleIceCandidate (h : InTurn m) (fits : Fits m)
    (went : m.handleIceCandidate peerId c = some m') : InTurn m' := by
  unfold GroupWebRtcManager.handleIceCandidate at went
  cases known : m.peers.lookup peerId with
  | none =>
    rw [known] at went
    cases went
    exact h.receive_of_unknown known
  | some i =>
    rw [known] at went
    obtain ⟨item, there, rfl⟩ := Option.map_eq_some_iff.mp went
    obtain ⟨lt, -⟩ := List.getElem?_eq_some_iff.mp there
    have clean := fits.items item (List.mem_of_getElem? there)
    obtain ⟨added, collected⟩ := (h peerId i item known there).handleIceCandidate (c := c)
    have own : (m.receive peerId c).arrived peerId = m.arrived peerId ++ [c] :=
      Function.update_self _ _ _
    -- What holds of the item holds of all, for the other items and their tasks stay.
    have all : ∀ (item' : PeerConnectionItem) (tasks : List Task),
        Stage tasks (m.arrived peerId ++ [c]) i item' →
        (∀ j arrived other, Stage m.tasks arrived j other → Stage tasks arrived j other) →
        InTurn { m.receive peerId c with items := m.items.set i item', tasks := tasks } := by
      intro item' tasks stage more p j other listed present
      by_cases same : p = peerId
      · subst same
        have listed : m.peers.lookup p = some j := listed
        rw [known] at listed
        cases listed
        have present : (m.items.set i item')[i]? = some other := present
        rw [List.getElem?_set_self lt] at present
        cases present
        exact own ▸ stage
      · have ne := fits.ne_of_ne known listed same
        have present : (m.items.set i item')[j]? = some other := present
        rw [List.getElem?_set_ne ne] at present
        have kept : (m.receive peerId c).arrived p = m.arrived p := Function.update_of_ne same _ _
        have stage := more j (m.arrived p) other (h p j other listed present)
        exact kept ▸ stage
    dsimp only
    split
    · rename_i ready
      have set : item.isRemoteDescriptionSet = true := by simp_all
      exact all _ (m.tasks ++ [.adding i c]) (added set) fun j arrived other stage =>
        stage.concat id
    · rename_i unready
      refine all _ m.tasks (collected ?_) fun _ _ _ => id
      by_contra set
      have set : item.isRemoteDescriptionSet = true := eq_true_of_ne_false set
      exact unready (by rw [set, clean.set set]; rfl)

theorem current_eq_some (here : m.tasks[k]? = some t) (on : t.item? = some i)
    (there : m.items[i]? = some item) (known : m.peers.lookup item.peerId = some i) :
    m.current k = some (item, t) := by
  simp [GroupWebRtcManager.current, here, on, there, known]

theorem InTurn.resume (h : InTurn m) (fits : Fits m) (went : m.resume k o = some m')
    (gentle : ∀ p ∈ m.current k, p.2.gentle p.1 o = true) : InTurn m' := by
  rcases resume_cases went with ⟨p, sdp, t', here, next, rfl⟩ |
    ⟨t, i, item, item', t', calls, here, on, there, ran, rfl⟩
  · intro peerId i item known there
    refine (h peerId i item known there).set here id ?_
    rcases next with rfl | ⟨j, -, rfl⟩ <;> exact id
  · obtain ⟨item₀, present, described⟩ := fits.tasks t (List.mem_of_getElem? here) i on
    rw [there] at present
    cases present
    obtain ⟨-, -, -, next, -⟩ := resume_clean ran on
      (fits.items item (List.mem_of_getElem? there)) described
    intro p j other known present
    have present : (m.items.set i item')[j]? = some other := present
    rcases getElem?_set_cases present with ⟨rfl, rfl⟩ | ⟨ne, present⟩
    · obtain ⟨item₁, called, name⟩ := fits.peers p j known
      rw [there] at called
      cases called
      have current := current_eq_some here on there (name ▸ known)
      exact (h p j item known there).resume here on ran (gentle _ current)
    · refine (h p j other known present).set here (not_drains_of_item? on ne.symm) ?_
      rcases next with next | rfl
      · exact not_drains_of_item? next ne.symm
      · exact id

theorem InTurn.step {l : Label} (h : InTurn m) (fits : Fits m) (gentle : Gentle m l)
    (went : m.step l = some m') : InTurn m' := by
  cases l with
  | addPeer peerId isInitiator =>
    cases went
    exact h.addPeer fits gentle
  | handleOffer peerId sdp =>
    cases went
    unfold GroupWebRtcManager.handleOffer
    cases known : m.peers.lookup peerId with
    | some i => exact h.spawn fun _ => id
    | none => exact (h.addPeer fits gentle).spawn fun _ => id
  | handleAnswer peerId sdp =>
    cases went
    unfold GroupWebRtcManager.handleAnswer
    cases known : m.peers.lookup peerId with
    | some i => exact h.spawn fun _ => id
    | none => exact h
  | handleIceCandidate peerId c => exact h.handleIceCandidate fits went
  | removePeer peerId =>
    cases went
    unfold GroupWebRtcManager.removePeer
    split
    · exact h
    · intro p i item known there
      obtain ⟨other, known⟩ := lookup_erase_some known
      have same : Function.update m.arrived peerId [] p = m.arrived p :=
        Function.update_of_ne other _ _
      have stage := h p i item known there
      rw [← same] at stage
      exact stage
  | leave =>
    cases went
    exact nofun
  | onicecandidate i c =>
    obtain ⟨item, -, rfl⟩ := Option.map_eq_some_iff.mp went
    exact h
  | resume k o => exact h.resume fits went gentle

theorem reach_inTurn (h : group.Reach Gentle m) : Fits m ∧ InTurn m := by
  refine h.invariant (I := fun m => Fits m ∧ InTurn m) ?_ ?_
  · rintro _ rfl
    exact ⟨fits_fresh, nofun⟩
  · intro m l m' inv gentle went
    exact ⟨inv.1.step went, inv.2.step inv.1 gentle went⟩

/-- In gentle runs no candidate of a peer that is connected gets lost or is passed twice. -/
theorem candidates_served (h : group.Reach Gentle m) : Served m := by
  obtain ⟨fits, inTurn⟩ := reach_inTurn h
  intro peerId i item known there
  have clean := fits.items item (List.mem_of_getElem? there)
  refine ⟨clean.additions, ?_⟩
  cases inTurn peerId i item known there with
  | collecting unset none pending idle =>
    refine ⟨?_, fun set => ?_⟩
    · rw [PeerConnectionItem.passed, none]
      exact List.nil_subperm
    · rw [unset] at set
      cases set
  | looping k type position set here only lt perm =>
    refine ⟨(List.sublist_append_left _ _).subperm.trans perm.subperm, fun _ idle => ?_⟩
    exact absurd rfl (idle _ (List.mem_of_getElem? here))
  | through set perm idle => exact ⟨perm.subperm, fun _ _ => perm⟩

/-! ## Samples -/

namespace Sample

def candidate (text : String) : RTCIceCandidateInit :=
  ⟨text, some "0", some 0, none, .inl (by simp)⟩

/-- A task's `setRemoteDescription` is done. -/
def describe (k : Nat) : List Label := [.resume k .applied, .resume k (.resolved none)]

/-- An offer that waits behind `addPeer`, and has called `setRemoteDescription` then. -/
def offer : List Label := [.handleOffer "alice" "v=0", .resume 0 (.resolved none)]

def early : Option GroupWebRtcManager :=
  group.follow (fun _ _ => True) .fresh
    (.handleIceCandidate "alice" (candidate "first") :: offer ++ describe 0)

theorem early_isSome : early.isSome := by rfl

/-- The first of two candidates fails. -/
def broken : Option GroupWebRtcManager :=
  group.follow (fun _ _ => True) .fresh
    (offer ++ [.handleIceCandidate "alice" (candidate "first"),
      .handleIceCandidate "alice" (candidate "second")] ++ describe 0 ++ [.resume 0 .rejected])

theorem broken_isSome : broken.isSome := by rfl

/-- Two offers walk through one array. -/
def twice : Option GroupWebRtcManager :=
  group.follow (fun _ _ => True) .fresh
    (offer ++ [.handleIceCandidate "alice" (candidate "first"), .handleOffer "alice" "v=0"] ++
      describe 0 ++ describe 1)

theorem twice_isSome : twice.isSome := by rfl

/-- A candidate is lost that comes too early or behind one that fails, and one is passed twice. -/
theorem candidates_not_served :
    (∃ m, group.Reachable m ∧ m.arrived "alice" = [candidate "first"] ∧
      m.items.map PeerConnectionItem.passed = [[]] ∧ ¬ Served m) ∧
    (∃ m, group.Reachable m ∧ m.arrived "alice" = [candidate "first", candidate "second"] ∧
      m.items.map PeerConnectionItem.passed = [[candidate "first"]] ∧ ¬ Served m) ∧
    ∃ m, group.Reachable m ∧ m.arrived "alice" = [candidate "first"] ∧
      m.items.map PeerConnectionItem.passed = [[candidate "first", candidate "first"]] ∧
      ¬ Served m := by
  have start : group.Reachable .fresh := .start rfl
  refine ⟨⟨_, start.follow (Option.some_get early_isSome).symm, by rfl, by rfl, fun served => ?_⟩,
    ⟨_, start.follow (Option.some_get broken_isSome).symm, by rfl, by rfl, fun served => ?_⟩,
    ⟨_, start.follow (Option.some_get twice_isSome).symm, by rfl, by rfl, fun served => ?_⟩⟩
  · obtain ⟨-, -, all⟩ := served "alice" 0 _ (by rfl) (by rfl)
    have length := (all (by rfl) (by decide)).length_eq
    cases length
  · obtain ⟨-, -, all⟩ := served "alice" 0 _ (by rfl) (by rfl)
    have length := (all (by rfl) (by decide)).length_eq
    cases length
  · obtain ⟨-, once, -⟩ := served "alice" 0 _ (by rfl) (by rfl)
    have length : 2 ≤ 1 := once.length_le
    omega

/-- Candidates before, during and behind the loop; the last one of the loop fails. -/
def gentle : Option GroupWebRtcManager :=
  group.follow Gentle .fresh
    (offer ++ [.handleIceCandidate "alice" (candidate "first"),
      .handleIceCandidate "alice" (candidate "second")] ++ describe 0 ++
      [.handleIceCandidate "alice" (candidate "third"), .resume 0 (.resolved none),
        .resume 0 .rejected, .resume 1 .rejected, .handleIceCandidate "alice" (candidate "fourth")])

theorem gentle_isSome : gentle.isSome := by rfl

theorem candidates_served_sample : ∃ m, group.Reach Gentle m ∧
    m.items.map PeerConnectionItem.passed = [[candidate "first", candidate "third",
      candidate "second", candidate "fourth"]] ∧ Served m := by
  have start : group.Reach Gentle .fresh := .start rfl
  have reach := start.follow (Option.some_get gentle_isSome).symm
  exact ⟨_, reach, by rfl, candidates_served reach⟩

end Sample

end GenChat.Call.GroupCandidates
