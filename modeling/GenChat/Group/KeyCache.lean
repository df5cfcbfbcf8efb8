import GenChat.Group.Welcome

/-!
# The cache of application keys

The keys are kept under the group and the epoch, and nothing takes them out again. The manager
uses the key of its current state as long as no state is saved for a group and an epoch for which
another key is kept, and no key arrives for a state that has been replaced in its epoch. Then two
clients in one epoch understand each other.
-/
namespace GenChat.Group
open Library BrowserText
open Ledger (Table)
open Call (MlsLocalGroupState GroupOp)

/-! ## Runs of one client -/

/-- A browser tab: the client, the keys that are being derived, with the states that they are
derived from, and the states that methods are about to save. -/
structure Tab where
  client : Client
  derivations : List (MlsLocalGroupState × Vector UInt8 32)
  transitions : List MlsLocalGroupState
  deriving DecidableEq

/-- A method that derives the next secret has read its state when it starts, and saves the next one
when it finishes. `leaveGroup` is `advanceEpoch`, and in the end `clearLocalGroupState`. -/
inductive Event (Private : Type) where
  | createGroup (creatorUserId : String) (invited : List (String × Option MlsKeyPackageData))
      (epochSecret : Vector UInt8 32) (random : String → WelcomeRandom Private)
      (response : Option String) (persisted : Bool)
  | joinGroup (channelId myUserId : String) (welcome : Option MlsWelcomeEnvelope)
      (persisted : Bool)
  | addMember (channelId newUserId committerUserId : String) (keyPkg : Option MlsKeyPackageData)
      (random : Vector UInt8 32) (persisted : Bool)
  | advance (channelId : String) (op : GroupOp)
  | finish (n : Nat) (persisted : Bool)
  | clearLocalGroupState (channelId : String) (removed : Bool)
  | encryptGroupMessage (channelId senderId : String) (random : Vector UInt8 32) (persisted : Bool)
  | decryptGroupMessage (channelId : String)
  | derived (n : Nat)

section
variable {Private Public : Type} (W : WebCrypto Private Public)

namespace Tab

/-- The method goes on to save the next state. -/
def moveOn (tab : Tab) (state : MlsLocalGroupState) (channelId : String) (op : GroupOp) : Tab :=
  { tab with transitions := tab.transitions ++ (nextState W state channelId op).toList }

/-- `getEpochApplicationKey` starts a derivation where the cache has no key. -/
def requestKey (tab : Tab) (state : MlsLocalGroupState) : Tab :=
  match tab.client.appKeyCache.lookup (cacheKey state), deriveAppKey W state with
  | none, some appKey => { tab with derivations := tab.derivations ++ [(state, appKey)] }
  | _, _ => tab

/-- The state of `addMember` where there is none. -/
def addMemberState (channelId committerUserId : String) (random : Vector UInt8 32) :
    MlsLocalGroupState :=
  freshState channelId committerUserId "creator_root" random

def step (tab : Tab) : Event Private → Option Tab
  | .createGroup creatorUserId invited epochSecret random response persisted =>
    some <| match createGroup W creatorUserId invited epochSecret random response with
      | some (state, _) => { tab with client := tab.client.saveLocalGroupState state persisted }
      | none => tab
  | .joinGroup channelId myUserId welcome persisted =>
    some { tab with client := (tab.client.joinGroup W channelId myUserId welcome persisted).2 }
  | .addMember channelId newUserId committerUserId keyPkg random persisted =>
    let (state, client) := tab.client.stateOrFresh channelId
      (addMemberState channelId committerUserId random) persisted
    let newMemberKeyHex := match keyPkg with
      | some pkg => pkg.publicKeyHex
      | none => "auto_derived"
    some ({ tab with client := client }.moveOn W state channelId
      (.addMember newUserId newMemberKeyHex))
  | .advance channelId op =>
    some <| match tab.client.getLocalGroupState channelId with
      | (some state, client) => { tab with client := client }.moveOn W state channelId op
      | (none, client) => { tab with client := client }
  | .finish n persisted => tab.transitions[n]?.map fun state =>
    { tab with
      client := tab.client.saveLocalGroupState state persisted
      transitions := tab.transitions.eraseIdx n }
  | .clearLocalGroupState channelId removed =>
    some { tab with client := tab.client.clearLocalGroupState channelId removed }
  | .encryptGroupMessage channelId senderId random persisted =>
    let (state, client) := tab.client.stateOrFresh channelId
      (freshState channelId senderId "auto" random) persisted
    some ({ tab with client := client }.requestKey W state)
  | .decryptGroupMessage channelId =>
    some <| match tab.client.getLocalGroupState channelId with
      | (some state, client) => { tab with client := client }.requestKey W state
      | (none, client) => { tab with client := client }
  | .derived n => tab.derivations[n]?.map fun (state, appKey) =>
    { tab with
      client := { tab.client with
        appKeyCache := tab.client.appKeyCache.insert (cacheKey state) appKey }
      derivations := tab.derivations.eraseIdx n }

end Tab

/-- A page that has just been loaded, with anything in its storages. -/
def tabs : Machine Tab (Event Private) where
  start tab := tab.client.groupCache = ∅ ∧ tab.client.appKeyCache = ∅ ∧ tab.derivations = [] ∧
    tab.transitions = []
  step := Tab.step W

/-! ## Coherence -/

/-- The current state of a group. -/
def Client.current (c : Client) (channelId : String) : Option MlsLocalGroupState :=
  (c.getLocalGroupState channelId).1

/-- The key that is used for a current state is the one that its secret yields. -/
def Client.Coherent (c : Client) : Prop :=
  ∀ channelId, ∀ state ∈ c.current channelId,
    c.getEpochApplicationKey W state = deriveAppKey W state

/-- A key that is kept for the group and the epoch of the state is the one of the state. -/
def Client.Keyed (c : Client) (state : MlsLocalGroupState) : Prop :=
  ∀ appKey ∈ c.appKeyCache.lookup (cacheKey state), deriveAppKey W state = some appKey

/-- The state that a step saves, if it saves one. -/
def Tab.saves (tab : Tab) : Event Private → Option MlsLocalGroupState
  | .createGroup creatorUserId invited epochSecret random response _ =>
    (createGroup W creatorUserId invited epochSecret random response).map Prod.fst
  | .joinGroup channelId myUserId welcome persisted =>
    (tab.client.joinGroup W channelId myUserId welcome persisted).1
  | .addMember channelId _ committerUserId _ random _ =>
    if (tab.client.current channelId).isSome then none
    else some (addMemberState channelId committerUserId random)
  | .finish n _ => tab.transitions[n]?
  | .encryptGroupMessage channelId senderId random _ =>
    if (tab.client.current channelId).isSome then none
    else some (freshState channelId senderId "auto" random)
  | _ => none

/-- A state that is saved, or that is found again since the storage could not be cleared, is keyed,
and a key that arrives is the one of the states that it is kept for. -/
def Tab.InStep (tab : Tab) (event : Event Private) : Prop :=
  (∀ state ∈ tab.saves W event, tab.client.Keyed W state) ∧
    match event with
    | .clearLocalGroupState channelId false =>
      ∀ state ∈ tab.client.localStorage.lookup channelId, tab.client.Keyed W state
    | .derived n => ∀ d ∈ tab.derivations[n]?, ∀ channelId, ∀ state ∈ tab.client.current channelId,
      cacheKey state = cacheKey d.1 → deriveAppKey W state = some d.2
    | _ => True

end

/-! ## Current states -/

variable {Private Public : Type} {W : WebCrypto Private Public} {c : Client} {tab : Tab}
  {channelId g : String} {state : MlsLocalGroupState}

namespace Client

theorem current_eq (c : Client) (channelId : String) :
    c.current channelId = (c.groupCache.lookup channelId <|> c.localStorage.lookup channelId) := by
  unfold current getLocalGroupState
  cases c.groupCache.lookup channelId <;> cases c.localStorage.lookup channelId <;> rfl

/-- Two clients with the same current states and the same keys. -/
def Alike (c c' : Client) : Prop :=
  c'.current = c.current ∧ c'.appKeyCache = c.appKeyCache

/-- What has been read from the storage is read from the cache afterwards. -/
theorem alike_getLocalGroupState (c : Client) (channelId : String) :
    c.Alike (c.getLocalGroupState channelId).2 := by
  unfold getLocalGroupState
  cases cached : c.groupCache.lookup channelId with
  | some state => exact ⟨rfl, rfl⟩
  | none =>
    cases stored : c.localStorage.lookup channelId with
    | none => exact ⟨rfl, rfl⟩
    | some state =>
      refine ⟨funext fun g => ?_, rfl⟩
      rw [current_eq, current_eq]
      by_cases same : g = channelId
      · subst same
        simp [cached, stored]
      · simp [same]

theorem current_save (c : Client) (state : MlsLocalGroupState) (persisted : Bool) (g : String) :
    (c.saveLocalGroupState state persisted).current g =
      if g = state.groupId then some state else c.current g := by
  rw [current_eq, current_eq]
  by_cases same : g = state.groupId
  · subst same
    simp [saveLocalGroupState]
  · cases persisted <;> simp [saveLocalGroupState, same]

theorem current_clear (c : Client) (channelId : String) (removed : Bool) (g : String) :
    (c.clearLocalGroupState channelId removed).current g =
      if g = channelId then (if removed then none else c.localStorage.lookup channelId)
      else c.current g := by
  rw [current_eq, current_eq]
  by_cases same : g = channelId
  · subst same
    cases removed <;> simp [clearLocalGroupState]
  · cases removed <;> simp [clearLocalGroupState, same]

theorem keyed_iff : c.Keyed W state ↔
    c.getEpochApplicationKey W state = deriveAppKey W state := by
  unfold Keyed getEpochApplicationKey
  cases c.appKeyCache.lookup (cacheKey state) <;> simp [eq_comm]

theorem coherent_iff : c.Coherent W ↔ ∀ g, ∀ state ∈ c.current g, c.Keyed W state := by
  simp only [Coherent, keyed_iff]

theorem Coherent.alike {c' : Client} (h : c.Coherent W) (alike : c.Alike c') : c'.Coherent W := by
  obtain ⟨states, keys⟩ := alike
  rw [coherent_iff] at h ⊢
  rw [states]
  intro g state current
  unfold Keyed
  rw [keys]
  exact h g state current

theorem Coherent.save {persisted : Bool} (h : c.Coherent W) (keyed : c.Keyed W state) :
    (c.saveLocalGroupState state persisted).Coherent W := by
  rw [coherent_iff] at h ⊢
  intro g now current
  rw [current_save] at current
  split at current
  · cases current
    exact keyed
  · exact h g now current

theorem Coherent.clear {removed : Bool} (h : c.Coherent W)
    (stored : removed = false → ∀ state ∈ c.localStorage.lookup channelId, c.Keyed W state) :
    (c.clearLocalGroupState channelId removed).Coherent W := by
  rw [coherent_iff] at h ⊢
  intro g now current
  rw [current_clear] at current
  split at current
  · cases removed with
    | true => cases current
    | false => exact stored rfl now current
  · exact h g now current

/-- A key arrives that is the one of all current states that it is kept for. -/
theorem Coherent.insert {appKey : Vector UInt8 32} (h : c.Coherent W)
    (own : ∀ g, ∀ now ∈ c.current g, cacheKey now = cacheKey state →
      deriveAppKey W now = some appKey) :
    Coherent W { c with appKeyCache := c.appKeyCache.insert (cacheKey state) appKey } := by
  rw [coherent_iff] at h ⊢
  intro g now current key found
  rw [current_eq, ← current_eq c] at current
  obtain before | ⟨same, rfl⟩ := Ledger.lookup_insert_cases found
  · exact h g now current key before
  · exact own g now current same

theorem Coherent.stateOrFresh {fresh : MlsLocalGroupState} {persisted : Bool} (h : c.Coherent W)
    (keyed : (c.current channelId).isSome = false → c.Keyed W fresh) :
    (c.stateOrFresh channelId fresh persisted).2.Coherent W := by
  have read := h.alike (alike_getLocalGroupState c channelId)
  unfold Client.stateOrFresh
  cases found : c.getLocalGroupState channelId with
  | mk result after =>
    rw [found] at read
    cases result with
    | some state => exact read
    | none =>
      have absent : (c.current channelId).isSome = false := by simp [current, found]
      have same : after.appKeyCache = c.appKeyCache := by
        have := (alike_getLocalGroupState c channelId).2
        rwa [found] at this
      refine read.save ?_
      unfold Keyed
      rw [same]
      exact keyed absent

/-- The state that is used is the current one afterwards. -/
theorem current_stateOrFresh {fresh : MlsLocalGroupState} {p : Bool}
    (group : fresh.groupId = channelId) : (c.stateOrFresh channelId fresh p).1 ∈
      (c.stateOrFresh channelId fresh p).2.current channelId := by
  have same := (alike_getLocalGroupState c channelId).1
  unfold Client.stateOrFresh
  cases found : c.getLocalGroupState channelId with
  | mk result after =>
    rw [found] at same
    cases result with
    | some state => exact (congrFun same channelId).trans (congrArg Prod.fst found)
    | none => simp [current_save, group]

end Client

/-! ## Steps -/

theorem client_moveOn (tab : Tab) (state : MlsLocalGroupState) (channelId : String) (op : GroupOp) :
    (tab.moveOn W state channelId op).client = tab.client := rfl

theorem client_requestKey (tab : Tab) (state : MlsLocalGroupState) :
    (tab.requestKey W state).client = tab.client := by
  unfold Tab.requestKey
  split <;> rfl

theorem step_coherent {tab tab' : Tab} {event : Event Private} (h : tab.client.Coherent W)
    (ok : tab.InStep W event) (step : tab.step W event = some tab') : tab'.client.Coherent W := by
  obtain ⟨keyed, rest⟩ := ok
  cases event with
  | createGroup creator invited epochSecret random response persisted =>
    cases step
    dsimp only [Tab.saves] at keyed
    split
    · rename_i state welcomes created
      exact h.save (keyed state (by rw [created]; rfl))
    · exact h
  | joinGroup channelId myUserId welcome persisted =>
    cases step
    cases welcome with
    | none => exact h
    | some welcome => exact h.save (keyed _ rfl)
  | addMember channelId newUserId committer keyPkg random persisted =>
    cases step
    rw [client_moveOn]
    refine h.stateOrFresh fun absent => keyed _ ?_
    simp [Tab.saves, absent]
  | advance channelId op =>
    cases step
    have read := h.alike (Client.alike_getLocalGroupState tab.client channelId)
    split
    · rename_i state after found
      rw [client_moveOn]
      rwa [found] at read
    · rename_i after found
      rwa [found] at read
  | finish n persisted =>
    obtain ⟨state, begun, rfl⟩ := Option.map_eq_some_iff.mp step
    exact h.save (keyed state begun)
  | clearLocalGroupState channelId removed =>
    cases step
    refine h.clear ?_
    rintro rfl
    exact rest
  | encryptGroupMessage channelId senderId random persisted =>
    cases step
    rw [client_requestKey]
    refine h.stateOrFresh fun absent => keyed _ ?_
    simp [Tab.saves, absent]
  | decryptGroupMessage channelId =>
    cases step
    have read := h.alike (Client.alike_getLocalGroupState tab.client channelId)
    split
    · rename_i state after found
      rw [client_requestKey]
      rwa [found] at read
    · rename_i after found
      rwa [found] at read
  | derived n =>
    obtain ⟨⟨state, appKey⟩, begun, rfl⟩ := Option.map_eq_some_iff.mp step
    exact h.insert (rest _ begun)

theorem reach_coherent (h : (tabs W).Reach (Tab.InStep W) tab) : tab.client.Coherent W := by
  induction h with
  | start fresh =>
    refine Client.coherent_iff.mpr fun g state _ key found => ?_
    rw [fresh.2.1] at found
    cases found
  | step _ ok step ih => exact step_coherent ih ok step

/-! ## Messages -/

/-- Two states of one group, epoch and secret. -/
def SameEpoch (mine theirs : MlsLocalGroupState) : Prop :=
  mine.groupId = theirs.groupId ∧ mine.epoch = theirs.epoch ∧
    mine.epochSecretHex = theirs.epochSecretHex

theorem SameEpoch.deriveAppKey {mine theirs : MlsLocalGroupState} (same : SameEpoch mine theirs) :
    deriveAppKey W mine = deriveAppKey W theirs := by
  obtain ⟨group, epoch, secret⟩ := same
  simp only [Group.deriveAppKey, group, epoch, secret]

/-- The envelope of a coherent client, under the key of the state that it has used. -/
theorem encryptGroupMessage_cases {senderId plaintext : String} {random : Vector UInt8 32}
    {iv : Vector UInt8 12} {persisted : Bool} {envelope : MlsEncryptedGroupMessage}
    (h : tab.client.Coherent W)
    (ok : tab.InStep W (.encryptGroupMessage channelId senderId random persisted))
    (sent : tab.client.encryptGroupMessage W channelId senderId plaintext random iv persisted =
      some envelope) :
    ∃ appKey, deriveAppKey W (tab.client.stateOrFresh channelId
        (freshState channelId senderId "auto" random) persisted).1 = some appKey ∧
      envelope.protocol = "genchat-mls-v1" ∧ envelope.ivHex = Hex.encode iv.toList ∧
      envelope.ciphertext = W.encrypt appKey iv.toList (textEncode plaintext) := by
  have after : (tab.client.stateOrFresh channelId (freshState channelId senderId "auto" random)
      persisted).2.Coherent W := by
    refine h.stateOrFresh fun absent => ok.1 _ ?_
    simp [Tab.saves, absent]
  have current : (freshState channelId senderId "auto" random).groupId = channelId := rfl
  have used := after channelId _ (Client.current_stateOrFresh current)
  obtain ⟨appKey, key, rfl⟩ := Option.map_eq_some_iff.mp sent
  exact ⟨appKey, used.symm.trans key, rfl, rfl, rfl⟩

/-- A coherent client reads the message of another one in its epoch, except for a byte order mark
at the start. -/
theorem decryptGroupMessage_iff (correct : W.Correct) (h : c.Coherent W)
    {mine : MlsLocalGroupState} (current : mine ∈ c.current channelId)
    {envelope : MlsEncryptedGroupMessage} {appKey : Vector UInt8 32} {iv : Vector UInt8 12}
    {plaintext : String} (key : deriveAppKey W mine = some appKey)
    (protocol : envelope.protocol = "genchat-mls-v1")
    (ivHex : envelope.ivHex = Hex.encode iv.toList)
    (ciphertext : envelope.ciphertext = W.encrypt appKey iv.toList (textEncode plaintext)) :
    c.decryptGroupMessage W channelId envelope = some plaintext ↔ ¬ Marked plaintext := by
  have used : c.getEpochApplicationKey W mine = some appKey := (h channelId mine current).trans key
  have found : (c.getLocalGroupState channelId).1 = some mine := current
  have bytes : iv.toList ≠ [] := by
    intro empty
    have := congrArg List.length empty
    simp at this
  rw [← textDecode_textEncode_iff]
  simp [Client.decryptGroupMessage, protocol, found, used, ivHex, hexBytes_encode bytes, ciphertext,
    correct.decrypts]

namespace Sample

/-- The states that are current belong to groups of the storages. -/
theorem forall_current_iff {φ : MlsLocalGroupState → Prop} :
    (∀ channelId ∈ c.groupCache.keys ++ c.localStorage.keys, ∀ state ∈ c.current channelId,
      φ state) ↔ ∀ channelId, ∀ state ∈ c.current channelId, φ state := by
  refine ⟨fun known channelId state found => known channelId ?_ state found,
    fun all channelId _ => all channelId⟩
  rw [Client.current_eq, Option.mem_def, Option.orElse_eq_some] at found
  rcases found with cached | ⟨-, stored⟩
  · exact List.mem_append_left _ (AList.lookup_isSome.mp (Option.isSome_of_eq_some cached))
  · exact List.mem_append_right _ (AList.lookup_isSome.mp (Option.isSome_of_eq_some stored))

instance (c : Client) (state : MlsLocalGroupState) : Decidable (c.Keyed W state) := by
  unfold Client.Keyed; infer_instance

instance (tab : Tab) (event : Event Private) : Decidable (tab.InStep W event) := by
  have own (d : MlsLocalGroupState × Vector UInt8 32) : Decidable (∀ channelId,
      ∀ state ∈ tab.client.current channelId, cacheKey state = cacheKey d.1 →
        deriveAppKey W state = some d.2) := decidable_of_iff _ forall_current_iff
  unfold Tab.InStep
  cases event with
  | clearLocalGroupState channelId removed => cases removed <;> infer_instance
  | _ => infer_instance

def emptyTab : Tab := ⟨⟨∅, ∅, ∅, ∅⟩, [], []⟩

theorem emptyTab_start : (tabs crypto).start emptyTab := ⟨rfl, rfl, rfl, rfl⟩

def bobWrites : List (Event UInt8) :=
  [.encryptGroupMessage "chan_g" "bob" (Vector.replicate 32 7) true, .derived 0]

def bobJoins : Event UInt8 :=
  .joinGroup "chan_g" "bob" (some ⟨"", 0, "alice", "", sampleSecret.toList, [],
    [⟨0, "alice", "creator_root_key"⟩, bobMember]⟩) true

/-- Bob has written into the group before the Welcome comes. -/
def early : Option Tab :=
  (tabs crypto).follow (fun _ _ => True) emptyTab (bobWrites ++ [bobJoins])

theorem early_isSome : early.isSome := by rfl

/-- Bob joins first. -/
def inOrder : Option Tab :=
  (tabs crypto).follow (Tab.InStep crypto) emptyTab (bobJoins :: bobWrites)

theorem inOrder_isSome : inOrder.isSome := by rfl

end Sample

end GenChat.Group
