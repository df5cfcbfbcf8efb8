import GenChat.E2ee.InitUserKeys

/-!
# Whether published pre-keys stay answerable

`initUserKeys` keeps one identity bundle in `localStorage` and publishes its public half. As long as
it writes new keys there only when it has found none, every bundle that the server has handed out is
one of that half. A call that finds keys but is told a key count of 0, or gets an error status,
replaces them all: the identity changes, and messages to the bundles handed out before are answered
with other secrets.
-/
namespace GenChat.E2ee
open Library Pqxdh

/-! ## Answers -/

section Answers
variable {Block Bytes : Type} {P : Primitives Block Bytes} {seeds : KeySeeds Block}

/-- The holder of generated keys answers every message to a bundle of their public halves. -/
theorem answers_own (hP : P.Correct) (few : seeds.oneTimePreKeys.length < 2 ^ 32 - 1) {empty : Bytes}
    {published : WasmPublicPreKeyBundle Block Bytes} {sender : WasmIdentityBundle Block Bytes}
    {ephemeral : X25519KeyPair Block} {random : Block} {out : WasmHandshakeInitResult Block Bytes}
    (own : { published with oneTimePreKeys := (seeds.publicBundle P).oneTimePreKeys } =
      seeds.publicBundle P)
    (keys : ∀ k ∈ published.oneTimePreKeys.head?, k ∈ (seeds.publicBundle P).oneTimePreKeys)
    (sent : initiatePqxdhHandshake P empty sender published ephemeral random = .ok out) :
    ∃ secret, out.sharedSecretHex = .ok secret ∧
      receivePqxdhHandshake P (seeds.identityBundle P) out.initMessage = .ok secret := by
  obtain ⟨aliceEd, aliceX, bundle, r, -, -, decoded, init, rfl⟩ := initiatePqxdhHandshake_ok sent
  obtain ⟨otk, honest, found⟩ : ∃ otk : Option (UInt32 × X25519KeyPair Block),
      bundle = honestBundle P ⟨seeds.identity⟩ ⟨seeds.identityX25519⟩ ⟨seeds.signedPreKey⟩
        (.generate P seeds.pqPreKey) otk 1 1 ∧
      (otk.map Prod.fst).bind (seeds.identityBundle P).oneTimeKeyPair = otk.map Prod.snd := by
    obtain ⟨identity, x25519, spkId, spk, spkSig, pqId, pq, pqSig, oneTime⟩ := published
    cases own
    cases oneTime with
    | nil => exact ⟨none, (Except.ok.inj decoded).symm, rfl⟩
    | cons k rest =>
      obtain ⟨i, lt, hk⟩ := List.mem_mapIdx.mp (keys k rfl)
      refine ⟨some (UInt32.ofNat (i + 1), ⟨seeds.oneTimePreKeys[i]⟩), ?_, ?_⟩
      · rw [← hk] at decoded
        exact (Except.ok.inj decoded).symm
      · exact oneTimeKeyPair_found few (List.getElem?_eq_getElem lt)
  subst honest
  have agreed := pqxdh_agreement hP seeds.pqPreKey otk 1 1 init
  refine ⟨_, rfl, receive_ok_iff.mpr ⟨_, _, _, _, _, r.derived, rfl, rfl, rfl, rfl, rfl, ?_, rfl⟩⟩
  have used : r.initMessage.usedOneTimeKeyId = otk.map Prod.fst := by
    obtain ⟨-, ct, ss, -, -, message⟩ := initiatePqxdh_ok init
    rw [message]
    cases otk <;> rfl
  rw [used, found]
  exact agreed

end Answers

/-! ## Runs -/

variable {C : Suite} {userId : String} {d d' : Device C} {op : DeviceOp C} {c : DeviceChoice C}
  {own : IdentityBundle C} {b : PublicBundle C}

variable (C) in
/-- Calls of `initUserKeys` for one user on one device, each with an access token. -/
abbrev identityService (userId deviceId : String) :
    Service (DeviceOp C) (DeviceRet C) Bool String Device.Event :=
  deviceService userId fun accessToken => onService (initUserKeys userId deviceId accessToken)

/-- Keys of the user are written only where none are stored, and the write succeeds. -/
def DeviceOp.firstKeys (userId : String) (d : Device C) (c : DeviceChoice C) : DeviceOp C → Bool
  | .service (.persistIdentity storageKey _) =>
    storageKey ≠ identityStorageKey userId ∨ (d.stored userId).isNone ∧ c.fails = false
  | _ => true

def FirstKeys {deviceId : String} (p : Pool (identityService C userId deviceId)) :
    PoolLabel (identityService C userId deviceId) → Prop
  | .run i c => ∀ x ∈ p.next i, x.2.firstKeys userId p.shared c
  | _ => True

instance {deviceId : String} : ∀ (p : Pool (identityService C userId deviceId)) l,
    Decidable (FirstKeys p l)
  | p, .run i c => inferInstanceAs (Decidable (∀ x ∈ p.next i, x.2.firstKeys userId p.shared c))
  | _, .spawn _ => instDecidableTrue
  | _, .env _ => instDecidableTrue

/-- A peer that builds a message from the bundle gets the answer of the holder of the keys. -/
def Device.Answers (d : Device C) (userId : String) (b : PublicBundle C) : Prop :=
  ∃ own, d.stored userId = some own ∧ ∀ sender ephemeral random out,
    initiatePqxdhHandshake C.pqxdh C.empty sender b ephemeral random = .ok out →
      ∃ secret, out.sharedSecretHex = .ok secret ∧
        receivePqxdhHandshake C.pqxdh own out.initMessage = .ok secret

/-! ## One public half -/

/-- Whatever the server keeps or has handed out is of the public half of these keys. -/
structure Published (own : IdentityBundle C) (d : Device C) : Prop where
  identityKey : ∀ key ∈ d.rows.identityKey,
    key = ((publicHalf own).identityKeyHex, (publicHalf own).identityKeyX25519Hex)
  preKeys : ∀ row ∈ d.rows.preKeys, row = PublicBundle.row (publicHalf own)
  oneTimeKeys : ∀ k ∈ d.rows.oneTimeKeys, ⟨k.keyId, k.publicKey⟩ ∈ (publicHalf own).oneTimePreKeys
  handedOut : ∀ b ∈ d.handedOut,
    { b with oneTimePreKeys := (publicHalf own).oneTimePreKeys } = publicHalf own ∧
      ∀ k ∈ b.oneTimePreKeys, k ∈ (publicHalf own).oneTimePreKeys

def Device.Sound (userId : String) (d : Device C) : Prop :=
  match d.stored userId with
  | none => d.rows = .empty ∧ d.handedOut = []
  | some own => Generated own ∧ Published own d

theorem Device.Sound.cases (h : d.Sound userId) :
    (d.stored userId = none ∧ d.rows = .empty ∧ d.handedOut = []) ∨
      ∃ own, d.stored userId = some own ∧ Generated own ∧ Published own d := by
  unfold Sound at h
  split at h
  · exact .inl ⟨‹_›, h⟩
  · exact .inr ⟨_, ‹_›, h⟩

theorem Device.Sound.of_stored (found : d.stored userId = some own) (generated : Generated own)
    (published : Published own d) : d.Sound userId := by
  simp only [Sound, found]
  exact ⟨generated, published⟩

/-- A bundle that has been handed out is answered. -/
theorem Device.Sound.answers (hP : C.pqxdh.Correct) (h : d.Sound userId) (mem : b ∈ d.handedOut) :
    d.Answers userId b := by
  rcases h.cases with ⟨-, -, none'⟩ | ⟨own, found, ⟨seeds, thirty, rfl⟩, published⟩
  · rw [none'] at mem
    cases mem
  · have few : seeds.oneTimePreKeys.length < 2 ^ 32 - 1 := by omega
    obtain ⟨half, keys⟩ := published.handedOut b mem
    rw [← publicBundle_eq] at half keys
    refine ⟨_, found, fun sender ephemeral random out sent => ?_⟩
    exact answers_own hP few half (fun k hk => keys k (List.mem_of_mem_head? hk)) sent

/-! ## The contract of a call -/

/-- Keys that a call stores are generated, and keys that it publishes are stored. -/
def DeviceOp.Allowed (userId : String) (d : Device C) : DeviceOp C → Prop
  | .service (.persistIdentity _ bundle) => Generated bundle
  | .service (.publishPreKeyBundle bundle _ _) =>
    ∃ own, d.stored userId = some own ∧ bundle = publicHalf own
  | .uploadOneTimeKeys _ _ _ => False
  | _ => True

def identityContract (userId : String) : Contract (deviceSystem C) where
  inv d := d.Sound userId
  rely d d' := ∀ own, d.stored userId = some own → d'.stored userId = some own
  rely_refl _ _ := id
  rely_trans h h' own found := h' own (h own found)
  admits d op c := op.firstKeys userId d c
  req d op := op.Allowed userId d

theorem Published.congr (h : Published own d) (rows : d'.rows = d.rows)
    (handedOut : d'.handedOut = d.handedOut) : Published own d' :=
  ⟨rows ▸ h.identityKey, rows ▸ h.preKeys, rows ▸ h.oneTimeKeys, handedOut ▸ h.handedOut⟩

theorem Published.publish (h : Published own d) (u : Upload) :
    Published own { d with rows := (d.rows.publish (publicHalf own) u).2 } := by
  obtain ⟨identity, pre, oneTime⟩ := d.rows.publish_cases (publicHalf own) u
  refine ⟨fun key hk => ?_, fun row hr => ?_, fun k hk => ?_, h.handedOut⟩
  · rcases identity with same | new
    · exact h.identityKey key (same ▸ hk)
    · rw [new] at hk
      exact (Option.some.inj hk).symm
  · rcases pre with same | new
    · exact h.preKeys row (same ▸ hr)
    · rw [new] at hr
      exact (Option.some.inj hr).symm
  · rcases oneTime with same | ⟨-, inserted, stored, same⟩
    · exact h.oneTimeKeys k (same ▸ hk)
    · obtain ⟨-, rfl⟩ := KeyRows.insertKeys_eq_some.mp stored
      rw [same] at hk
      rcases List.mem_append.mp hk with old | new
      · exact h.oneTimeKeys k old
      · obtain ⟨k', mem, rfl⟩ := List.mem_map.mp new
        exact mem

theorem Published.fetch {oneTimeKey : Option UInt32} (h : Published own d)
    (step : d.event (.fetch oneTimeKey) = some d') : Published own d' := by
  obtain ⟨⟨b, rows⟩, fetched, step⟩ := Option.map_eq_some_iff.mp step
  cases step
  obtain ⟨identityKey, row, hi, hr, rest⟩ := KeyRows.fetch_cases fetched
  cases h.identityKey identityKey hi
  cases h.preKeys row hr
  have handedOut (keys : List (WasmOneTimePublicKey C.Block))
      (hk : ∀ k ∈ keys, k ∈ (publicHalf own).oneTimePreKeys) :
      ∀ b' ∈ d.handedOut ++ [KeyRows.bundle
          ((publicHalf own).identityKeyHex, (publicHalf own).identityKeyX25519Hex)
          (PublicBundle.row (publicHalf own)) keys],
        { b' with oneTimePreKeys := (publicHalf own).oneTimePreKeys } = publicHalf own ∧
          ∀ k ∈ b'.oneTimePreKeys, k ∈ (publicHalf own).oneTimePreKeys := by
    intro b' mem
    rcases List.mem_append.mp mem with old | new
    · exact h.handedOut b' old
    · rw [List.mem_singleton.mp new]
      exact ⟨rfl, hk⟩
  rcases rest with ⟨rfl, rfl⟩ | ⟨k, mem, -, rfl, rfl⟩
  · exact ⟨h.identityKey, h.preKeys, h.oneTimeKeys, handedOut [] nofun⟩
  · refine ⟨h.identityKey, h.preKeys, fun k' mem' => ?_, handedOut _ ?_⟩
    · obtain ⟨k'', old, rfl⟩ := List.mem_map.mp mem'
      split
      · exact h.oneTimeKeys k'' old
      · exact h.oneTimeKeys k'' old
    · intro k' mem'
      rw [List.mem_singleton.mp mem']
      exact h.oneTimeKeys k mem

/-- The first keys of the user stay, and what is published is their public half. -/
theorem Device.Sound.moves (h : d.Sound userId) (allowed : op.Allowed userId d)
    (first : op.firstKeys userId d c) (moves : op.Moves d c d') :
    d'.Sound userId ∧ ∀ own, d.stored userId = some own → d'.stored userId = some own := by
  cases moves with
  | keep identities rows handedOut =>
    have same : d'.stored userId = d.stored userId := by simp only [stored, identities]
    refine ⟨?_, fun own found => same.trans found⟩
    simp only [Sound, same] at h ⊢
    cases found : d.stored userId with
    | none =>
      simp only [found] at h
      exact ⟨rows.trans h.1, handedOut.trans h.2⟩
    | some own =>
      simp only [found] at h
      exact ⟨h.1, h.2.congr rows handedOut⟩
  | @persist storageKey bundle c fine =>
    let d' : Device C := { d with client := { d.client with
      identities := d.client.identities.insert storageKey bundle } }
    change d'.Sound userId ∧ _
    by_cases ours : storageKey = identityStorageKey userId
    · -- There have been no keys of the user, so nothing has been published.
      have none' : d.stored userId = none := by simpa [DeviceOp.firstKeys, ours, fine] using first
      have found : d'.stored userId = some bundle := by
        rw [Device.stored, ← ours]
        exact AList.lookup_insert _
      rcases h.cases with ⟨-, rows, handedOut⟩ | ⟨own, found', -⟩
      · refine ⟨.of_stored found allowed ?_, fun own found' => ?_⟩
        · have empty : d'.rows = .empty := rows
          have nothing : d'.handedOut = [] := handedOut
          exact ⟨by simp [empty, KeyRows.empty], by simp [empty, KeyRows.empty],
            by simp [empty, KeyRows.empty], by simp [nothing]⟩
        · rw [none'] at found'
          cases found'
      · rw [none'] at found'
        cases found'
    · have same : d'.stored userId = d.stored userId := AList.lookup_insert_ne (Ne.symm ours)
      refine ⟨?_, fun own found => same.trans found⟩
      rcases h.cases with ⟨none', rows, handedOut⟩ | ⟨own, found, generated, published⟩
      · simp only [Sound, same, none']
        exact ⟨rows, handedOut⟩
      · exact .of_stored (same.trans found) generated (published.congr rfl rfl)
  | @publish bundle _ _ u =>
    obtain ⟨own, found, rfl⟩ := allowed
    rcases h.cases with ⟨none', -⟩ | ⟨own', found', generated, published⟩
    · rw [none'] at found
      cases found
    · cases found.symm.trans found'
      exact ⟨.of_stored found generated (published.publish u), fun _ => id⟩
  | insert => exact allowed.elim

theorem Device.Sound.event {e : Device.Event} (h : d.Sound userId)
    (step : d.event e = some d') : d'.Sound userId ∧ d'.stored userId = d.stored userId := by
  cases e with
  | reload =>
    cases step
    refine ⟨?_, rfl⟩
    rcases h.cases with ⟨none', rows, handedOut⟩ | ⟨own, found, generated, published⟩
    · have same : ({ d with
          client := { Client.new C with
            sessions := d.client.sessions, identities := d.client.identities }
          isChecking := false } : Device C).stored userId = none := none'
      simp only [Sound, same]
      exact ⟨rows, handedOut⟩
    · exact .of_stored found generated (published.congr rfl rfl)
  | fetch oneTimeKey =>
    have same : d'.stored userId = d.stored userId := by
      obtain ⟨r, -, step⟩ := Option.map_eq_some_iff.mp step
      cases step
      rfl
    refine ⟨?_, same⟩
    rcases h.cases with ⟨none', rows, handedOut⟩ | ⟨own, found, generated, published⟩
    · simp [Device.event, rows, KeyRows.fetch, KeyRows.empty] at step
    · exact .of_stored (same.trans found) generated (published.fetch step)

theorem identityContract_keeps : KeepsKeys (C := C) (identityContract userId) userId
    fun own d => d.stored userId = some own where
  free d op still := by
    cases op with
    | service op => cases op <;> first | exact trivial | cases still
    | uploadOneTimeKeys => cases still
    | _ => trivial
  persist _ _ generated := generated
  stored d own c r d' _ first hr := by
    have first : (d.stored userId).isNone ∧ c.fails = false := by
      simpa [identityContract, DeviceOp.firstKeys] using first
    exact persist_stored hr first.2
  stable found kept := kept _ found
  publish found := ⟨_, found, rfl⟩

variable (C) in
def identityProtocol (userId deviceId : String) :
    Pool.Protocol (identityService C userId deviceId) FirstKeys where
  contract _ := identityContract userId
  inv d := d.Sound userId
  rely d d' := ∀ own, d.stored userId = some own → d'.stored userId = some own
  contract_inv _ := rfl
  contract_rely _ := rfl
  admitted p i c t op k hok thread := hok _ (Pool.next_call thread)
  init d h := by
    simp only [Device.Sound, h.1]
    exact h.2
  exec _ _ _ _ _ _ inv req admits hr := inv.moves req admits (Device.exec_moves hr)
  env _ _ _ _ inv step :=
    have after := inv.event step
    ⟨after.1, fun _ found => after.2.trans found⟩
  body _ accessToken _ _ := initUserKeys_meets identityContract_keeps _ accessToken _

/-! ## Stability -/

section Stability
variable {deviceId : String} {p q : Pool (identityService C userId deviceId)}

theorem step_stored {l : PoolLabel (identityService C userId deviceId)}
    (hp : (Pool.machine (identityService C userId deviceId)).Reach FirstKeys p)
    (first : FirstKeys p l) (step : p.step l = some q) :
    ∀ own, p.shared.stored userId = some own → q.shared.stored userId = some own := by
  obtain ⟨sound, -⟩ := Pool.safe (identityProtocol C userId deviceId) hp
  cases l with
  | spawn accessToken =>
    cases step
    exact fun _ => id
  | run i c =>
    obtain ⟨t, op, k, r, d, thread, hr, rfl⟩ := Pool.run_cases step
    have allowed := Pool.safe_next (identityProtocol C userId deviceId) hp thread
    exact (sound.moves allowed (first _ (Pool.next_call thread)) (Device.exec_moves hr)).2
  | env e =>
    obtain ⟨d, hd, rfl⟩ := Pool.env_cases step
    exact fun own found => (sound.event hd).2.trans found

/-- The identity keys of the user never change once they are there, and every bundle that the
server has ever handed out is answered, with each one-time key in one bundle only. -/
theorem identity_stable (hP : C.pqxdh.Correct)
    (hp : (Pool.machine (identityService C userId deviceId)).Reach FirstKeys p)
    (later : ((Pool.machine (identityService C userId deviceId)).resume p).Reach FirstKeys q) :
    (∀ own, p.shared.stored userId = some own → q.shared.stored userId = some own) ∧
      (∀ b ∈ q.shared.handedOut, q.shared.Answers userId b) ∧ q.shared.taken.Nodup := by
  have reach : (Pool.machine (identityService C userId deviceId)).Reach FirstKeys q ∧
      ∀ own, p.shared.stored userId = some own → q.shared.stored userId = some own := by
    induction later with
    | start same =>
      cases same
      exact ⟨hp, fun _ => id⟩
    | step _ first step ih =>
      obtain ⟨hq, kept⟩ := ih
      exact ⟨hq.step first step, fun own found => step_stored hq first step own (kept own found)⟩
  obtain ⟨hq, kept⟩ := reach
  have sound := (Pool.safe (identityProtocol C userId deviceId) hq).1
  exact ⟨kept, fun b mem => sound.answers hP mem, (Device.taken_once hq.reachable).taken⟩

end Stability

/-! ## Bob's browser -/

namespace Sample
open Pqxdh.Symbolic

abbrev identity := Pool.machine (identityService suite "bob" "d")

def called (thread : Nat) (choices : List (DeviceChoice suite)) :
    List (PoolLabel (identityService suite "bob" "d")) :=
  .spawn "token" :: choices.map fun c => .run thread c

/-- The first call, after which Alice fetches a bundle with the one-time key 1. -/
def published : List (PoolLabel (identityService suite "bob" "d")) :=
  called 0 firstCall ++ [.env (.fetch (some 1))]

/-- A second call that is told a key count. -/
def counted (n : Nat) : List (DeviceChoice suite) :=
  List.replicate 5 (.service .ok) ++ [.service (.count (some n))]

/-- It makes new keys and publishes them. -/
def renewed : List (DeviceChoice suite) :=
  [.service (.seeds (seeds 200)), .service .ok, .service .ok, .service .ok, .upload wholeUpload]

def first : Option (Pool (identityService suite "bob" "d")) :=
  identity.follow FirstKeys (Pool.start _ ⟨.new suite, false, .empty, []⟩) published

theorem first_isSome : first.isSome := by rfl

def second : Option (Pool (identityService suite "bob" "d")) :=
  (identity.resume (first.get first_isSome)).follow FirstKeys (first.get first_isSome)
    (called 1 (counted 29))

theorem second_isSome : second.isSome := by rfl

def regenerated : Option (Pool (identityService suite "bob" "d")) :=
  (identity.resume (first.get first_isSome)).follow (fun _ _ => True) (first.get first_isSome)
    (called 1 (counted 0 ++ renewed))

theorem regenerated_isSome : regenerated.isSome := by rfl

theorem first_reach : identity.Reach FirstKeys (first.get first_isSome) := by
  have start : identity.Reach FirstKeys (Pool.start _ ⟨.new suite, false, .empty, []⟩) :=
    .start ⟨_, ⟨rfl, rfl, rfl⟩, rfl⟩
  exact start.follow (Option.some_get first_isSome).symm

/-- Alice's message to the bundle that she has fetched. -/
def message (b : PublicBundle suite) : Except JsError (WasmHandshakeInitResult Term Data) :=
  initiatePqxdhHandshake symbolic .empty ((seeds 0).identityBundle symbolic) b ⟨.atom 50⟩ (.atom 51)

/-- Alice's message is answered with another secret, if at all. -/
def missed (own : Option (IdentityBundle suite)) (b : PublicBundle suite) : Bool :=
  match own, message b with
  | some own, .ok out =>
    out.sharedSecretHex.toOption ≠ (receivePqxdhHandshake symbolic own out.initMessage).toOption
  | _, _ => false

theorem not_answers {d : Device suite} {b : PublicBundle suite}
    (h : missed (d.stored "bob") b) : ¬ d.Answers "bob" b := by
  rintro ⟨own, found, answers⟩
  unfold missed at h
  rw [found] at h
  split at h
  · rename_i own' out same sent
    cases same
    obtain ⟨secret, one, two⟩ := answers _ _ _ out sent
    have two : receivePqxdhHandshake symbolic own out.initMessage = .ok secret := two
    rw [one, two] at h
    exact absurd rfl (of_decide_eq_true h)
  · cases h

theorem firstKeys_isSome : ((first.get first_isSome).shared.stored "bob").isSome := by
  rfl

theorem newKeys_isSome : ((regenerated.get regenerated_isSome).shared.stored "bob").isSome := by
  rfl

theorem fetched_isSome : (regenerated.get regenerated_isSome).shared.handedOut.head?.isSome := by
  rfl

/-- A call that is told a key count of 0 replaces the identity, and Alice's message to the bundle
that she has fetched before is lost. -/
theorem identity_replaced : ∃ p q own own', identity.Reachable p ∧
    (identity.resume p).Reach (fun _ _ => True) q ∧ p.shared.stored "bob" = some own ∧
    q.shared.stored "bob" = some own' ∧
    own.identityKeyEd25519PubHex ≠ own'.identityKeyEd25519PubHex ∧
    ∃ b ∈ q.shared.handedOut, ¬ q.shared.Answers "bob" b := by
  have start : (identity.resume (first.get first_isSome)).Reach (fun _ _ => True)
    (first.get first_isSome) := .start rfl
  exact ⟨_, _, _, _, first_reach.reachable,
    start.follow (Option.some_get regenerated_isSome).symm,
    (Option.some_get firstKeys_isSome).symm, (Option.some_get newKeys_isSome).symm,
    by decide, _, List.mem_of_mem_head? (Option.get_mem fetched_isSome),
    not_answers (by rfl)⟩

/-- A call that is told that keys are left changes nothing. -/
theorem identity_stable_sample : ∃ p q, identity.Reach FirstKeys p ∧
    (identity.resume p).Reach FirstKeys q ∧ (p.shared.stored "bob").isSome ∧
    q.shared.handedOut.length = 1 ∧
    (∀ own, p.shared.stored "bob" = some own → q.shared.stored "bob" = some own) ∧
    (∀ b ∈ q.shared.handedOut, q.shared.Answers "bob" b) ∧ q.shared.taken.Nodup := by
  have start : (identity.resume (first.get first_isSome)).Reach FirstKeys
    (first.get first_isSome) := .start rfl
  have later := start.follow (Option.some_get second_isSome).symm
  exact ⟨_, _, first_reach, later, by rfl, by rfl,
    identity_stable (C := suite) symbolic_correct first_reach later⟩

end Sample

end GenChat.E2ee
