import GenChat.E2ee.Service
import GenChat.Pqxdh.Agreement

/-!
# The pre-keys of a device

`initUserKeys` and `PreKeyManager.checkAndReplenish` on one device, with what the key service keeps
for it and the bundles that peers have fetched. The server answers a key count with any number, a
request may fail at any point, and the one-time keys of a request go in together or not at all:
`UNIQUE(device_id, key_id)` holds of consumed keys too.
-/
namespace GenChat.E2ee
open Library Pqxdh

/-! ## The key service -/

/-- A row of `device_one_time_keys`. -/
structure PoolKey (C : Suite) where
  keyId : UInt32
  publicKey : HexText C.Block
  isConsumed : Bool

/-- The row of `device_pre_keys`. -/
structure PreKeyRow (C : Suite) where
  signedPreKeyId : UInt32
  signedPreKey : HexText C.Block
  signedPreKeySignature : HexText C.Bytes
  pqPreKeyId : UInt32
  pqPreKey : HexText C.Bytes
  pqPreKeySignature : HexText C.Bytes

/-- What the key service keeps for the device: nothing until a request has stored it. -/
structure KeyRows (C : Suite) where
  /-- The Ed25519 and the X25519 key in `identity_key`. -/
  identityKey : Option (HexText C.Block × HexText C.Block)
  preKeys : Option (PreKeyRow C)
  oneTimeKeys : List (PoolKey C)

/-- How far a request to `UploadPreKeyBundle` gets, and whether its response arrives. -/
structure Upload where
  identityKey : Bool
  preKeys : Bool
  oneTimeKeys : Bool
  answered : Bool
  deriving DecidableEq

variable {C : Suite}

def PublicBundle.row (bundle : PublicBundle C) : PreKeyRow C where
  signedPreKeyId := bundle.signedPreKeyId
  signedPreKey := bundle.signedPreKeyPublicHex
  signedPreKeySignature := bundle.signedPreKeySignatureHex
  pqPreKeyId := bundle.pqPreKeyId
  pqPreKey := bundle.pqPreKeyPublicHex
  pqPreKeySignature := bundle.pqPreKeySignatureHex

namespace KeyRows

def empty : KeyRows C := ⟨none, none, []⟩

def ids (rows : KeyRows C) : List UInt32 := rows.oneTimeKeys.map PoolKey.keyId

/-- `UploadOneTimeKeys` of the store, which a key id fails that the device has had before. -/
def insertKeys (rows : KeyRows C) (keys : List (WasmOneTimePublicKey C.Block)) :
    Option (KeyRows C) :=
  if (rows.ids ++ keys.map WasmOneTimePublicKey.keyId).Nodup then
    some { rows with
      oneTimeKeys := rows.oneTimeKeys ++ keys.map fun k => ⟨k.keyId, k.publicKeyHex, false⟩ }
  else none

/-- `UploadPreKeyBundle`: whether the client sees it succeed, and the rows afterwards. -/
def publish (rows : KeyRows C) (bundle : PublicBundle C) (u : Upload) : Bool × KeyRows C :=
  let rows := if u.identityKey then
    { rows with identityKey := some (bundle.identityKeyHex, bundle.identityKeyX25519Hex) }
    else rows
  let rows := if u.preKeys then { rows with preKeys := some (PublicBundle.row bundle) } else rows
  match rows.insertKeys bundle.oneTimePreKeys with
  | some inserted =>
    if u.preKeys ∧ u.oneTimeKeys then (u.answered, inserted) else (false, rows)
  | none => (false, rows)

/-- The bundle in a response of `FetchPreKeyBundle`. -/
def bundle (identityKey : HexText C.Block × HexText C.Block) (row : PreKeyRow C)
    (oneTimePreKeys : List (WasmOneTimePublicKey C.Block)) : PublicBundle C where
  identityKeyHex := identityKey.1
  identityKeyX25519Hex := identityKey.2
  signedPreKeyId := row.signedPreKeyId
  signedPreKeyPublicHex := row.signedPreKey
  signedPreKeySignatureHex := row.signedPreKeySignature
  pqPreKeyId := row.pqPreKeyId
  pqPreKeyPublicHex := row.pqPreKey
  pqPreKeySignatureHex := row.pqPreKeySignature
  oneTimePreKeys := oneTimePreKeys

def consume (rows : KeyRows C) (id : UInt32) : KeyRows C :=
  { rows with oneTimeKeys := rows.oneTimeKeys.map fun k =>
      if k.keyId = id then { k with isConsumed := true } else k }

/-- `FetchPreKeyBundle`, with the unconsumed one-time key that it takes, if it takes one. -/
def fetch (rows : KeyRows C) (oneTimeKey : Option UInt32) :
    Option (PublicBundle C × KeyRows C) :=
  match rows.identityKey, rows.preKeys with
  | some identityKey, some row =>
    match oneTimeKey with
    | none => some (bundle identityKey row [], rows)
    | some id => (rows.oneTimeKeys.find? fun k => k.keyId = id ∧ ¬ k.isConsumed).map fun k =>
      (bundle identityKey row [⟨k.keyId, k.publicKey⟩], rows.consume id)
  | _, _ => none

end KeyRows

/-! ## The device -/

structure Device (C : Suite) where
  client : Client C
  isChecking : Bool
  rows : KeyRows C
  /-- The bundles that peers have fetched. -/
  handedOut : List (PublicBundle C)

variable (C) in
inductive DeviceOp where
  | service (op : Op C)
  | isChecking
  | setChecking (b : Bool)
  /-- `GetKeyCount`; nothing for an error. -/
  | poolCount (deviceId token : String)
  /-- `Date.now()`. -/
  | dateNow
  /-- One call of `getRandomValues` for each key. -/
  | randomKeys (count : Nat)
  | uploadOneTimeKeys (deviceId : String) (keys : List (WasmOneTimePublicKey C.Block))
    (token : String)

variable (C) in
abbrev DeviceRet : DeviceOp C → Type
  | .service op => Ret C op
  | .isChecking => Bool
  | .setChecking _ => Unit
  | .poolCount _ _ => Option Nat
  | .dateNow => Nat
  | .randomKeys _ => List C.Block
  | .uploadOneTimeKeys _ _ _ => Bool

variable (C) in
inductive DeviceChoice where
  | ok
  | service (c : Choice C)
  | upload (u : Upload)
  | count (n : Option Nat)
  | time (milliseconds : Nat)
  | keys (keys : List C.Block)
  | fail
  /-- The keys go in, but the response is lost. -/
  | failApplied

namespace Device

def exec (d : Device C) : (op : DeviceOp C) → DeviceChoice C → Option (DeviceRet C op × Device C)
  | .service (.publishPreKeyBundle bundle _ _), c => match c with
    | .upload u =>
      let stored := d.rows.publish bundle u
      some (stored.1, { d with rows := stored.2 })
    | _ => none
  | .service op, .service c =>
    (d.client.exec op c).map fun r => (r.1, { d with client := r.2 })
  | .isChecking, .ok => some (d.isChecking, d)
  | .setChecking b, .ok => some ((), { d with isChecking := b })
  | .poolCount _ _, .count n => some (n, d)
  | .dateNow, .time ms => some (ms, d)
  | .randomKeys count, .keys keys => if keys.length = count then some (keys, d) else none
  | .uploadOneTimeKeys _ keys _, .ok => match d.rows.insertKeys keys with
    | some rows => some (true, { d with rows := rows })
    | none => some (false, d)
  | .uploadOneTimeKeys _ keys _, .failApplied =>
    (d.rows.insertKeys keys).map fun rows => (false, { d with rows := rows })
  | .uploadOneTimeKeys _ _ _, .fail => some (false, d)
  | _, _ => none

/-- What happens between the operations: the page is loaded again, or a peer fetches a bundle. -/
inductive Event where
  | reload
  | fetch (oneTimeKey : Option UInt32)

def event (d : Device C) : Event → Option (Device C)
  | .reload => some { d with
      client := { Client.new C with
        sessions := d.client.sessions, identities := d.client.identities }
      isChecking := false }
  | .fetch oneTimeKey => (d.rows.fetch oneTimeKey).map fun r =>
    { d with rows := r.2, handedOut := d.handedOut ++ [r.1] }

/-- The identity bundle in `localStorage`. -/
def stored (d : Device C) (userId : String) : Option (IdentityBundle C) :=
  d.client.identities.lookup (identityStorageKey userId)

end Device

/-- The operations over a device. -/
abbrev deviceSystem (C : Suite) : System (DeviceOp C) (DeviceRet C) :=
  ⟨Device C, DeviceChoice C, Device.exec⟩

abbrev DeviceProc (C : Suite) := Prog (DeviceOp C) (DeviceRet C)

@[simp] def ask (op : DeviceOp C) : DeviceProc C (DeviceRet C op) := Prog.perform op

/-- A program of the E2EE service. -/
def onService {α : Type} (p : Proc C α) : DeviceProc C α :=
  p.implement fun op => ask (.service op)

/-! ### What an operation does to the keys -/

/-- The request or the write fails without effect. -/
def DeviceChoice.fails : DeviceChoice C → Bool
  | .service .fail | .fail => true
  | _ => false

inductive DeviceOp.Moves (d : Device C) : DeviceOp C → DeviceChoice C → Device C → Prop where
  | keep {op : DeviceOp C} {c : DeviceChoice C} {d' : Device C} :
    d'.client.identities = d.client.identities → d'.rows = d.rows → d'.handedOut = d.handedOut →
    Moves d op c d'
  | persist {storageKey : String} {bundle : IdentityBundle C} {c : DeviceChoice C} :
    c.fails = false → Moves d (.service (.persistIdentity storageKey bundle)) c
      { d with client := { d.client with
        identities := d.client.identities.insert storageKey bundle } }
  | publish {bundle : PublicBundle C} {deviceId token : String} {u : Upload} :
    Moves d (.service (.publishPreKeyBundle bundle deviceId token)) (.upload u)
      { d with rows := (d.rows.publish bundle u).2 }
  | insert {deviceId token : String} {keys : List (WasmOneTimePublicKey C.Block)}
    {rows : KeyRows C} {c : DeviceChoice C} : c.fails = false → d.rows.insertKeys keys = some rows →
    Moves d (.uploadOneTimeKeys deviceId keys token) c { d with rows := rows }

theorem Device.exec_moves {d d' : Device C} {op : DeviceOp C} {c : DeviceChoice C}
    {r : DeviceRet C op} (h : d.exec op c = some (r, d')) : op.Moves d c d' := by
  cases op with
  | service op =>
    cases op with
    | publishPreKeyBundle bundle deviceId token =>
      cases c <;> cases h
      exact .publish
    | persistIdentity storageKey bundle =>
      cases c with
      | service c =>
        cases c <;> cases h
        · exact .persist rfl
        · exact .keep rfl rfl rfl
      | _ => cases h
    | awaitHandshake id =>
      cases c with
      | service c =>
        obtain ⟨⟨r', s⟩, hr, h⟩ := Option.map_eq_some_iff.mp h
        cases h
        cases c <;> try cases hr
        simp only [Client.exec] at hr
        split at hr <;> cases hr
        exact .keep rfl rfl rfl
      | _ => cases h
    | generatePqxdhKeys count =>
      cases c with
      | service c =>
        obtain ⟨⟨r', s⟩, hr, h⟩ := Option.map_eq_some_iff.mp h
        cases h
        cases c <;> try cases hr
        · exact .keep rfl rfl rfl
        · simp only [Client.exec] at hr
          split at hr <;> cases hr
          exact .keep rfl rfl rfl
      | _ => cases h
    | _ =>
      cases c with
      | service c =>
        obtain ⟨⟨r', s⟩, hr, h⟩ := Option.map_eq_some_iff.mp h
        cases h
        cases c <;> cases hr <;> exact .keep rfl rfl rfl
      | _ => cases h
  | uploadOneTimeKeys deviceId keys token =>
    cases c <;> try cases h
    · simp only [exec] at h
      split at h <;> cases h
      · exact .insert rfl ‹_›
      · exact .keep rfl rfl rfl
    · exact .keep rfl rfl rfl
    · obtain ⟨rows, inserted, h⟩ := Option.map_eq_some_iff.mp h
      cases h
      exact .insert rfl inserted
  | randomKeys count =>
    cases c <;> try cases h
    simp only [exec] at h
    split at h <;> cases h
    exact .keep rfl rfl rfl
  | _ =>
    cases c <;> cases h
    exact .keep rfl rfl rfl

namespace KeyRows

theorem insertKeys_eq_some {rows rows' : KeyRows C} {keys : List (WasmOneTimePublicKey C.Block)} :
    rows.insertKeys keys = some rows' ↔
      (rows.ids ++ keys.map WasmOneTimePublicKey.keyId).Nodup ∧
      rows' = { rows with
        oneTimeKeys := rows.oneTimeKeys ++ keys.map fun k => ⟨k.keyId, k.publicKeyHex, false⟩ } := by
  unfold insertKeys
  split <;> simp [*, eq_comm]

/-- Each part of a publication is stored or not, and the one-time keys all at once. -/
theorem publish_cases (rows : KeyRows C) (bundle : PublicBundle C) (u : Upload) :
    ((rows.publish bundle u).2.identityKey = rows.identityKey ∨
      (rows.publish bundle u).2.identityKey =
        some (bundle.identityKeyHex, bundle.identityKeyX25519Hex)) ∧
    ((rows.publish bundle u).2.preKeys = rows.preKeys ∨
      (rows.publish bundle u).2.preKeys = some (PublicBundle.row bundle)) ∧
    ((rows.publish bundle u).2.oneTimeKeys = rows.oneTimeKeys ∨ (u.preKeys ∧ u.oneTimeKeys) ∧
      ∃ inserted, rows.insertKeys bundle.oneTimePreKeys = some inserted ∧
        (rows.publish bundle u).2.oneTimeKeys = inserted.oneTimeKeys) := by
  unfold publish
  by_cases fresh : (rows.ids ++ bundle.oneTimePreKeys.map WasmOneTimePublicKey.keyId).Nodup
  · cases u.identityKey <;> cases u.preKeys <;> cases u.oneTimeKeys <;>
      simp_all [insertKeys, ids]
  · cases u.identityKey <;> cases u.preKeys <;> simp_all [insertKeys, ids]

/-- A fetch hands out what is stored, and consumes the one-time key. -/
theorem fetch_cases {rows rows' : KeyRows C} {oneTimeKey : Option UInt32} {b : PublicBundle C}
    (h : rows.fetch oneTimeKey = some (b, rows')) :
    ∃ identityKey row, rows.identityKey = some identityKey ∧ rows.preKeys = some row ∧
      (b = bundle identityKey row [] ∧ rows' = rows ∨
        ∃ k ∈ rows.oneTimeKeys, k.isConsumed = false ∧
          b = bundle identityKey row [⟨k.keyId, k.publicKey⟩] ∧ rows' = rows.consume k.keyId) := by
  unfold fetch at h
  split at h
  · rename_i identityKey row hi hr
    refine ⟨identityKey, row, hi, hr, ?_⟩
    cases oneTimeKey with
    | none =>
      cases h
      exact .inl ⟨rfl, rfl⟩
    | some id =>
      obtain ⟨k, found, h⟩ := Option.map_eq_some_iff.mp h
      cases h
      obtain ⟨rfl, free⟩ : k.keyId = id ∧ k.isConsumed = false := by
        simpa using List.find?_some found
      exact .inr ⟨k, List.mem_of_find?_eq_some found, free, rfl, rfl⟩
  · cases h

end KeyRows

/-! ### Each one-time key once -/

/-- The ids of the one-time keys in the bundles that peers have fetched. -/
def Device.taken (d : Device C) : List UInt32 :=
  d.handedOut.flatMap fun b => b.oneTimePreKeys.map WasmOneTimePublicKey.keyId

/-- No two rows share an id, and a key that has been handed out is consumed. -/
structure Device.TakenOnce (d : Device C) : Prop where
  ids : d.rows.ids.Nodup
  taken : d.taken.Nodup
  consumed : ∀ id ∈ d.taken, ∃ k ∈ d.rows.oneTimeKeys, k.keyId = id ∧ k.isConsumed

namespace Device.TakenOnce
variable {d d' : Device C} {op : DeviceOp C} {c : DeviceChoice C}

theorem grow {rows : KeyRows C} {keys : List (WasmOneTimePublicKey C.Block)} (h : d.TakenOnce)
    (inserted : d.rows.insertKeys keys = some rows) {rows' : KeyRows C}
    (same : rows'.oneTimeKeys = rows.oneTimeKeys) : ({ d with rows := rows' } : Device C).TakenOnce := by
  obtain ⟨fresh, rfl⟩ := KeyRows.insertKeys_eq_some.mp inserted
  refine ⟨?_, h.taken, fun id mem => ?_⟩
  · simpa [KeyRows.ids, same, Function.comp_def] using fresh
  · obtain ⟨k, hk, used⟩ := h.consumed id mem
    exact ⟨k, by simp [same, hk], used⟩

theorem moves (h : d.TakenOnce) (moves : op.Moves d c d') : d'.TakenOnce := by
  cases moves with
  | keep _ rows handedOut =>
    obtain ⟨ids, taken, consumed⟩ := h
    refine ⟨rows ▸ ids, ?_, ?_⟩
    · simpa [Device.taken, handedOut] using taken
    · simpa [Device.taken, handedOut, rows] using consumed
  | persist => exact ⟨h.ids, h.taken, h.consumed⟩
  | @publish bundle _ _ u =>
    obtain ⟨-, -, same | ⟨-, inserted, stored, same⟩⟩ := d.rows.publish_cases bundle u
    · refine ⟨?_, h.taken, fun id mem => ?_⟩
      · simpa [KeyRows.ids, same] using h.ids
      · simpa [same] using h.consumed id mem
    · exact h.grow stored same
  | insert _ inserted => exact h.grow inserted rfl

theorem event {e : Device.Event} (h : d.TakenOnce) (step : d.event e = some d') : d'.TakenOnce := by
  cases e with
  | reload =>
    cases step
    exact ⟨h.ids, h.taken, h.consumed⟩
  | fetch oneTimeKey =>
    obtain ⟨⟨b, rows⟩, fetched, step⟩ := Option.map_eq_some_iff.mp step
    cases step
    obtain ⟨identityKey, row, -, -, ⟨rfl, rfl⟩ | ⟨k, mem, free, rfl, rfl⟩⟩ :=
      KeyRows.fetch_cases fetched
    · refine ⟨h.ids, ?_, ?_⟩
      · simpa [Device.taken, KeyRows.bundle] using h.taken
      · simpa [Device.taken, KeyRows.bundle] using h.consumed
    · have new : k.keyId ∉ d.taken := by
        intro old
        obtain ⟨k', mem', same, used⟩ := h.consumed k.keyId old
        rw [List.inj_on_of_nodup_map h.ids mem' mem same, free] at used
        cases used
      refine ⟨?_, ?_, ?_⟩
      · have same : (d.rows.consume k.keyId).ids = d.rows.ids := by
          simp only [KeyRows.consume, KeyRows.ids, List.map_map]
          refine List.map_congr_left fun k' _ => ?_
          simp only [Function.comp_apply]
          split <;> rfl
        exact same ▸ h.ids
      · have taken : ({ d with rows := d.rows.consume k.keyId, handedOut := d.handedOut ++
            [KeyRows.bundle identityKey row [⟨k.keyId, k.publicKey⟩]] } : Device C).taken =
            d.taken ++ [k.keyId] := by simp [Device.taken, KeyRows.bundle]
        rw [taken]
        exact h.taken.append (List.nodup_singleton _) (by simpa using new)
      · intro id hid
        have cases' : id ∈ d.taken ∨ id = k.keyId := by
          simpa [Device.taken, KeyRows.bundle] using hid
        have row' (k' : PoolKey C) (mem' : k' ∈ d.rows.oneTimeKeys) (used : k'.isConsumed ∨
            k'.keyId = k.keyId) : ∃ k'' ∈ (d.rows.consume k.keyId).oneTimeKeys,
            k''.keyId = k'.keyId ∧ k''.isConsumed := by
          refine ⟨_, List.mem_map_of_mem mem', ?_⟩
          split
          · exact ⟨rfl, rfl⟩
          · exact ⟨rfl, used.resolve_right ‹_›⟩
        rcases cases' with old | rfl
        · obtain ⟨k', mem', rfl, used⟩ := h.consumed id old
          exact row' k' mem' (.inl used)
        · exact row' k mem (.inr rfl)

end Device.TakenOnce

/-- Programs on one device, in a browser without keys of the user and with nothing published. -/
abbrev deviceService {α Tag : Type} (userId : String) (body : Tag → DeviceProc C α) :
    Service (DeviceOp C) (DeviceRet C) α Tag Device.Event where
  system := deviceSystem C
  init d := d.stored userId = none ∧ d.rows = .empty ∧ d.handedOut = []
  env := Device.event
  body := body

theorem Device.taken_once {α Tag : Type} {userId : String} {body : Tag → DeviceProc C α}
    {p : Pool (deviceService userId body)}
    (hp : (Pool.machine (deviceService userId body)).Reachable p) : p.shared.TakenOnce := by
  refine hp.invariant (I := fun p => p.shared.TakenOnce) ?_ ?_
  · rintro _ ⟨d, ⟨-, rows, handedOut⟩, rfl⟩
    exact ⟨by simp [Pool.start, rows, KeyRows.ids, KeyRows.empty],
      by simp [Pool.start, Device.taken, handedOut], by simp [Pool.start, Device.taken, handedOut]⟩
  · intro p l q once _ step
    cases l with
    | spawn t =>
      cases step
      exact once
    | run i c =>
      obtain ⟨t, op, k, r, d, -, hr, rfl⟩ := Pool.run_cases step
      exact once.moves (exec_moves hr)
    | env e =>
      obtain ⟨d, hd, rfl⟩ := Pool.env_cases step
      exact once.event hd

/-! ## The pre-key manager -/

/-- The key with the number `i` of a batch. -/
def batchKey (startId : Nat) (i : Nat) (rawKey : C.Block) : WasmOneTimePublicKey C.Block :=
  ⟨UInt32.ofNat (startId + i), .ok rawKey⟩

/-- The part of `checkAndReplenish` between `try` and `finally`. -/
def replenish (accessToken deviceId : String) : DeviceProc C Int := do
  match ← ask (.poolCount deviceId accessToken) with
  | none => pure (-1)
  | some currentCount =>
    if currentCount < 20 then
      let now ← ask .dateNow
      let rawKeys ← ask (.randomKeys 50)
      let newKeys := rawKeys.mapIdx (batchKey (now % 1000000))
      if ← ask (.uploadOneTimeKeys deviceId newKeys accessToken) then
        pure (currentCount + 50 : Nat)
      else pure (currentCount : Nat)
    else pure (currentCount : Nat)

def checkAndReplenish (accessToken deviceId : String) : DeviceProc C Int := do
  if (← ask .isChecking) ∨ accessToken = "" ∨ deviceId = "" then pure (-1)
  else
    ask (.setChecking true)
    let count ← replenish accessToken deviceId
    ask (.setChecking false)
    pure count

namespace Sample
open Pqxdh.Symbolic

/-- The symbolic primitives of PQXDH, with keys and ciphertexts as their own descriptions. -/
abbrev suite : Suite where
  Block := Term
  Bytes := Data
  Key := Term × String
  Sealed := (Term × String) × List UInt8 × String
  pqxdh := symbolic
  empty := .empty
  deriveKey secret contextId := (secret, contextId)
  deriveFallbackKey ikm info := (.absent, ikm ++ info)
  aesEncrypt key iv text := (key, iv, text)
  aesDecrypt key iv box := if box.1 = key ∧ box.2.1 = iv then some box.2.2 else none
  fingerprint userId := userId
  keyPrefix _ := ""

/-- Fresh keys, numbered from `n`. -/
def seeds (n : Nat) : KeySeeds Term :=
  ⟨.atom n, .atom (n + 1), .atom (n + 2), .atom (n + 3),
    (List.range 30).map fun i => .atom (n + 4 + i)⟩

/-- A request that goes well. -/
def wholeUpload : Upload := ⟨true, true, true, true⟩

/-- The choices of the first call of `initUserKeys`. -/
def firstCall : List (DeviceChoice suite) :=
  List.replicate 4 (.service .ok) ++ [.service (.seeds (seeds 100)), .service .ok, .service .ok,
    .service .ok, .upload wholeUpload]

end Sample

end GenChat.E2ee
