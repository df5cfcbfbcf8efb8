import GenChat.Crypto.Symbolic
import GenChat.Mls.Group
import GenChat.Sframe.Wasm
import Mathlib.Tactic.DeriveEncodable

/-!
# The WASM wrapper against one group

Every call of the wrapper reads the group from the state JSON of the call before, does one
operation and writes the state again. A sequence of calls is compared with the same operations on
one `MlsGroup`. `serde_json`, `hex` and `serde_wasm_bindgen` are parameters; epochs leave the
wrapper as JavaScript numbers, which end at 2^53.
-/
namespace GenChat.Mls
open Crypto Library

variable {Block Bytes : Type}

/-! ## The persisted state -/

structure MlsGroupState (Block : Type) where
  groupId : String
  epoch : Nat
  myLeafIndex : Nat
  myIdentitySecret : Block
  myHpkeSecret : Block
  tree : TreeKemTree Block
  epochSecret : Block
  applicationSecret : Block
  messageGeneration : Nat
  deriving DecidableEq

namespace MlsGroup

def exportState (g : MlsGroup Block) : MlsGroupState Block where
  groupId := g.groupId
  epoch := g.epoch
  myLeafIndex := g.myLeafIndex
  myIdentitySecret := g.myIdentity.signingKey
  myHpkeSecret := g.myHpkeSecret
  tree := g.tree
  epochSecret := g.epochSecret
  applicationSecret := g.applicationSecret
  messageGeneration := g.messageGeneration

/-- `IdentityKeyPair::from_bytes` takes any 32 bytes. -/
def importState (state : MlsGroupState Block) : Except CryptoError (MlsGroup Block) :=
  let identity : IdentityKeyPair Block := ⟨state.myIdentitySecret⟩
  .ok
    { groupId := state.groupId
      epoch := state.epoch
      myLeafIndex := state.myLeafIndex
      myIdentity := identity
      myHpkeSecret := state.myHpkeSecret
      tree := state.tree
      epochSecret := state.epochSecret
      applicationSecret := state.applicationSecret
      messageGeneration := state.messageGeneration }

@[simp] theorem importState_exportState (g : MlsGroup Block) :
    importState g.exportState = .ok g := rfl

theorem exportState_inj {g g' : MlsGroup Block} (h : g.exportState = g'.exportState) : g = g' := by
  have imported := congrArg importState h
  simpa using imported

end MlsGroup

/-! ## What the wrapper calls -/

/-- `serde_json` for one type. -/
structure Serde (α : Type) where
  toString : α → Except String String
  fromStr : String → Except String α

def Serde.RoundTrips {α : Type} (S : Serde α) : Prop :=
  ∀ x, ∃ text, S.toString x = .ok text ∧ S.fromStr text = .ok x

theorem Serde.RoundTrips.inj {α : Type} {S : Serde α} (h : S.RoundTrips) {x y : α}
    (same : S.toString x = S.toString y) : x = y := by
  obtain ⟨text, written, read⟩ := h x
  obtain ⟨text', written', read'⟩ := h y
  rw [written, written'] at same
  cases same
  rw [read] at read'
  exact Except.ok.inj read'

structure Codec (Block Bytes : Type) where
  state : Serde (MlsGroupState Block)
  keyPackage : Serde (MlsKeyPackage Block Bytes)
  welcome : Serde (MlsWelcome Block Bytes)
  commit : Serde (MlsCommit Block)
  ciphertext : Serde (MlsCiphertext Bytes)
  /-- The array of a key. -/
  block : Vector UInt8 32 → Block
  /-- `serialize_u64` of `serde_wasm_bindgen`: the integer the JavaScript number holds. -/
  number : Nat → Except String Nat

/-- `Number.MAX_SAFE_INTEGER`. -/
def maxSafeInteger : Nat := 2 ^ 53 - 1

/-- `serde_json` reads what it wrote, and numbers pass as far as they are safe. -/
structure Codec.Faithful (C : Codec Block Bytes) : Prop where
  state : C.state.RoundTrips
  keyPackage : C.keyPackage.RoundTrips
  welcome : C.welcome.RoundTrips
  commit : C.commit.RoundTrips
  ciphertext : C.ciphertext.RoundTrips
  number_iff : ∀ n, C.number n = .ok n ↔ n ≤ maxSafeInteger

/-- The errors of the wrapper, which leave it as texts. -/
inductive WasmError where
  | key (e : Sframe.JsError)
  | json (e : String)
  | crypto (e : CryptoError)
  | value (e : String)
  deriving DecidableEq

structure WasmMlsAddMemberResult where
  welcomeJson : String
  commitJson : String
  updatedGroupState : String
  deriving DecidableEq

structure WasmMlsJoinResult where
  updatedGroupState : String
  epoch : Nat
  deriving DecidableEq

structure WasmMlsCommitResult where
  commitJson : String
  updatedGroupState : String
  epoch : Nat
  deriving DecidableEq

structure WasmMlsEncryptResult where
  ciphertextJson : String
  updatedGroupState : String
  deriving DecidableEq

/-- The leaf index is a `usize` of 32 bits there, which every JavaScript number holds. -/
structure WasmMlsDecryptResult (Bytes : Type) where
  plaintext : Bytes
  senderLeafIndex : Nat
  deriving DecidableEq

/-! ## The entry points -/

namespace Wasm
variable (P : Primitives Block Bytes) (C : Codec Block Bytes)

def decodeKey (hex : String) : Except WasmError Block :=
  ((Sframe.decode32Hex hex).map C.block).mapError .key

def importGroup (groupStateJson : String) : Except WasmError (MlsGroup Block) := do
  let state ← (C.state.fromStr groupStateJson).mapError .json
  (MlsGroup.importState state).mapError .crypto

def exportGroup (group : MlsGroup Block) : Except WasmError String :=
  (C.state.toString group.exportState).mapError .json

def mlsCreateGroup (groupId userId deviceId identityPrivHex hpkePrivHex : String)
    (initialEpochSecret : Block) : Except WasmError String := do
  let identity ← decodeKey C identityPrivHex
  let hpkeBytes ← decodeKey C hpkePrivHex
  exportGroup C (MlsGroup.create P groupId userId deviceId ⟨identity⟩
    (.generate P hpkeBytes) initialEpochSecret)

def mlsGroupAddMember (groupStateJson keyPackageJson : String)
    (rng : MlsGroup.AddRandomness Block) : Except WasmError WasmMlsAddMemberResult := do
  let group ← importGroup C groupStateJson
  let keyPackage ← (C.keyPackage.fromStr keyPackageJson).mapError .json
  let (welcome, commit) ← (group.addMember P keyPackage rng).1.mapError .crypto
  let group := (group.addMember P keyPackage rng).2
  let welcomeJson ← (C.welcome.toString welcome).mapError .json
  let commitJson ← (C.commit.toString commit).mapError .json
  let updatedGroupState ← exportGroup C group
  return { welcomeJson, commitJson, updatedGroupState }

def mlsGroupFromWelcome (welcomeJson identityPrivHex hpkePrivHex : String) :
    Except WasmError WasmMlsJoinResult := do
  let welcome ← (C.welcome.fromStr welcomeJson).mapError .json
  let identity ← decodeKey C identityPrivHex
  let hpkeSecret ← decodeKey C hpkePrivHex
  let group ← (MlsGroup.fromWelcome P welcome ⟨identity⟩ hpkeSecret).mapError .crypto
  let updatedGroupState ← exportGroup C group
  let epoch ← (C.number group.epoch).mapError .value
  return { updatedGroupState, epoch }

def mlsGroupApplyCommit (groupStateJson commitJson : String) :
    Except WasmError WasmMlsJoinResult := do
  let group ← importGroup C groupStateJson
  let commit ← (C.commit.fromStr commitJson).mapError .json
  (group.applyCommit P commit).1.mapError .crypto
  let group := (group.applyCommit P commit).2
  let updatedGroupState ← exportGroup C group
  let epoch ← (C.number group.epoch).mapError .value
  return { updatedGroupState, epoch }

def mlsGroupRemoveMember (groupStateJson userId : String) (pathSecret : Block) :
    Except WasmError WasmMlsCommitResult := do
  let group ← importGroup C groupStateJson
  let commit ← (group.removeMember P userId pathSecret).1.mapError .crypto
  let group := (group.removeMember P userId pathSecret).2
  let commitJson ← (C.commit.toString commit).mapError .json
  let updatedGroupState ← exportGroup C group
  let epoch ← (C.number group.epoch).mapError .value
  return { commitJson, updatedGroupState, epoch }

def mlsGroupEncryptMessage (groupStateJson : String) (plaintext : Bytes) :
    Except WasmError WasmMlsEncryptResult := do
  let group ← importGroup C groupStateJson
  let ciphertext ← (group.encryptMessage P plaintext).1.mapError .crypto
  let group := (group.encryptMessage P plaintext).2
  let ciphertextJson ← (C.ciphertext.toString ciphertext).mapError .json
  let updatedGroupState ← exportGroup C group
  return { ciphertextJson, updatedGroupState }

def mlsGroupDecryptMessage (groupStateJson ciphertextJson : String) :
    Except WasmError (WasmMlsDecryptResult Bytes) := do
  let group ← importGroup C groupStateJson
  let ciphertext ← (C.ciphertext.fromStr ciphertextJson).mapError .json
  let plaintext ← (group.decryptMessage P ciphertext).mapError .crypto
  return { plaintext, senderLeafIndex := ciphertext.senderLeafIndex }

/-! ## Sequences of calls -/

/-- A call of the wrapper but for the state, with what it draws from `OsRng`. -/
inductive Call (Block Bytes : Type) where
  | createGroup (groupId userId deviceId identityPrivHex hpkePrivHex : String)
      (initialEpochSecret : Block)
  | addMember (keyPackageJson : String) (rng : MlsGroup.AddRandomness Block)
  | fromWelcome (welcomeJson identityPrivHex hpkePrivHex : String)
  | applyCommit (commitJson : String)
  | removeMember (userId : String) (pathSecret : Block)
  | encryptMessage (plaintext : Bytes)
  | decryptMessage (ciphertextJson : String)
  deriving DecidableEq

inductive Output (Bytes : Type) where
  | created (groupStateJson : String)
  | added (result : WasmMlsAddMemberResult)
  | joined (result : WasmMlsJoinResult)
  | removed (result : WasmMlsCommitResult)
  | encrypted (result : WasmMlsEncryptResult)
  | decrypted (result : WasmMlsDecryptResult Bytes)
  deriving DecidableEq

/-- The state JSON that the next call receives, if the call changes the state. -/
def Output.state : Output Bytes → Option String
  | .created groupStateJson => some groupStateJson
  | .added result => some result.updatedGroupState
  | .joined result => some result.updatedGroupState
  | .removed result => some result.updatedGroupState
  | .encrypted result => some result.updatedGroupState
  | .decrypted _ => none

/-- What a call returns. Without a state there is nothing to call an operation with. -/
def Call.result (json : Option String) : Call Block Bytes → Option (Except WasmError (Output Bytes))
  | .createGroup groupId userId deviceId identityPrivHex hpkePrivHex initialEpochSecret =>
    some ((mlsCreateGroup P C groupId userId deviceId identityPrivHex hpkePrivHex
      initialEpochSecret).map .created)
  | .addMember keyPackageJson rng =>
    json.map fun state => (mlsGroupAddMember P C state keyPackageJson rng).map .added
  | .fromWelcome welcomeJson identityPrivHex hpkePrivHex =>
    some ((mlsGroupFromWelcome P C welcomeJson identityPrivHex hpkePrivHex).map .joined)
  | .applyCommit commitJson =>
    json.map fun state => (mlsGroupApplyCommit P C state commitJson).map .joined
  | .removeMember userId pathSecret =>
    json.map fun state => (mlsGroupRemoveMember P C state userId pathSecret).map .removed
  | .encryptMessage plaintext =>
    json.map fun state => (mlsGroupEncryptMessage P C state plaintext).map .encrypted
  | .decryptMessage ciphertextJson =>
    json.map fun state => (mlsGroupDecryptMessage P C state ciphertextJson).map .decrypted

/-- The state JSON after a call. -/
def nextState (json : Option String) : Option (Except WasmError (Output Bytes)) → Option String
  | some (.ok output) => output.state <|> json
  | _ => json

end Wasm

/-! ## The same operations on one group -/

inductive GroupCall (Block Bytes : Type) where
  | create (groupId userId deviceId : String) (identity hpkeSecret initialEpochSecret : Block)
  | addMember (keyPackage : MlsKeyPackage Block Bytes) (rng : MlsGroup.AddRandomness Block)
  | fromWelcome (welcome : MlsWelcome Block Bytes) (identity hpkeSecret : Block)
  | applyCommit (commit : MlsCommit Block)
  | removeMember (userId : String) (pathSecret : Block)
  | encryptMessage (plaintext : Bytes)
  | decryptMessage (ciphertext : MlsCiphertext Bytes)
  deriving DecidableEq

inductive GroupOutput (Block Bytes : Type) where
  | created (state : MlsGroupState Block)
  | added (welcome : MlsWelcome Block Bytes) (commit : MlsCommit Block)
      (state : MlsGroupState Block)
  | joined (state : MlsGroupState Block) (epoch : Nat)
  | removed (commit : MlsCommit Block) (state : MlsGroupState Block) (epoch : Nat)
  | encrypted (ciphertext : MlsCiphertext Bytes) (state : MlsGroupState Block)
  | decrypted (plaintext : Bytes) (senderLeafIndex : Nat)
  deriving DecidableEq

/-- An operation on the group, if there is one. -/
def onGroup {α : Type} (group : Option (MlsGroup Block))
    (operation : MlsGroup Block → Except CryptoError α × MlsGroup Block) :
    Option (Except CryptoError α) × Option (MlsGroup Block) :=
  (group.map fun g => (operation g).1, group.map fun g => (operation g).2)

/-- What the operation returns, with the state exported after it, and the group it leaves. -/
def GroupCall.run (P : Primitives Block Bytes) (group : Option (MlsGroup Block)) :
    GroupCall Block Bytes →
      Option (Except CryptoError (GroupOutput Block Bytes)) × Option (MlsGroup Block)
  | .create groupId userId deviceId identity hpkeSecret initialEpochSecret =>
    let g := MlsGroup.create P groupId userId deviceId ⟨identity⟩ (.generate P hpkeSecret)
      initialEpochSecret
    (some (.ok (.created g.exportState)), some g)
  | .fromWelcome welcome identity hpkeSecret =>
    match MlsGroup.fromWelcome P welcome ⟨identity⟩ hpkeSecret with
    | .error e => (some (.error e), group)
    | .ok g => (some (.ok (.joined g.exportState g.epoch)), some g)
  | .addMember keyPackage rng => onGroup group fun g =>
    let r := g.addMember P keyPackage rng
    (r.1.map fun out => .added out.1 out.2 r.2.exportState, r.2)
  | .applyCommit commit => onGroup group fun g =>
    let r := g.applyCommit P commit
    (r.1.map fun _ => .joined r.2.exportState r.2.epoch, r.2)
  | .removeMember userId pathSecret => onGroup group fun g =>
    let r := g.removeMember P userId pathSecret
    (r.1.map fun commit => .removed commit r.2.exportState r.2.epoch, r.2)
  | .encryptMessage plaintext => onGroup group fun g =>
    let r := g.encryptMessage P plaintext
    (r.1.map fun ciphertext => .encrypted ciphertext r.2.exportState, r.2)
  | .decryptMessage ciphertext => onGroup group fun g =>
    ((g.decryptMessage P ciphertext).map fun plaintext =>
      .decrypted plaintext ciphertext.senderLeafIndex, g)

/-! ## Agreement -/

section Agreement
variable (P : Primitives Block Bytes) (C : Codec Block Bytes)

/-- The operation a call of the wrapper asks for; `none` if a text in it cannot be read. -/
def Wasm.Call.read : Wasm.Call Block Bytes → Option (GroupCall Block Bytes)
  | .createGroup groupId userId deviceId identityPrivHex hpkePrivHex initialEpochSecret => do
    let identity ← (decodeKey C identityPrivHex).toOption
    let hpkeSecret ← (decodeKey C hpkePrivHex).toOption
    return .create groupId userId deviceId identity hpkeSecret initialEpochSecret
  | .addMember keyPackageJson rng => do
    return .addMember (← (C.keyPackage.fromStr keyPackageJson).toOption) rng
  | .fromWelcome welcomeJson identityPrivHex hpkePrivHex => do
    let welcome ← (C.welcome.fromStr welcomeJson).toOption
    let identity ← (decodeKey C identityPrivHex).toOption
    let hpkeSecret ← (decodeKey C hpkePrivHex).toOption
    return .fromWelcome welcome identity hpkeSecret
  | .applyCommit commitJson => do
    return .applyCommit (← (C.commit.fromStr commitJson).toOption)
  | .removeMember userId pathSecret => return .removeMember userId pathSecret
  | .encryptMessage plaintext => return .encryptMessage plaintext
  | .decryptMessage ciphertextJson => do
    return .decryptMessage (← (C.ciphertext.fromStr ciphertextJson).toOption)

/-- The wrapper's output is the output of the operation, its parts written as JSON. -/
inductive Shows : Wasm.Output Bytes → GroupOutput Block Bytes → Prop where
  | created {json : String} {state : MlsGroupState Block} (h : C.state.toString state = .ok json) :
      Shows (.created json) (.created state)
  | added {w c json : String} {welcome : MlsWelcome Block Bytes} {commit : MlsCommit Block}
      {state : MlsGroupState Block} (hw : C.welcome.toString welcome = .ok w)
      (hc : C.commit.toString commit = .ok c) (h : C.state.toString state = .ok json) :
      Shows (.added ⟨w, c, json⟩) (.added welcome commit state)
  | joined {json : String} {state : MlsGroupState Block} {epoch : Nat}
      (h : C.state.toString state = .ok json) : Shows (.joined ⟨json, epoch⟩) (.joined state epoch)
  | removed {c json : String} {commit : MlsCommit Block} {state : MlsGroupState Block} {epoch : Nat}
      (hc : C.commit.toString commit = .ok c) (h : C.state.toString state = .ok json) :
      Shows (.removed ⟨c, json, epoch⟩) (.removed commit state epoch)
  | encrypted {c json : String} {ciphertext : MlsCiphertext Bytes} {state : MlsGroupState Block}
      (hc : C.ciphertext.toString ciphertext = .ok c) (h : C.state.toString state = .ok json) :
      Shows (.encrypted ⟨c, json⟩) (.encrypted ciphertext state)
  | decrypted {plaintext : Bytes} {senderLeafIndex : Nat} :
      Shows (.decrypted ⟨plaintext, senderLeafIndex⟩) (.decrypted plaintext senderLeafIndex)

/-- Both return the same, or both fail with the same error. -/
inductive Agrees : Option (Except WasmError (Wasm.Output Bytes)) →
    Option (Except CryptoError (GroupOutput Block Bytes)) → Prop where
  | absent : Agrees none none
  | ok {out : Wasm.Output Bytes} {out' : GroupOutput Block Bytes} (h : Shows C out out') :
      Agrees (some (.ok out)) (some (.ok out'))
  | error (e : CryptoError) : Agrees (some (.error (.crypto e))) (some (.error e))

/-- The state JSON is that of the group. -/
def Holds (json : Option String) (group : Option (MlsGroup Block)) : Prop :=
  group.map (fun g => C.state.toString g.exportState) = json.map .ok

/-- Call by call, both return the same and hold the same state. -/
def Refines (json : Option String) (group : Option (MlsGroup Block)) :
    List (Wasm.Call Block Bytes × GroupCall Block Bytes) → Prop
  | [] => True
  | (call, operation) :: calls =>
    let result := call.result P C json
    let native := operation.run P group
    Agrees C result native.1 ∧ Holds C (Wasm.nextState json result) native.2 ∧
      Refines (Wasm.nextState json result) native.2 calls

/-- The epoch that a Welcome seals for a key. -/
def MlsWelcome.sealedEpoch (welcome : MlsWelcome Block Bytes) (hpkeSecret : Block) : Option Nat :=
  match welcome.encryptedGroupSecrets with
  | .short _ => none
  | .split ephPub ciphertext =>
    (P.aesGcmDecrypt (welcomeKey P (P.diffieHellman hpkeSecret ephPub)) welcome.nonce (P.text "")
      ciphertext).toOption.bind fun plaintext =>
        (P.fromSlice plaintext).toOption.map WelcomePayload.epoch

/-- The operation leads to an epoch that is a safe integer where the wrapper returns it, and
AES-GCM accepts the message. -/
def Representable (group : Option (MlsGroup Block)) : GroupCall Block Bytes → Prop
  | .fromWelcome welcome _ hpkeSecret =>
    ∀ epoch ∈ welcome.sealedEpoch P hpkeSecret, epoch ≤ maxSafeInteger
  | .applyCommit commit => ∀ g ∈ group, commit.epoch = g.epoch + 1 → commit.epoch ≤ maxSafeInteger
  | .removeMember userId _ =>
    ∀ g ∈ group, (g.tree.findLeafByUser userId).isSome → g.epoch + 1 ≤ maxSafeInteger
  | .encryptMessage plaintext => ∀ g ∈ group, ∃ ciphertext,
    P.aesGcmEncrypt (MlsGroup.messageKey P g.applicationSecret g.messageGeneration)
      (MlsGroup.messageNonce g.myLeafIndex g.messageGeneration)
      (MlsGroup.messageAd P g.groupId g.epoch g.messageGeneration) plaintext = .ok ciphertext
  | _ => True

/-- Every operation is representable when it comes. -/
def AllRepresentable (group : Option (MlsGroup Block)) : List (GroupCall Block Bytes) → Prop
  | [] => True
  | operation :: operations => Representable P group operation ∧
    AllRepresentable (operation.run P group).2 operations

end Agreement

/-! ## One call -/

section Step
open Wasm
variable {P : Primitives Block Bytes} {C : Codec Block Bytes} {g : MlsGroup Block}
  {json text : String}

section Except
variable {ε ε' α β : Type}

theorem ok_bind (a : α) (f : α → Except ε β) : (Except.ok a >>= f) = f a := rfl
theorem error_bind (e : ε) (f : α → Except ε β) : (Except.error e >>= f) = .error e := rfl
theorem ok_mapError (a : α) (f : ε → ε') : (Except.ok a).mapError f = .ok a := rfl
theorem error_mapError (e : ε) (f : ε → ε') :
    (Except.error e : Except ε α).mapError f = .error (f e) := rfl
theorem ok_map (a : α) (f : α → β) : (Except.ok a : Except ε α).map f = .ok (f a) := rfl
theorem error_map (e : ε) (f : α → β) : (Except.error e : Except ε α).map f = .error e := rfl

end Except

theorem importGroup_written (faithful : C.Faithful)
    (written : C.state.toString g.exportState = .ok json) : importGroup C json = .ok g := by
  obtain ⟨json', written', read⟩ := faithful.state g.exportState
  rw [written] at written'
  cases written'
  simp only [importGroup, read]
  rfl

theorem exportGroup_ok (faithful : C.Faithful) (g : MlsGroup Block) :
    ∃ json, C.state.toString g.exportState = .ok json ∧ exportGroup C g = .ok json := by
  obtain ⟨json, written, -⟩ := faithful.state g.exportState
  exact ⟨json, written, by rw [exportGroup, written]; rfl⟩

theorem holds_iff {state : String} : Holds C (some state) (some g) ↔
    C.state.toString g.exportState = .ok state := by
  simp [Holds]

/-- Two groups with one state JSON are the same. -/
theorem holds_inj (faithful : C.Faithful) {g' : MlsGroup Block}
    (h : Holds C (some json) (some g)) (h' : Holds C (some json) (some g')) : g = g' := by
  rw [holds_iff] at h h'
  exact MlsGroup.exportState_inj (faithful.state.inj (h.trans h'.symm))

/-- A call that fails like the operation and leaves the group as it is. -/
theorem error_step {held : Option String} {group : Option (MlsGroup Block)}
    (holds : Holds C held group) (e : CryptoError) :
    Agrees C (some (.error (.crypto e))) (some (.error e)) ∧
      Holds C (nextState held (some (.error (.crypto e) : Except WasmError (Output Bytes)))) group :=
  ⟨.error e, holds⟩

/-- The tail of the calls that return the epoch: they agree iff it is a safe integer. -/
theorem number_step (faithful : C.Faithful) {held : Option String} {n : Nat}
    {mk : Nat → Output Bytes} {out : GroupOutput Block Bytes} {state : String}
    (shows_iff : ∀ m, Shows C (mk m) out ↔ m = n) (next : (mk n).state = some state)
    (written : C.state.toString g.exportState = .ok state) :
    let result := some ((C.number n).mapError WasmError.value >>= fun epoch => .ok (mk epoch))
    Agrees C result (some (.ok out)) ∧ Holds C (nextState held result) (some g) ↔
      n ≤ maxSafeInteger := by
  intro result
  constructor
  · rintro ⟨agrees, -⟩
    cases number : C.number n with
    | error e =>
      simp only [result, number, error_mapError, error_bind] at agrees
      cases agrees
    | ok m =>
      simp only [result, number, ok_mapError, ok_bind] at agrees
      cases agrees with
      | ok h =>
        rw [(shows_iff m).mp h] at number
        exact (faithful.number_iff n).mp number
  · intro safe
    have ok : result = some (.ok (mk n)) := by
      simp only [result, (faithful.number_iff n).mpr safe, ok_mapError, ok_bind]
    rw [ok]
    refine ⟨.ok ((shows_iff n).mpr rfl), ?_⟩
    rw [nextState, next]
    exact holds_iff.mpr written

theorem shows_joined {s : MlsGroupState Block} {state : String} {n : Nat}
    (written : C.state.toString s = .ok state) (m : Nat) :
    Shows C (.joined ⟨state, m⟩) (.joined s n) ↔ m = n := by
  constructor
  · rintro ⟨⟩
    rfl
  · rintro rfl
    exact .joined written

theorem shows_removed {s : MlsGroupState Block} {commit : MlsCommit Block} {c state : String}
    {n : Nat} (committed : C.commit.toString commit = .ok c)
    (written : C.state.toString s = .ok state) (m : Nat) :
    Shows C (.removed ⟨c, state, m⟩) (.removed commit s n) ↔ m = n := by
  constructor
  · rintro ⟨⟩
    rfl
  · rintro rfl
    exact .removed committed written

theorem applyCommit_step (faithful : C.Faithful)
    (written : C.state.toString g.exportState = .ok json) {commit : MlsCommit Block}
    (read : C.commit.fromStr text = .ok commit) :
    let result := (Call.applyCommit text : Wasm.Call Block Bytes).result P C (some json)
    let native := (GroupCall.applyCommit commit).run P (some g)
    Agrees C result native.1 ∧ Holds C (nextState (some json) result) native.2 ↔
      Representable P (some g) (.applyCommit commit) := by
  intro result native
  by_cases next : commit.epoch = g.epoch + 1
  · obtain ⟨state, written', exported⟩ := exportGroup_ok faithful (g.applyCommit P commit).2
    have epoch : (g.applyCommit P commit).2.epoch = commit.epoch := by
      rw [MlsGroup.applyCommit_eq next, next]
      rfl
    have ok : (g.applyCommit P commit).1 = .ok () := by rw [MlsGroup.applyCommit_eq next]
    have called : result = some ((C.number commit.epoch).mapError .value >>= fun epoch =>
        .ok (.joined ⟨state, epoch⟩)) := by
      simp only [result, Call.result, Option.map_some, mlsGroupApplyCommit,
        importGroup_written faithful written, read, ok, exported, epoch, ok_mapError, ok_bind]
      cases C.number commit.epoch <;> rfl
    have returned : native = (some (.ok (.joined (g.applyCommit P commit).2.exportState
        commit.epoch)), some (g.applyCommit P commit).2) := by
      simp [native, GroupCall.run, onGroup, ok, ok_map, epoch]
    rw [called, returned]
    exact (number_step faithful (shows_joined written') rfl written').trans
      (by simp [Representable, next])
  · have refused : g.applyCommit P commit =
        (.error (.invalidEpoch (g.epoch + 1) commit.epoch), g) := by
      simp [MlsGroup.applyCommit, next]
    have called : result = some (.error (.crypto (.invalidEpoch (g.epoch + 1) commit.epoch))) := by
      simp only [result, Call.result, Option.map_some, mlsGroupApplyCommit,
        importGroup_written faithful written, read, refused, ok_mapError, ok_bind, error_mapError,
        error_bind, error_map]
    have returned : native = (some (.error (.invalidEpoch (g.epoch + 1) commit.epoch)), some g) := by
      simp [native, GroupCall.run, onGroup, refused, error_map]
    rw [called, returned]
    exact iff_of_true (error_step (holds_iff.mpr written) _) (by simp [Representable, next])

theorem removeMember_step (faithful : C.Faithful)
    (written : C.state.toString g.exportState = .ok json) (userId : String) (pathSecret : Block) :
    let result := (Call.removeMember userId pathSecret : Wasm.Call Block Bytes).result P C
      (some json)
    let native := (GroupCall.removeMember userId pathSecret).run P (some g)
    Agrees C result native.1 ∧ Holds C (nextState (some json) result) native.2 ↔
      Representable P (some g) (.removeMember userId pathSecret) := by
  intro result native
  cases removed : (g.removeMember P userId pathSecret).1 with
  | ok commit =>
    obtain ⟨idx, found, -, after⟩ := MlsGroup.removeMember_ok removed
    obtain ⟨state, written', exported⟩ :=
      exportGroup_ok faithful (g.removeMember P userId pathSecret).2
    obtain ⟨c, committed, -⟩ := faithful.commit commit
    have epoch : (g.removeMember P userId pathSecret).2.epoch = g.epoch + 1 := by
      rw [after]
      rfl
    have called : result = some ((C.number (g.epoch + 1)).mapError .value >>= fun epoch =>
        .ok (.removed ⟨c, state, epoch⟩)) := by
      simp only [result, Call.result, Option.map_some, mlsGroupRemoveMember,
        importGroup_written faithful written, removed, committed, exported, epoch, ok_mapError,
        ok_bind]
      cases C.number (g.epoch + 1) <;> rfl
    have returned : native = (some (.ok (.removed commit
        (g.removeMember P userId pathSecret).2.exportState (g.epoch + 1))),
        some (g.removeMember P userId pathSecret).2) := by
      simp [native, GroupCall.run, onGroup, removed, ok_map, epoch]
    rw [called, returned]
    exact (number_step faithful (shows_removed committed written') rfl written').trans
      (by simp [Representable, found])
  | error e =>
    have missing : g.tree.findLeafByUser userId = none := by
      by_contra found
      obtain ⟨idx, found⟩ := Option.ne_none_iff_exists'.mp found
      simp [MlsGroup.removeMember, found] at removed
    have called : result = some (.error (.crypto e)) := by
      simp only [result, Call.result, Option.map_some, mlsGroupRemoveMember,
        importGroup_written faithful written, removed, ok_bind, error_mapError, error_bind,
        error_map]
    have returned : native = (some (.error e), some g) := by
      simp [native, GroupCall.run, onGroup, removed, error_map, MlsGroup.removeMember_error removed]
    rw [called, returned]
    exact iff_of_true (error_step (holds_iff.mpr written) _) (by simp [Representable, missing])

/-- The epoch of a group that is joined is the one its Welcome seals. -/
theorem fromWelcome_epoch (welcome : MlsWelcome Block Bytes) (identity : IdentityKeyPair Block)
    (hpkeSecret : Block) : welcome.sealedEpoch P hpkeSecret =
      (MlsGroup.fromWelcome P welcome identity hpkeSecret).toOption.map MlsGroup.epoch := by
  simp only [MlsWelcome.sealedEpoch, MlsGroup.fromWelcome]
  cases shape : welcome.encryptedGroupSecrets with
  | short bytes => rfl
  | split ephPub ciphertext =>
    dsimp only
    cases P.aesGcmDecrypt (welcomeKey P (P.diffieHellman hpkeSecret ephPub)) welcome.nonce
        (P.text "") ciphertext with
    | error e => rfl
    | ok plaintext =>
      dsimp only [Except.toOption, Option.bind_some]
      cases P.fromSlice plaintext <;> rfl

theorem fromWelcome_step (faithful : C.Faithful) {held : Option String}
    {group : Option (MlsGroup Block)} (holds : Holds C held group)
    {welcome : MlsWelcome Block Bytes} (read : C.welcome.fromStr text = .ok welcome)
    {identityHex hpkeHex : String} {identity hpkeSecret : Block}
    (identityRead : decodeKey C identityHex = .ok identity)
    (hpkeRead : decodeKey C hpkeHex = .ok hpkeSecret) :
    let result := (Call.fromWelcome text identityHex hpkeHex : Wasm.Call Block Bytes).result P C held
    let native := (GroupCall.fromWelcome welcome identity hpkeSecret).run P group
    Agrees C result native.1 ∧ Holds C (nextState held result) native.2 ↔
      Representable P group (.fromWelcome welcome identity hpkeSecret) := by
  intro result native
  cases joined : MlsGroup.fromWelcome P welcome ⟨identity⟩ hpkeSecret with
  | ok g =>
    obtain ⟨state, written', exported⟩ := exportGroup_ok faithful g
    have called : result = some ((C.number g.epoch).mapError .value >>= fun epoch =>
        .ok (.joined ⟨state, epoch⟩)) := by
      simp only [result, Call.result, mlsGroupFromWelcome, read, identityRead, hpkeRead, joined,
        exported, ok_mapError, ok_bind]
      cases C.number g.epoch <;> rfl
    have returned : native = (some (.ok (.joined g.exportState g.epoch)), some g) := by
      simp [native, GroupCall.run, joined]
    rw [called, returned]
    exact (number_step faithful (shows_joined written') rfl written').trans
      (by simp [Representable, fromWelcome_epoch welcome ⟨identity⟩, joined, Except.toOption])
  | error e =>
    have called : result = some (.error (.crypto e)) := by
      simp only [result, Call.result, mlsGroupFromWelcome, read, identityRead, hpkeRead, joined,
        ok_mapError, ok_bind, error_mapError, error_bind, error_map]
    have returned : native = (some (.error e), group) := by
      simp [native, GroupCall.run, joined]
    rw [called, returned]
    refine iff_of_true (error_step holds _) ?_
    simp [Representable, fromWelcome_epoch welcome ⟨identity⟩, joined, Except.toOption]

theorem create_step (faithful : C.Faithful) {held : Option String} {group : Option (MlsGroup Block)}
    {groupId userId deviceId identityHex hpkeHex : String}
    {identity hpkeSecret initialEpochSecret : Block}
    (identityRead : decodeKey C identityHex = .ok identity)
    (hpkeRead : decodeKey C hpkeHex = .ok hpkeSecret) :
    let result := (Call.createGroup groupId userId deviceId identityHex hpkeHex
      initialEpochSecret : Wasm.Call Block Bytes).result P C held
    let native := (GroupCall.create groupId userId deviceId identity hpkeSecret
      initialEpochSecret).run P group
    Agrees C result native.1 ∧ Holds C (nextState held result) native.2 := by
  intro result native
  obtain ⟨state, written, exported⟩ := exportGroup_ok faithful (MlsGroup.create P groupId userId
    deviceId ⟨identity⟩ (.generate P hpkeSecret) initialEpochSecret)
  have called : result = some (.ok (.created state)) := by
    simp only [result, Call.result, mlsCreateGroup, identityRead, hpkeRead, exported, ok_bind,
      ok_map]
  rw [called]
  exact ⟨.ok (.created written), holds_iff.mpr written⟩

theorem addMember_step (faithful : C.Faithful) (seals : P.Seals)
    (written : C.state.toString g.exportState = .ok json) {keyPackage : MlsKeyPackage Block Bytes}
    (read : C.keyPackage.fromStr text = .ok keyPackage) (rng : MlsGroup.AddRandomness Block) :
    let result := (Call.addMember text rng : Wasm.Call Block Bytes).result P C (some json)
    let native := (GroupCall.addMember keyPackage rng).run P (some g)
    Agrees C result native.1 ∧ Holds C (nextState (some json) result) native.2 := by
  intro result native
  cases added : (g.addMember P keyPackage rng).1 with
  | ok out =>
    obtain ⟨welcome, commit⟩ := out
    obtain ⟨state, written', exported⟩ :=
      exportGroup_ok faithful (g.addMember P keyPackage rng).2
    obtain ⟨w, welcomed, -⟩ := faithful.welcome welcome
    obtain ⟨c, committed, -⟩ := faithful.commit commit
    have called : result = some (.ok (.added ⟨w, c, state⟩)) := by
      simp only [result, Call.result, Option.map_some, mlsGroupAddMember,
        importGroup_written faithful written, read, added, welcomed, committed, exported,
        ok_mapError, ok_bind]
      rfl
    have returned : native = (some (.ok (.added welcome commit
        (g.addMember P keyPackage rng).2.exportState)), some (g.addMember P keyPackage rng).2) := by
      simp [native, GroupCall.run, onGroup, added, ok_map]
    rw [called, returned]
    exact ⟨.ok (.added welcomed committed written'), holds_iff.mpr written'⟩
  | error e =>
    -- Sealing does not fail, so nothing was changed before the failure.
    obtain ⟨tree, after, rfl | ⟨payload, failed⟩⟩ := MlsGroup.addMember_error added
    · have called : result = some (.error (.crypto e)) := by
        simp only [result, Call.result, Option.map_some, mlsGroupAddMember,
          importGroup_written faithful written, read, added, ok_mapError, ok_bind, error_mapError,
          error_bind, error_map]
      have returned : native = (some (.error e), some g) := by
        simp [native, GroupCall.run, onGroup, added, error_map, after]
      rw [called, returned]
      exact error_step (holds_iff.mpr written) _
    · obtain ⟨sealedSecrets, ok⟩ :=
        MlsGroup.sealSecrets_total seals keyPackage.hpkePublicKey payload rng
      rw [ok] at failed
      cases failed

theorem encryptMessage_step (faithful : C.Faithful)
    (written : C.state.toString g.exportState = .ok json) (plaintext : Bytes) :
    let result := (Call.encryptMessage plaintext : Wasm.Call Block Bytes).result P C (some json)
    let native := (GroupCall.encryptMessage plaintext).run P (some g)
    Agrees C result native.1 ∧ Holds C (nextState (some json) result) native.2 ↔
      Representable P (some g) (.encryptMessage plaintext) := by
  intro result native
  cases encrypted : P.aesGcmEncrypt (MlsGroup.messageKey P g.applicationSecret g.messageGeneration)
      (MlsGroup.messageNonce g.myLeafIndex g.messageGeneration)
      (MlsGroup.messageAd P g.groupId g.epoch g.messageGeneration) plaintext with
  | ok sealedBytes =>
    obtain ⟨ciphertext, ok⟩ : ∃ ciphertext, (g.encryptMessage P plaintext).1 = .ok ciphertext := by
      simp [MlsGroup.encryptMessage, encrypted]
    obtain ⟨state, written', exported⟩ :=
      exportGroup_ok faithful (g.encryptMessage P plaintext).2
    obtain ⟨c, coded, -⟩ := faithful.ciphertext ciphertext
    have called : result = some (.ok (.encrypted ⟨c, state⟩)) := by
      simp only [result, Call.result, Option.map_some, mlsGroupEncryptMessage,
        importGroup_written faithful written, ok, coded, exported, ok_mapError, ok_bind]
      rfl
    have returned : native = (some (.ok (.encrypted ciphertext
        (g.encryptMessage P plaintext).2.exportState)), some (g.encryptMessage P plaintext).2) := by
      simp [native, GroupCall.run, onGroup, ok, ok_map]
    rw [called, returned]
    refine iff_of_true ⟨.ok (.encrypted coded written'), holds_iff.mpr written'⟩ ?_
    simp [Representable, encrypted]
  | error e =>
    have failed : (g.encryptMessage P plaintext).1 = .error (.encryptionFailed e) := by
      simp [MlsGroup.encryptMessage, encrypted]
    have called : result = some (.error (.crypto (.encryptionFailed e))) := by
      simp only [result, Call.result, Option.map_some, mlsGroupEncryptMessage,
        importGroup_written faithful written, failed, ok_bind, error_mapError, error_bind, error_map]
    have left : native.2 = some (g.encryptMessage P plaintext).2 := rfl
    rw [called, left]
    refine iff_of_false (fun h => ?_) (by simp [Representable, encrypted])
    -- The group has used up a generation, the state JSON has not.
    have same := holds_inj faithful (holds_iff.mpr written) h.2
    rw [MlsGroup.encryptMessage_snd] at same
    have generation := congrArg MlsGroup.messageGeneration same
    dsimp only at generation
    omega

theorem decryptMessage_step (faithful : C.Faithful)
    (written : C.state.toString g.exportState = .ok json) {ciphertext : MlsCiphertext Bytes}
    (read : C.ciphertext.fromStr text = .ok ciphertext) :
    let result := (Call.decryptMessage text : Wasm.Call Block Bytes).result P C (some json)
    let native := (GroupCall.decryptMessage ciphertext).run P (some g)
    Agrees C result native.1 ∧ Holds C (nextState (some json) result) native.2 := by
  intro result native
  cases decrypted : g.decryptMessage P ciphertext with
  | ok plaintext =>
    have called : result = some (.ok (.decrypted ⟨plaintext, ciphertext.senderLeafIndex⟩)) := by
      simp only [result, Call.result, Option.map_some, mlsGroupDecryptMessage,
        importGroup_written faithful written, read, decrypted, ok_mapError, ok_bind]
      rfl
    have returned : native =
        (some (.ok (.decrypted plaintext ciphertext.senderLeafIndex)), some g) := by
      simp [native, GroupCall.run, onGroup, decrypted, ok_map]
    rw [called, returned]
    exact ⟨.ok .decrypted, holds_iff.mpr written⟩
  | error e =>
    have called : result = some (.error (.crypto e)) := by
      simp only [result, Call.result, Option.map_some, mlsGroupDecryptMessage,
        importGroup_written faithful written, read, decrypted, ok_mapError, ok_bind,
        error_mapError, error_bind, error_map]
    have returned : native = (some (.error e), some g) := by
      simp [native, GroupCall.run, onGroup, decrypted, error_map]
    rw [called, returned]
    exact error_step (holds_iff.mpr written) _

theorem Holds.cases {held : Option String} {group : Option (MlsGroup Block)}
    (holds : Holds C held group) : held = none ∧ group = none ∨
      ∃ json g, held = some json ∧ group = some g ∧ C.state.toString g.exportState = .ok json := by
  cases held <;> cases group <;> simp [Holds] at holds ⊢
  exact holds

/-- A call does what the operation does exactly if that is representable. -/
theorem call_step (faithful : C.Faithful) (seals : P.Seals) {held : Option String}
    {group : Option (MlsGroup Block)} (holds : Holds C held group) {call : Wasm.Call Block Bytes}
    {operation : GroupCall Block Bytes} (read : call.read C = some operation) :
    Agrees C (call.result P C held) (operation.run P group).1 ∧
      Holds C (nextState held (call.result P C held)) (operation.run P group).2 ↔
      Representable P group operation := by
  have toOption {ε α : Type} {x : Except ε α} {a : α} (h : x.toOption = some a) : x = .ok a := by
    cases x <;> simp_all [Except.toOption]
  cases call with
  | createGroup groupId userId deviceId identityHex hpkeHex initialEpochSecret =>
    simp only [Wasm.Call.read, Option.bind_eq_bind, Option.bind_eq_some_iff, Option.pure_def,
      Option.some.injEq] at read
    obtain ⟨identity, identityRead, hpkeSecret, hpkeRead, rfl⟩ := read
    exact iff_of_true (create_step faithful (toOption identityRead) (toOption hpkeRead)) trivial
  | fromWelcome text identityHex hpkeHex =>
    simp only [Wasm.Call.read, Option.bind_eq_bind, Option.bind_eq_some_iff, Option.pure_def,
      Option.some.injEq] at read
    obtain ⟨welcome, welcomeRead, identity, identityRead, hpkeSecret, hpkeRead, rfl⟩ := read
    exact fromWelcome_step faithful holds (toOption welcomeRead) (toOption identityRead)
      (toOption hpkeRead)
  | addMember text rng =>
    simp only [Wasm.Call.read, Option.bind_eq_bind, Option.bind_eq_some_iff, Option.pure_def,
      Option.some.injEq] at read
    obtain ⟨keyPackage, keyPackageRead, rfl⟩ := read
    rcases holds.cases with ⟨rfl, rfl⟩ | ⟨json, g, rfl, rfl, written⟩
    · exact iff_of_true ⟨.absent, rfl⟩ trivial
    · exact iff_of_true (addMember_step faithful seals written (toOption keyPackageRead) rng) trivial
  | applyCommit text =>
    simp only [Wasm.Call.read, Option.bind_eq_bind, Option.bind_eq_some_iff, Option.pure_def,
      Option.some.injEq] at read
    obtain ⟨commit, commitRead, rfl⟩ := read
    rcases holds.cases with ⟨rfl, rfl⟩ | ⟨json, g, rfl, rfl, written⟩
    · exact iff_of_true ⟨.absent, rfl⟩ (by rintro _ ⟨⟩)
    · exact applyCommit_step faithful written (toOption commitRead)
  | removeMember userId pathSecret =>
    cases read
    rcases holds.cases with ⟨rfl, rfl⟩ | ⟨json, g, rfl, rfl, written⟩
    · exact iff_of_true ⟨.absent, rfl⟩ (by rintro _ ⟨⟩)
    · exact removeMember_step faithful written userId pathSecret
  | encryptMessage plaintext =>
    cases read
    rcases holds.cases with ⟨rfl, rfl⟩ | ⟨json, g, rfl, rfl, written⟩
    · exact iff_of_true ⟨.absent, rfl⟩ (by rintro _ ⟨⟩)
    · exact encryptMessage_step faithful written plaintext
  | decryptMessage text =>
    simp only [Wasm.Call.read, Option.bind_eq_bind, Option.bind_eq_some_iff, Option.pure_def,
      Option.some.injEq] at read
    obtain ⟨ciphertext, ciphertextRead, rfl⟩ := read
    rcases holds.cases with ⟨rfl, rfl⟩ | ⟨json, g, rfl, rfl, written⟩
    · exact iff_of_true ⟨.absent, rfl⟩ trivial
    · exact iff_of_true (decryptMessage_step faithful written (toOption ciphertextRead)) trivial

end Step

/-! ## Sequences -/

/-- The wrapper refines the group from any state they hold together, exactly as long as all
operations are representable. -/
theorem refines_iff {P : Primitives Block Bytes} {C : Codec Block Bytes} (faithful : C.Faithful)
    (seals : P.Seals) {held : Option String} {group : Option (MlsGroup Block)}
    (holds : Holds C held group) {calls : List (Wasm.Call Block Bytes × GroupCall Block Bytes)}
    (read : ∀ x ∈ calls, x.1.read C = some x.2) :
    Refines P C held group calls ↔ AllRepresentable P group (calls.map Prod.snd) := by
  induction calls generalizing held group with
  | nil => exact Iff.rfl
  | cons x calls ih =>
    obtain ⟨call, operation⟩ := x
    have step := call_step (P := P) faithful seals holds (read _ List.mem_cons_self)
    have later (y) (hy : y ∈ calls) := read y (List.mem_cons_of_mem _ hy)
    simp only [Refines, List.map_cons, AllRepresentable]
    constructor
    · rintro ⟨agrees, holds', refines⟩
      exact ⟨step.mp ⟨agrees, holds'⟩, (ih holds' later).mp refines⟩
    · rintro ⟨representable, rest⟩
      obtain ⟨agrees, holds'⟩ := step.mpr representable
      exact ⟨agrees, holds', (ih holds' later).mpr rest⟩

/-- A client that starts without a state gets what one group gives, exactly as long as all
operations are representable. -/
theorem wasm_refines_group {P : Primitives Block Bytes} {C : Codec Block Bytes}
    (faithful : C.Faithful) (seals : P.Seals)
    {calls : List (Wasm.Call Block Bytes × GroupCall Block Bytes)}
    (read : ∀ x ∈ calls, x.1.read C = some x.2) :
    Refines P C none none calls ↔ AllRepresentable P none (calls.map Prod.snd) :=
  refines_iff faithful seals (show Holds C none none from rfl) read

/-! ## Samples -/

open Symbolic

instance encodableChar : Encodable Char := .ofLeftInverse Char.toNat Char.ofNat Char.ofNat_toNat
instance encodableString : Encodable String := .ofLeftInverse String.toList String.ofList fun s => by simp
instance encodableUInt8 : Encodable UInt8 := .ofLeftInverse UInt8.toNat UInt8.ofNat fun s => by simp

deriving instance Encodable for Term, SignedMessage, WelcomePayload, Data
deriving instance Encodable for MlsLeafNode, TreeKemTree, MlsGroupState, MlsKeyPackage
deriving instance Encodable for SealedSecrets, MlsWelcome, MlsCommit, MlsCiphertext

/-- A text for a value: its number. -/
@[irreducible] def numeral {α : Type} [Encodable α] (x : α) : String := (Encodable.encode x).repr

/-- A serialisation that writes numerals. -/
def numerals (α : Type) [Encodable α] : Serde α where
  toString x := .ok (numeral x)
  fromStr text := match Encodable.decode (Nat.ofDigitChars 10 text.toList 0) with
    | some x => .ok x
    | none => .error "expected value at line 1 column 1"

theorem numerals_read {α : Type} [Encodable α] (x : α) :
    (numerals α).fromStr (numeral x) = .ok x := by
  simp [numerals, numeral]

theorem numerals_roundTrips {α : Type} [Encodable α] : (numerals α).RoundTrips := fun x =>
  ⟨numeral x, rfl, numerals_read x⟩

def sampleCodec : Codec Term Data where
  state := numerals _
  keyPackage := numerals _
  welcome := numerals _
  commit := numerals _
  ciphertext := numerals _
  block key := .atom key[31].toNat
  number n := if n ≤ maxSafeInteger then .ok n
    else .error (n.repr ++ " can't be represented as a JavaScript number")

theorem sampleCodec_faithful : sampleCodec.Faithful where
  state := numerals_roundTrips
  keyPackage := numerals_roundTrips
  welcome := numerals_roundTrips
  commit := numerals_roundTrips
  ciphertext := numerals_roundTrips
  number_iff n := by
    by_cases safe : n ≤ maxSafeInteger <;> simp [sampleCodec, safe]

/-- Two private keys. -/
def aliceKey : String := "0000000000000000000000000000000000000000000000000000000000000001"
def bobKey : String := "0000000000000000000000000000000000000000000000000000000000000002"

theorem aliceKey_decoded : Wasm.decodeKey sampleCodec aliceKey = .ok (.atom 1) := by
  rfl

theorem bobKey_decoded : Wasm.decodeKey sampleCodec bobKey = .ok (.atom 2) := by
  rfl

def bobPackage : MlsKeyPackage Term Data :=
  .new symbolic "bob" "phone" ⟨.atom 2⟩ (.generate symbolic (.atom 2))

def sampleRng : MlsGroup.AddRandomness Term := ⟨.atom 5, List.replicate 12 0, .atom 6⟩

/-- Alice creates a group, adds Bob, writes and removes him. -/
def aliceCalls : List (Wasm.Call Term Data × GroupCall Term Data) := [
  (.createGroup "team" "alice" "laptop" aliceKey aliceKey (.atom 3),
    .create "team" "alice" "laptop" (.atom 1) (.atom 1) (.atom 3)),
  (.addMember (numeral bobPackage) sampleRng, .addMember bobPackage sampleRng),
  (.encryptMessage (.text "hello"), .encryptMessage (.text "hello")),
  (.removeMember "bob" (.atom 7), .removeMember "bob" (.atom 7))]

theorem aliceCalls_read : ∀ x ∈ aliceCalls, x.1.read sampleCodec = some x.2 := by
  simp only [aliceCalls, List.forall_mem_cons, List.not_mem_nil, false_imp_iff, implies_true,
    and_true]
  have package : sampleCodec.keyPackage.fromStr (numeral bobPackage) = .ok bobPackage :=
    numerals_read bobPackage
  refine ⟨?_, ?_, rfl, rfl⟩
  · simp only [Wasm.Call.read, aliceKey_decoded]
    rfl
  · simp only [Wasm.Call.read, package]
    rfl

theorem aliceCalls_representable :
    AllRepresentable symbolic none (aliceCalls.map Prod.snd) := by
  refine ⟨trivial, trivial, fun g _ => ⟨_, rfl⟩, ?_, trivial⟩
  rintro g ⟨⟩ -
  decide

theorem wasm_refines_group_sample :
    Refines symbolic sampleCodec none none aliceCalls :=
  (wasm_refines_group sampleCodec_faithful symbolic_seals aliceCalls_read).mpr
    aliceCalls_representable

/-- A Welcome for Bob that seals epoch 2^53. -/
def lateWelcome : MlsWelcome Term Data where
  groupId := "team"
  epoch := 2 ^ 53
  encryptedGroupSecrets := .split (.dhKey (.atom 5)) (.sealed
    (welcomeKey symbolic (.shared 2 5)) [] (.text "")
    (.payload ⟨2 ^ 53, 1, .atom 7, .atom 8⟩))
  tree := ⟨[]⟩
  nonce := []

/-- Bob joins with it. -/
def bobCalls : List (Wasm.Call Term Data × GroupCall Term Data) :=
  [(.fromWelcome (numeral lateWelcome) bobKey bobKey,
    .fromWelcome lateWelcome (.atom 2) (.atom 2))]

theorem wasm_fails_to_join : (∀ x ∈ bobCalls, x.1.read sampleCodec = some x.2) ∧
    (MlsGroup.fromWelcome symbolic lateWelcome ⟨.atom 2⟩ (.atom 2)).toOption.isSome ∧
    ¬ Refines symbolic sampleCodec none none bobCalls := by
  have read : ∀ x ∈ bobCalls, x.1.read sampleCodec = some x.2 := by
    refine List.forall_mem_singleton.mpr ?_
    have welcome : sampleCodec.welcome.fromStr (numeral lateWelcome) = .ok lateWelcome :=
      numerals_read lateWelcome
    simp only [Wasm.Call.read, bobKey_decoded, welcome]
    rfl
  refine ⟨read, by rfl, fun refines => ?_⟩
  have holds : Holds sampleCodec none none := rfl
  have representable := (refines_iff sampleCodec_faithful symbolic_seals holds read).mp refines
  have safe := representable.1 (2 ^ 53) (by rfl)
  revert safe
  decide

end GenChat.Mls
