import GenChat.Call.MediaKeys
import GenChat.Library.BrowserText

/-!
# The group manager of the browser client

`MlsGroupManager` of `mls-group-manager.ts`: how it makes groups, Welcomes and group states, and
where it keeps them. WebCrypto is a parameter; the envelopes carry bytes where the code has their
base64 texts.
-/
namespace GenChat.Group
open Library BrowserText
open Ledger (Table)
open Call (Kdf Member MlsLocalGroupState GroupOp)

/-- What the manager uses of `window.crypto.subtle`, over the keys of P-256. -/
structure WebCrypto (Private Public : Type) where
  /-- The public key of a pair. -/
  publicKey : Private → Public
  exportRaw : Public → Vector UInt8 65
  importRaw : List UInt8 → Option Public
  importPkcs8 : List UInt8 → Option Private
  /-- ECDH to 256 bits. -/
  deriveBits : Private → Public → Vector UInt8 32
  /-- HKDF-SHA-256 of key material, a salt and an info to 256 bits. -/
  hkdf : List UInt8 → List UInt8 → List UInt8 → Vector UInt8 32
  /-- AES-256-GCM under a key and an initialisation vector. -/
  encrypt : Vector UInt8 32 → List UInt8 → List UInt8 → List UInt8
  decrypt : Vector UInt8 32 → List UInt8 → List UInt8 → Option (List UInt8)

/-- Key pairs agree on a secret, and AES-GCM decrypts what it has encrypted, with 16 bytes for its
tag. -/
structure WebCrypto.Correct {Private Public : Type} (W : WebCrypto Private Public) : Prop where
  raw : ∀ k, W.importRaw (W.exportRaw k).toList = some k
  agree : ∀ a b, W.deriveBits a (W.publicKey b) = W.deriveBits b (W.publicKey a)
  decrypts : ∀ key iv msg, W.decrypt key iv (W.encrypt key iv msg) = some msg
  sealed : ∀ key iv msg, (W.encrypt key iv msg).length = msg.length + 16
  opened : ∀ key iv ct msg, W.decrypt key iv ct = some msg → ct.length = msg.length + 16

/-! ## Envelopes -/

/-- What is read of a key package. -/
structure MlsKeyPackageData where
  publicKeyHex : String
  deriving DecidableEq

/-- The empty text stands for no ephemeral key. -/
structure MlsWelcomeEnvelope where
  groupId : String
  epoch : Nat
  creatorId : String
  ephemeralPublicKeyHex : String
  encryptedEpochSecret : List UInt8
  iv : List UInt8
  ratchetTree : List Member
  deriving DecidableEq

/-- `btoa` throws on other characters. -/
def latin1 (text : String) : Bool := text.toList.all (·.toNat < 256)

/-- `btoa(JSON.stringify(welcome))` succeeds. -/
def MlsWelcomeEnvelope.sendable (welcome : MlsWelcomeEnvelope) : Bool :=
  latin1 welcome.groupId && latin1 welcome.creatorId &&
    welcome.ratchetTree.all fun m => latin1 m.userId && latin1 m.publicKeyHex

/-! ## Creating a group -/

/-- `Map.set`: a new key comes last, a known one stays where it is. -/
def setEntry {α : Type} (key : String) (value : α) : List (String × α) → List (String × α)
  | [] => [(key, value)]
  | entry :: rest =>
    if entry.1 = key then (key, value) :: rest else entry :: setEntry key value rest

/-- The key packages of the invited, each id with what `fetchKeyPackage` has returned for it. -/
def memberPackages (creatorUserId : String) (invited : List (String × Option MlsKeyPackageData)) :
    List (String × MlsKeyPackageData) :=
  invited.foldl (fun packages (uid, pkg) =>
    if uid = creatorUserId then packages
    else match pkg with
      | some pkg => setEntry uid pkg packages
      | none => packages) []

def treeMembers (creatorUserId : String) (packages : List (String × MlsKeyPackageData)) :
    List Member :=
  ⟨0, creatorUserId, "creator_root_key"⟩ ::
    packages.mapIdx fun i (uid, pkg) => ⟨i + 1, uid, pkg.publicKeyHex⟩

/-- What is drawn for a Welcome. -/
structure WelcomeRandom (Private : Type) where
  encapKeyPair : Private
  welcomeIv : Vector UInt8 12

structure WrappedSecret where
  ephemeralPublicKeyHex : String
  encryptedEpochSecret : List UInt8
  iv : List UInt8

/-- The package counts as one with a P-256 key. -/
def MlsKeyPackageData.claimsKey (pkg : MlsKeyPackageData) : Bool :=
  pkg.publicKeyHex ≠ "" && !"pubkey_".toList.isPrefixOf pkg.publicKeyHex.toList

section
variable {Private Public : Type} (W : WebCrypto Private Public)

def MlsKeyPackageData.recipientPubKey (pkg : MlsKeyPackageData) : Option Public :=
  (hexBytes pkg.publicKeyHex).bind W.importRaw

/-- The three ways in which `createGroup` puts the epoch secret into a Welcome. -/
def wrapSecret (uid : String) (pkg : MlsKeyPackageData) (random : WelcomeRandom Private)
    (epochSecret : Vector UInt8 32) : WrappedSecret :=
  if pkg.claimsKey then
    let ephemeralPublicKeyHex := Hex.encode (W.exportRaw (W.publicKey random.encapKeyPair)).toList
    match pkg.recipientPubKey W with
    | some recipientPubKey =>
      let wrappingKey := W.deriveBits random.encapKeyPair recipientPubKey
      { ephemeralPublicKeyHex := ephemeralPublicKeyHex
        encryptedEpochSecret := W.encrypt wrappingKey random.welcomeIv.toList epochSecret.toList
        iv := random.welcomeIv.toList }
    -- The import throws after the ephemeral key has been set, and the secret stays in plain.
    | none => ⟨ephemeralPublicKeyHex, epochSecret.toList, random.welcomeIv.toList⟩
  else
    let wrapKey := W.hkdf (textEncode s!"mls_welcome_key_{uid}_{pkg.publicKeyHex}")
      (textEncode "welcome_salt") (textEncode "epoch_secret_wrap")
    { ephemeralPublicKeyHex := ""
      encryptedEpochSecret := W.encrypt wrapKey random.welcomeIv.toList epochSecret.toList
      iv := random.welcomeIv.toList }

def createdWelcome (creatorUserId : String) (tree : List Member)
    (random : String → WelcomeRandom Private) (epochSecret : Vector UInt8 32) (uid : String)
    (pkg : MlsKeyPackageData) : MlsWelcomeEnvelope :=
  let wrapped := wrapSecret W uid pkg (random uid) epochSecret
  { groupId := ""
    epoch := 0
    creatorId := creatorUserId
    ephemeralPublicKeyHex := wrapped.ephemeralPublicKeyHex
    encryptedEpochSecret := wrapped.encryptedEpochSecret
    iv := wrapped.iv
    ratchetTree := tree }

/-- The state and the Welcomes by user id; nothing where it throws or `CreateChannel` fails. The
response carries the id of the channel. -/
def createGroup (creatorUserId : String) (invited : List (String × Option MlsKeyPackageData))
    (epochSecret : Vector UInt8 32) (random : String → WelcomeRandom Private)
    (response : Option String) :
    Option (MlsLocalGroupState × List (String × MlsWelcomeEnvelope)) :=
  let packages := memberPackages creatorUserId invited
  let tree := treeMembers creatorUserId packages
  let welcomes := packages.map fun (uid, pkg) =>
    (uid, createdWelcome W creatorUserId tree random epochSecret uid pkg)
  if welcomes.all (·.2.sendable) then
    response.map fun rawChannelId =>
      (⟨s!"chan_{rawChannelId}", 0, 0, Hex.encode epochSecret.toList, tree⟩, welcomes)
  else none

/-! ## Moving on -/

/-- The derivation of the next secret, which fails where the hexadecimal text has no bytes. -/
def nextSecretBits (state : MlsLocalGroupState) (channelId : String) (nextEpoch : Nat) :
    Option (Vector UInt8 32) :=
  (hexBytes state.epochSecretHex).map fun prevSecretBytes =>
    W.hkdf prevSecretBytes (textEncode s!"mls_epoch_salt_{nextEpoch}")
      (textEncode s!"mls_epoch_transition_{channelId}_{nextEpoch}")

/-- HKDF on hexadecimal texts. -/
def WebCrypto.kdf : Kdf where
  hkdf secretHex salt info := Hex.encode
    (W.hkdf ((hexBytes secretHex).getD []) (textEncode salt) (textEncode info)).toList

/-- The state that a method goes on to save. The derivation of its secret throws where the last one
has no bytes. -/
def nextState (state : MlsLocalGroupState) (channelId : String) (op : GroupOp) :
    Option MlsLocalGroupState :=
  if (hexBytes state.epochSecretHex).isSome then state.next W.kdf channelId op else none

/-- `addMember` on a state: the next one and the Welcome. Nothing where the user is a member
already or it throws. -/
def addMember (state : MlsLocalGroupState) (channelId newUserId committerUserId : String)
    (keyPkg : Option MlsKeyPackageData) : Option (MlsLocalGroupState × MlsWelcomeEnvelope) := do
  let newMemberKeyHex := match keyPkg with
    | some pkg => pkg.publicKeyHex
    | none => "auto_derived"
  let nextState ← state.next W.kdf channelId (.addMember newUserId newMemberKeyHex)
  let secret ← nextSecretBits W state channelId nextState.epoch
  let welcome : MlsWelcomeEnvelope :=
    { groupId := channelId
      epoch := nextState.epoch
      creatorId := committerUserId
      ephemeralPublicKeyHex := ""
      encryptedEpochSecret := secret.toList
      iv := textEncode s!"welcome_epoch_{nextState.epoch}"
      ratchetTree := nextState.members }
  if welcome.sendable then some (nextState, welcome) else none

end

/-! ## The client -/

/-- The storages and the static fields. -/
structure Client where
  sessionStorage : Table String String
  localStorage : Table String MlsLocalGroupState
  groupCache : Table String MlsLocalGroupState
  appKeyCache : Table String (Vector UInt8 32)
  deriving DecidableEq

namespace Client

/-- A state that is found in the storage goes to the cache. -/
def getLocalGroupState (c : Client) (channelId : String) : Option MlsLocalGroupState × Client :=
  match c.groupCache.lookup channelId with
  | some state => (some state, c)
  | none =>
    match c.localStorage.lookup channelId with
    | some state => (some state, { c with groupCache := c.groupCache.insert channelId state })
    | none => (none, c)

/-- `localStorage` may be unavailable. -/
def saveLocalGroupState (c : Client) (state : MlsLocalGroupState) (persisted : Bool) : Client :=
  { c with
    groupCache := c.groupCache.insert state.groupId state
    localStorage :=
      if persisted then c.localStorage.insert state.groupId state else c.localStorage }

def clearLocalGroupState (c : Client) (channelId : String) (removed : Bool) : Client :=
  { c with
    groupCache := c.groupCache.erase channelId
    localStorage := if removed then c.localStorage.erase channelId else c.localStorage }

/-- The private key in the session storage, under the device's id or else the user's. -/
def privHex (c : Client) (myUserId : String) : String :=
  let read (key : String) := (c.sessionStorage.lookup key).getD ""
  let devId := read "genchat_current_device_id"
  let ofDevice := read s!"genchat_mls_hpke_{devId}"
  if ofDevice ≠ "" then ofDevice else read s!"genchat_mls_hpke_{myUserId}"

end Client

section
variable {Private Public : Type} (W : WebCrypto Private Public)

def importPrivate (privHex : String) : Option Private := (hexBytes privHex).bind W.importPkcs8

/-- The bytes that `joinGroup` takes for the secret. -/
def unwrapSecret (privHex : String) (welcome : MlsWelcomeEnvelope) : List UInt8 :=
  if welcome.ephemeralPublicKeyHex ≠ "" ∧ privHex ≠ "" then
    let decrypted := do
      let privKey ← importPrivate W privHex
      let ephemPub ← (hexBytes welcome.ephemeralPublicKeyHex).bind W.importRaw
      W.decrypt (W.deriveBits privKey ephemPub) welcome.iv welcome.encryptedEpochSecret
    decrypted.getD welcome.encryptedEpochSecret
  else welcome.encryptedEpochSecret

/-- `joinGroup` with the Welcome of the response, if there is one. -/
def Client.joinGroup (c : Client) (channelId myUserId : String)
    (welcome : Option MlsWelcomeEnvelope) (persisted : Bool) :
    Option MlsLocalGroupState × Client :=
  match welcome with
  | none => (none, c)
  | some welcome =>
    let myLeaf := (welcome.ratchetTree.find? (·.userId = myUserId)).map Member.leafIndex
    let state : MlsLocalGroupState :=
      { groupId := channelId
        epoch := welcome.epoch
        myLeafIndex := myLeaf.getD 1
        epochSecretHex := Hex.encode (unwrapSecret W (c.privHex myUserId) welcome)
        members := welcome.ratchetTree }
    (some state, c.saveLocalGroupState state persisted)

/-! ## Application messages -/

/-- The derivation of an application key. -/
def deriveAppKey (state : MlsLocalGroupState) : Option (Vector UInt8 32) :=
  (hexBytes state.epochSecretHex).map fun secretBytes =>
    W.hkdf secretBytes (textEncode s!"mls_app_salt_{state.epoch}")
      (textEncode s!"mls_application_encryption_{state.groupId}_{state.epoch}")

def cacheKey (state : MlsLocalGroupState) : String := s!"{state.groupId}:{state.epoch}"

/-- The key that the call returns. -/
def Client.getEpochApplicationKey (c : Client) (state : MlsLocalGroupState) :
    Option (Vector UInt8 32) :=
  match c.appKeyCache.lookup (cacheKey state) with
  | some appKey => some appKey
  | none => deriveAppKey W state

structure MlsEncryptedGroupMessage where
  protocol : String
  groupId : String
  epoch : Nat
  senderId : String
  ivHex : String
  ciphertext : List UInt8
  deriving DecidableEq

/-- The state that is made up for a group without one. -/
def freshState (channelId userId publicKeyHex : String) (random : Vector UInt8 32) :
    MlsLocalGroupState :=
  ⟨channelId, 0, 0, Hex.encode random.toList, [⟨0, userId, publicKeyHex⟩]⟩

def Client.stateOrFresh (c : Client) (channelId : String) (fresh : MlsLocalGroupState)
    (persisted : Bool) : MlsLocalGroupState × Client :=
  match c.getLocalGroupState channelId with
  | (some state, c) => (state, c)
  | (none, c) => (fresh, c.saveLocalGroupState fresh persisted)

/-- The envelope; nothing where the derivation throws. -/
def Client.encryptGroupMessage (c : Client) (channelId senderId plaintext : String)
    (random : Vector UInt8 32) (iv : Vector UInt8 12) (persisted : Bool) :
    Option MlsEncryptedGroupMessage :=
  let (state, c) := c.stateOrFresh channelId (freshState channelId senderId "auto" random) persisted
  (c.getEpochApplicationKey W state).map fun appKey =>
    { protocol := "genchat-mls-v1"
      groupId := channelId
      epoch := state.epoch
      senderId := senderId
      ivHex := Hex.encode iv.toList
      ciphertext := W.encrypt appKey iv.toList (textEncode plaintext) }

/-- The text of an envelope, or nothing where the payload itself is returned. -/
def Client.decryptGroupMessage (c : Client) (channelId : String)
    (envelope : MlsEncryptedGroupMessage) : Option String :=
  if envelope.protocol ≠ "genchat-mls-v1" then none
  else do
    let state ← (c.getLocalGroupState channelId).1
    let appKey ← c.getEpochApplicationKey W state
    let iv ← hexBytes envelope.ivHex
    let decrypted ← W.decrypt appKey iv envelope.ciphertext
    return textDecode decrypted

end

end GenChat.Group
