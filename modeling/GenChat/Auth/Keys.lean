import GenChat.Auth.Service

/-!
# Keys of devices

The handlers of `keys.go` and the HTTP endpoints of the key service. A `[]byte` that may be nil is
an optional byte list.
-/
namespace GenChat.Auth
open Library
open Ledger (Bytes)
open Database (PreKeyArgs OTK)

/-- `SignedPreKey` and `PqPreKey`. -/
structure SignedKey where
  keyId : UInt32
  publicKey : Option Bytes
  signature : Option Bytes

structure OneTimePreKey where
  keyId : UInt32
  publicKey : Option Bytes

structure UploadPreKeyBundleRequest where
  deviceId : String
  signedPreKey : Option SignedKey
  pqPreKey : Option SignedKey
  oneTimePreKeys : List OneTimePreKey

structure PreKeyBundle where
  identityKey : Bytes
  signedPreKey : Nat × Bytes × Bytes
  pqPreKey : Option (Nat × Bytes × Bytes)
  oneTimePreKey : Option (Nat × Bytes)
  deriving DecidableEq

def OneTimePreKey.otk (k : OneTimePreKey) : OTK := ⟨k.keyId.toNat, k.publicKey⟩

variable (S : Platform)

def verifyDeviceOwnership (ctx : Context) (devUUID : UUID) : Proc (Answer UUID) :=
  let unauthenticated : Status :=
    ⟨.unauthenticated, "missing or invalid user authentication"⟩
  match getUserIDFromCtx S ctx with
  | .error _ => pure (.error unauthenticated)
  | .ok callerUserID =>
    if callerUserID = .nil then pure (.error unauthenticated)
    else do
      match ← issue (.getDeviceByID devUUID) with
      | .error _ => pure (.error ⟨.notFound, "device not found"⟩)
      | .ok device =>
        if device.userID ≠ callerUserID then
          pure (.error ⟨.permissionDenied,
            "permission denied: caller does not own target device"⟩)
        else pure (.ok callerUserID)

/-- What most handlers begin with: the device of the request, checked to be the caller's. -/
def withDevice {α : Type} (ctx : Context) (deviceId : String)
    (handler : UUID → UUID → Proc (Answer α)) : Proc (Answer α) :=
  if deviceId = "" then pure (.error ⟨.invalidArgument, "device_id is required"⟩)
  else match S.parseUUID deviceId with
    | none => pure (.error ⟨.invalidArgument, "invalid device_id"⟩)
    | some devUUID => do
      match ← verifyDeviceOwnership S ctx devUUID with
      | .error err => pure (.error err)
      | .ok callerUserID => handler devUUID callerUserID

/-- Without a PQ pre-key its columns are nil and 0. -/
def preKeyArgs (spk : SignedKey) (pqpk : Option SignedKey) : PreKeyArgs where
  spk := spk.publicKey
  spkSig := spk.signature
  spkID := spk.keyId.toNat
  pqpk := pqpk.bind SignedKey.publicKey
  pqpkSig := pqpk.bind SignedKey.signature
  pqpkID := (pqpk.map fun k => k.keyId.toNat).getD 0

def saveOneTimeKeys (devUUID : UUID) (keys : List OneTimePreKey) : Proc (Answer Unit) :=
  if keys = [] then pure (.ok ())
  else do
    match ← issue (.uploadOneTimeKeys devUUID (keys.map OneTimePreKey.otk)) with
    | .error _ => pure (.error ⟨.internal, "failed to upload one-time keys"⟩)
    | .ok () => pure (.ok ())

def uploadPreKeyBundle (ctx : Context) (req : UploadPreKeyBundleRequest) : Proc (Answer Unit) :=
  withDevice S ctx req.deviceId fun devUUID _ =>
    match req.signedPreKey with
    | none => pure (.error ⟨.invalidArgument, "signed_pre_key is required"⟩)
    | some spk => do
      let now ← issue .now
      match ← issue (.uploadPreKeyBundle devUUID (preKeyArgs spk req.pqPreKey) now) with
      | .error _ => pure (.error ⟨.internal, "failed to upload pre-key bundle"⟩)
      | .ok () => saveOneTimeKeys devUUID req.oneTimePreKeys

/-- An error in a transaction, which is then rolled back. -/
def abort {α : Type} (tx : Nat) : Proc (Except StoreError α) := do
  issue (.rollback tx)
  pure (.error .failed)

/-- The end of the transaction of `FetchPreKeyBundle`: the handler drops an empty one-time key, and
an empty PQ pre-key. -/
def finishFetch (tx : Nat) (identityKey : Bytes) (spkID : Nat) (row : PreKeys)
    (oneTimeKey : Option (Nat × Bytes)) : Proc (Except StoreError PreKeyBundle) := do
  match ← issue (.commit tx) with
  | .error err => pure (.error err)
  | .ok () => pure (.ok {
      identityKey := identityKey
      signedPreKey := (spkID, row.spk, row.spkSig)
      pqPreKey := if row.pqpk = [] then none else some (row.pqpkID, row.pqpk, row.pqpkSig)
      oneTimePreKey := oneTimeKey.filter fun k => k.2 ≠ [] })

/-- The transaction of `PostgresStore.FetchPreKeyBundle`. -/
def storeFetchPreKeyBundle (devUUID : UUID) : Proc (Except StoreError PreKeyBundle) := do
  match ← issue .begin with
  | .error err => pure (.error err)
  | .ok tx =>
    match ← issue (.selectIdentityKey devUUID) with
    | .error _ => abort tx
    | .ok identityKey =>
      match ← issue (.selectPreKeys devUUID) with
      | .error _ => abort tx
      | .ok (spkID, row) =>
        match ← issue (.takeOneTimeKey tx devUUID) with
        | .ok key => finishFetch tx identityKey spkID row (some key)
        | .error .noRows => finishFetch tx identityKey spkID row none
        | .error .failed => abort tx

/-- The device of a fetch: the one that is named, or the first one of the user. -/
def fetchDevice (userId deviceId : String) : Proc String :=
  if deviceId = "" ∧ userId ≠ "" then
    match S.parseUUID userId with
    | none => pure deviceId
    | some uUUID => do
      match ← issue (.getDevicesByUser uUUID) with
      | .ok (device :: _) => pure device.1.text
      | _ => pure deviceId
  else pure deviceId

def fetchPreKeyBundle (ctx : Context) (userId deviceId : String) :
    Proc (Answer PreKeyBundle) :=
  match getUserIDFromCtx S ctx with
  | .error _ =>
    pure (.error ⟨.unauthenticated, "missing or invalid user authentication"⟩)
  | .ok _ => do
    let deviceId ← fetchDevice S userId deviceId
    if deviceId = "" then pure (.error ⟨.invalidArgument, "device_id is required"⟩)
    else match S.parseUUID deviceId with
      | none => pure (.error ⟨.invalidArgument, "invalid device_id"⟩)
      | some devUUID =>
        if userId ≠ "" ∧ S.parseUUID userId = none then
          pure (.error ⟨.invalidArgument, "invalid user_id"⟩)
        else
          match ← storeFetchPreKeyBundle devUUID with
          | .error _ => pure (.error ⟨.notFound, "pre-key bundle not found"⟩)
          | .ok bundle => pure (.ok bundle)

def getKeyCount (ctx : Context) (deviceId : String) : Proc (Answer Nat) :=
  withDevice S ctx deviceId fun devUUID _ => do
    match ← issue (.getRemainingOneTimeKeyCount devUUID) with
    | .error _ => pure (.error ⟨.internal, "failed to get one-time key count"⟩)
    | .ok count => pure (.ok (count % 2 ^ 32))

def uploadOneTimeKeys (ctx : Context) (deviceId : String) (keys : List OneTimePreKey) :
    Proc (Answer Unit) :=
  withDevice S ctx deviceId fun devUUID _ => saveOneTimeKeys devUUID keys

/-- The data are checked before the owner of the device is. -/
def uploadMlsKeyPackage (ctx : Context) (deviceId : String) (keyPackageData : Bytes) :
    Proc (Answer Unit) :=
  if deviceId ≠ "" ∧ S.parseUUID deviceId ≠ none ∧ keyPackageData = [] then
    pure (.error ⟨.invalidArgument, "key_package_data is required"⟩)
  else withDevice S ctx deviceId fun devUUID callerUserID => do
    match ← issue (.saveMlsKeyPackage callerUserID devUUID keyPackageData) with
    | .error _ => pure (.error ⟨.internal, "failed to save mls key package"⟩)
    | .ok () => pure (.ok ())

def fetchMlsKeyPackage (ctx : Context) (userId deviceId : String) : Proc (Answer Bytes) :=
  match getUserIDFromCtx S ctx with
  | .error _ =>
    pure (.error ⟨.unauthenticated, "missing or invalid user authentication"⟩)
  | .ok _ =>
    if userId = "" then pure (.error ⟨.invalidArgument, "user_id is required"⟩)
    else match S.parseUUID userId with
      | none => pure (.error ⟨.invalidArgument, "invalid user_id"⟩)
      | some targetUserID =>
        if deviceId ≠ "" ∧ S.parseUUID deviceId = none then
          pure (.error ⟨.invalidArgument, "invalid device_id"⟩)
        else do
          let targetDevID := if deviceId = "" then none
            else (S.parseUUID deviceId).filter (· ≠ .nil)
          match ← issue (.getActiveMlsKeyPackage targetUserID targetDevID) with
          | .error _ => pure (.error ⟨.notFound, "failed to fetch mls key package"⟩)
          | .ok data => pure (.ok data)

/-! ## HTTP endpoints -/

/-- An object of the body with a key in it; a field that is not a string is missing. -/
structure KeyBody where
  keyId : UInt32
  publicKey : Option String
  signature : Option String

/-- The bytes before the first base64 error. -/
def decoded (text : Option String) : Option Bytes := text.map fun s => (Base64.decodeString s).1

def KeyBody.signedKey (k : KeyBody) : SignedKey :=
  ⟨k.keyId, decoded k.publicKey, decoded k.signature⟩

def KeyBody.oneTimePreKey (k : KeyBody) : OneTimePreKey := ⟨k.keyId, decoded k.publicKey⟩

/-- What the type assertions on the raw body of `UploadPreKeyBundle` find. -/
structure PreKeyBundleBody where
  deviceId : String
  device_id : String
  signedPreKey : Option KeyBody
  pqPreKey : Option KeyBody
  oneTimePreKeys : List KeyBody
  identityKey : String
  identity_key : String
  identityKeyX25519 : String
  identity_key_x25519 : String

def PreKeyBundleBody.request (body : PreKeyBundleBody) (claims : JWTPayload) :
    UploadPreKeyBundleRequest where
  deviceId := orElse (orElse body.deviceId body.device_id) claims.deviceID
  signedPreKey := body.signedPreKey.map KeyBody.signedKey
  pqPreKey := body.pqPreKey.map KeyBody.signedKey
  oneTimePreKeys := body.oneTimePreKeys.map KeyBody.oneTimePreKey

/-- The identity key that the endpoint stores, with the X25519 key behind the Ed25519 key. -/
def PreKeyBundleBody.finalIdentKey (body : PreKeyBundleBody) : Option Bytes :=
  let idKey := Base64.decodeString (orElse body.identityKey body.identity_key)
  let idKeyX25519 := Base64.decodeString (orElse body.identityKeyX25519 body.identity_key_x25519)
  if idKey.2 = false ∨ idKey.1 = [] then none
  else if idKeyX25519.2 ∧ idKeyX25519.1.length = 32 then some (idKey.1 ++ idKeyX25519.1)
  else some idKey.1

/-- The endpoint's own write, before anything is checked but the token. -/
def storeIdentityKey (claims : JWTPayload) (body : PreKeyBundleBody) : Proc Unit :=
  match body.finalIdentKey, S.parseUUID (body.request claims).deviceId with
  | some key, some dUUID => do
    let _ ← issue (.updateDeviceIdentityKey dUUID key)
    pure ()
  | _, _ => pure ()

/-- How the key endpoints report an error of their handler. -/
def keyError (forbidden failed : String) (err : Status) : HttpError :=
  if err.code = .permissionDenied then ⟨forbidden, 403⟩ else ⟨failed, 500⟩

def respond {α : Type} (forbidden failed : String) (handler : Proc (Answer α)) :
    Proc (HttpAnswer α) := do
  match ← handler with
  | .error err => pure (.error (keyError forbidden failed err))
  | .ok a => pure (.ok a)

def httpUploadPreKeyBundle (req : HttpRequest PreKeyBundleBody) : Proc (HttpAnswer Unit) :=
  authenticated [.post] req fun claims =>
    if req.decoded = false then pure (.error ⟨"invalid request payload", 400⟩)
    else do
      storeIdentityKey S claims req.body
      respond "permission denied: cannot upload pre-key bundle for another user's device"
        "failed to upload prekey bundle"
        (uploadPreKeyBundle S ⟨claims.sub, claims.deviceID⟩ (req.body.request claims))

structure OneTimeKeysBody where
  deviceId : String
  device_id : String
  keys : List KeyBody

def httpUploadOneTimeKeys (req : HttpRequest OneTimeKeysBody) : Proc (HttpAnswer Unit) :=
  authenticated [.post] req fun claims =>
    if req.decoded = false then pure (.error ⟨"invalid request payload", 400⟩)
    else
      let deviceID := orElse (orElse req.body.deviceId req.body.device_id) claims.deviceID
      respond "permission denied: cannot upload keys for another user's device"
        "failed to upload one-time keys"
        (uploadOneTimeKeys S ⟨claims.sub, deviceID⟩ deviceID
          (req.body.keys.map KeyBody.oneTimePreKey))

structure DeviceQuery where
  deviceId : String
  device_id : String

def httpGetKeyCount (req : HttpRequest DeviceQuery) : Proc (HttpAnswer Nat) :=
  authenticated [.get, .post] req fun claims =>
    let deviceID := orElse (orElse req.body.deviceId req.body.device_id) claims.deviceID
    respond "permission denied: cannot query key count for another user's device"
      "failed to get one-time key count" (getKeyCount S ⟨claims.sub, deviceID⟩ deviceID)

structure UserDeviceQuery where
  userId : String
  user_id : String
  deviceId : String
  device_id : String

/-- The JSON response: the stored identity key is taken apart again if it is long enough. -/
structure BundleResponse where
  identityKey : String
  identityKeyX25519 : String
  signedPreKey : Nat × String × String
  pqPreKey : Option (Nat × String × String)
  oneTimePreKey : Option (Nat × String)
  deriving DecidableEq

def encodeKey (k : Nat × Bytes × Bytes) : Nat × String × String :=
  (k.1, Base64.encodeToString k.2.1, Base64.encodeToString k.2.2)

def PreKeyBundle.response (b : PreKeyBundle) : BundleResponse where
  identityKey := Base64.encodeToString
    (if 64 ≤ b.identityKey.length then b.identityKey.take 32 else b.identityKey)
  identityKeyX25519 := Base64.encodeToString
    (if 64 ≤ b.identityKey.length then (b.identityKey.drop 32).take 32 else b.identityKey)
  signedPreKey := encodeKey b.signedPreKey
  pqPreKey := b.pqPreKey.map encodeKey
  oneTimePreKey := b.oneTimePreKey.map fun k => (k.1, Base64.encodeToString k.2)

def fetchError (err : Status) : HttpError :=
  match err.code with
  | .unauthenticated => ⟨"unauthenticated", 401⟩
  | .permissionDenied => ⟨"permission denied", 403⟩
  | .invalidArgument => ⟨"invalid argument", 400⟩
  | _ => ⟨"bundle not found", 404⟩

/-- This endpoint has its own texts for a bad token. -/
def httpFetchPreKeyBundle (req : HttpRequest UserDeviceQuery) : Proc (HttpAnswer BundleResponse) :=
  if req.method = .other then pure (.error ⟨"method not allowed", 405⟩)
  else match req.token with
    | none => pure (.error ⟨"missing authorization header", 401⟩)
    | some token => do
      match verifyJWT (← issue .now) token with
      | none => pure (.error ⟨"invalid or expired authorization token", 401⟩)
      | some claims =>
        let userID := orElse req.body.userId req.body.user_id
        let deviceID := orElse req.body.deviceId req.body.device_id
        if deviceID = "" ∧ userID = "" then
          pure (.error ⟨"deviceId or userId is required", 400⟩)
        else
          match ← fetchPreKeyBundle S ⟨claims.sub, claims.deviceID⟩ userID deviceID with
          | .error err => pure (.error (fetchError err))
          | .ok bundle => pure (.ok bundle.response)

structure MlsKeyPackageBody where
  device_id : String
  deviceId : String
  key_package_data : String
  key_package : String

def httpUploadMlsKeyPackage (req : HttpRequest MlsKeyPackageBody) : Proc (HttpAnswer Unit) :=
  authenticated [.post] req fun claims =>
    if req.decoded = false then pure (.error ⟨"invalid request payload", 400⟩)
    else
      let devID := orElse (orElse req.body.device_id req.body.deviceId) claims.deviceID
      let kpRaw := orElse req.body.key_package_data req.body.key_package
      respond "permission denied: cannot upload mls key package for another device"
        "failed to upload mls key package"
        (uploadMlsKeyPackage S ⟨claims.sub, devID⟩ devID (decodeOrRaw kpRaw))

/-- The response holds the key package in base64, and the bytes as a string too. -/
def httpFetchMlsKeyPackage (req : HttpRequest UserDeviceQuery) : Proc (HttpAnswer String) :=
  authenticated [.get, .post] req fun claims =>
    let userID := orElse req.body.user_id req.body.userId
    if userID = "" then pure (.error ⟨"user_id is required", 400⟩)
    else do
      match ← fetchMlsKeyPackage S ⟨claims.sub, claims.deviceID⟩ userID
          (orElse req.body.device_id req.body.deviceId) with
      | .error _ => pure (.error ⟨"mls key package not found", 404⟩)
      | .ok keyPackageData => pure (.ok (Base64.encodeToString keyPackageData))

end GenChat.Auth
