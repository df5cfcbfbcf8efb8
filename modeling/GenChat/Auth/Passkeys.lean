import GenChat.Auth.Service
import GenChat.Library.Base64Url
import GenChat.Library.Concurrent

/-!
# Passkeys and refresh tokens

Registration and login in two steps each, the exchange of a refresh token, and the tables behind
them. The first step of a registration or a login leaves a ceremony under a new id; the second step
looks it up, has the WebAuthn library check the credential against it, and deletes it at its end.
Every operation is one statement. The library is configured without `Timeouts`, so it leaves
`Expires` of its session data at zero and compares no times.
-/
namespace GenChat.Auth.Passkeys
open Library
open Ledger (Bytes Table second)

/-! ## Rows -/

inductive CeremonyType where
  | registration
  | login
  deriving DecidableEq, Repr

/-- A row of `webauthn_ceremonies`. -/
structure Ceremony where
  ceremonyType : CeremonyType
  sessionData : Bytes
  userID : Option UUID
  displayName : String
  expiresAt : Nat
  deriving DecidableEq

/-- The columns of `users` beside its primary key. -/
structure Profile where
  displayName : String
  identityKey : Bytes
  deriving DecidableEq

/-- The columns of `user_devices` that only the passkeys use. -/
structure DevicePasskey where
  label : String
  webauthnCred : Bytes
  deriving DecidableEq

structure Accounts where
  db : Database
  profiles : Table UUID Profile
  passkeys : Table UUID DevicePasskey
  ceremonies : Table String Ceremony
  clock : Nat
  /-- For the proofs: the ids of all ceremonies that have been saved. -/
  begun : List String
  /-- For the proofs: which session a session was given in exchange for. -/
  origins : Table UUID UUID
  deriving DecidableEq

/-! ## Operations -/

inductive Op where
  /-- `time.Now()`. -/
  | now
  /-- `uuid.New()`. -/
  | newUUID
  /-- `rand.Read` into a buffer of this length. -/
  | random (length : Nat)
  | saveCeremony (sessionID : String) (ceremony : Ceremony)
  | getCeremony (sessionID : String)
  | deleteCeremony (sessionID : String)
  | createUser (id : UUID) (displayName : String) (identityKey : Bytes)
  | createDevice (id userID : UUID) (identityKey : Bytes) (label : String) (webauthnCred : Bytes)
  | getDevicesByUser (userID : UUID)
  | updateDeviceLastSeen (deviceID : UUID)
  /-- The origin is not a column. -/
  | createAuthSession (id userID deviceID : UUID) (refreshTokenHash : Bytes) (expiresAt : Nat)
      (origin : Option UUID)
  | getAuthSession (refreshTokenHash : Bytes)
  | revokeAuthSession (sessionID : UUID)
  deriving DecidableEq

abbrev Ret : Op → Type
  | .now => Nat
  | .newUUID => UUID
  | .random _ => Bytes
  | .saveCeremony _ _ => Except StoreError Unit
  | .getCeremony _ => Except StoreError Ceremony
  | .deleteCeremony _ => Except StoreError Unit
  | .createUser _ _ _ => Except StoreError Unit
  | .createDevice _ _ _ _ _ => Except StoreError Unit
  | .getDevicesByUser _ => Except StoreError (List (UUID × Bytes))
  | .updateDeviceLastSeen _ => Except StoreError Unit
  | .createAuthSession _ _ _ _ _ _ => Except StoreError Unit
  | .getAuthSession _ => Except StoreError (UUID × AuthSession)
  | .revokeAuthSession _ => Except StoreError Unit

inductive Choice where
  | ok
  | fail
  /-- The caller sees a failure, but the write took effect. -/
  | failApplied
  | uuid (id : UUID)
  | bytes (b : Bytes)
  /-- Which of several rows a query without an order finds. -/
  | row (n : Nat)
  deriving DecidableEq

namespace Accounts
variable (s : Accounts)

def query {α : Type} (a : Except StoreError α) : Choice → Option (Except StoreError α × Accounts)
  | .ok => some (a, s)
  | .fail => some (.error .failed, s)
  | _ => none

/-- A write, without result when it breaks a constraint. -/
def write (written : Option Accounts) (c : Choice) : Option (Except StoreError Unit × Accounts) :=
  match written with
  | none => some (.error .failed, s)
  | some t =>
    match c with
    | .ok => some (.ok (), t)
    | .fail => some (.error .failed, s)
    | .failApplied => some (.error .failed, t)
    | _ => none

def insertCeremony (id : String) (ceremony : Ceremony) : Option Accounts :=
  if id ∉ s.ceremonies ∧ ceremony.userID.all (· ∈ s.db.users) then
    some { s with ceremonies := s.ceremonies.insert id ceremony, begun := id :: s.begun }
  else none

def removeCeremony (id : String) : Accounts :=
  { s with ceremonies := s.ceremonies.erase id }

/-- Identity keys of users are unique. -/
def insertUser (id : UUID) (displayName : String) (identityKey : Bytes) : Option Accounts :=
  if id ∉ s.db.users ∧ id ∉ s.profiles ∧
      s.profiles.entries.all fun e => e.2.identityKey ≠ identityKey then
    some { s with
      db := { s.db with users := id :: s.db.users }
      profiles := s.profiles.insert id ⟨displayName, identityKey⟩ }
  else none

def insertDevice (id userID : UUID) (identityKey : Bytes) (label : String) (webauthnCred : Bytes) :
    Option Accounts :=
  if id ∉ s.db.devices ∧ userID ∈ s.db.users ∧
      (s.db.devicesOf userID).all fun d => d.2.identityKey ≠ identityKey then
    some { s with
      db := { s.db with devices := s.db.devices.insert id ⟨userID, identityKey⟩ }
      passkeys := s.passkeys.insert id ⟨label, webauthnCred⟩ }
  else none

/-- The devices of a user with their credentials; a missing credential is empty. -/
def credentialsOf (userID : UUID) : List (UUID × Bytes) :=
  (s.db.devicesOf userID).map fun d =>
    (d.1, ((s.passkeys.lookup d.1).map DevicePasskey.webauthnCred).getD [])

def recordOrigin (origins : Table UUID UUID) (id : UUID) : Option UUID → Table UUID UUID
  | some old => origins.insert id old
  | none => origins

def insertSession (id userID deviceID : UUID) (refreshTokenHash : Bytes) (expiresAt : Nat)
    (origin : Option UUID) : Option Accounts :=
  (s.db.insertSession id userID deviceID refreshTokenHash expiresAt).map fun db =>
    { s with
      db := db
      origins := recordOrigin s.origins id origin }

def exec : (op : Op) → Choice → Option (Ret op × Accounts)
  | .now, c => match c with
    | .ok => some (s.clock, s)
    | _ => none
  | .newUUID, c => match c with
    | .uuid id => some (id, s)
    | _ => none
  | .random n, c => match c with
    | .bytes b => if b.length = n then some (b, s) else none
    | _ => none
  | .saveCeremony id ceremony, c => s.write (s.insertCeremony id ceremony) c
  | .getCeremony id, c => s.query (Server.orNoRows (s.ceremonies.lookup id)) c
  | .deleteCeremony id, c => s.write (some (s.removeCeremony id)) c
  | .createUser id name key, c => s.write (s.insertUser id name key) c
  | .createDevice id u key label cred, c => s.write (s.insertDevice id u key label cred) c
  | .getDevicesByUser u, c => s.query (.ok (s.credentialsOf u)) c
  | .updateDeviceLastSeen _, c => s.write (some s) c
  | .createAuthSession id u d hash time origin, c =>
    s.write (s.insertSession id u d hash time origin) c
  | .getAuthSession hash, c => match c with
    | .row n => (s.db.selectSession hash)[n]?.map fun found => (.ok found, s)
    | .ok => if s.db.selectSession hash = [] then some (.error .noRows, s) else none
    | .fail => some (.error .failed, s)
    | _ => none
  | .revokeAuthSession id, c => s.write (some { s with db := s.db.revokeSession id }) c

end Accounts

abbrev system : System Op Ret := ⟨Accounts, Choice, Accounts.exec⟩

abbrev Proc := Prog Op Ret

@[simp] def issue (op : Op) : Proc (Ret op) := Prog.perform op

/-! ## The WebAuthn library -/

/-- `webauthn.Credential`, without the fields that only the library reads. -/
structure Credential where
  id : Bytes
  publicKey : Bytes
  deriving DecidableEq

/-- `waconfig.User`. -/
structure WebAuthnUser where
  id : Bytes
  name : String
  displayName : String
  credentials : List Credential
  deriving DecidableEq

/-- `webauthn.SessionData`. -/
structure SessionData where
  challenge : Bytes
  userID : Bytes
  allowedCredentialIDs : List Bytes
  deriving DecidableEq

/-- What a parsed response of an authenticator consists of. -/
structure ParsedResponse where
  rawID : Bytes
  response : Bytes
  deriving DecidableEq

/-- The options for the browser: the challenge and for whom it is. -/
structure CredentialOptions where
  challenge : Bytes
  user : WebAuthnUser
  deriving DecidableEq

/-- What the handlers take from outside. -/
structure Platform where
  /-- `uuid.Parse`. -/
  parseUUID : String → Option UUID
  /-- The sixteen bytes of a UUID. -/
  uuidBytes : UUID → Bytes
  /-- `sha256.Sum256` of the bytes of a text. -/
  sha256 : String → Bytes
  /-- The first steps of the library, which draw a challenge. -/
  beginRegistration : WebAuthnUser → Bytes → Option (CredentialOptions × SessionData)
  beginLogin : WebAuthnUser → Bytes → Option (CredentialOptions × SessionData)
  parseCreationResponse : Bytes → Option ParsedResponse
  parseRequestResponse : Bytes → Option ParsedResponse
  createCredential : WebAuthnUser → SessionData → ParsedResponse → Option Credential
  validateLogin : WebAuthnUser → SessionData → ParsedResponse → Option Credential
  /-- `json.Marshal` and `json.Unmarshal`. -/
  marshalOptions : CredentialOptions → Option Bytes
  marshalSession : SessionData → Option Bytes
  unmarshalSession : Bytes → Option SessionData
  marshalCredential : Credential → Option Bytes
  unmarshalCredential : Bytes → Option Credential

/-! ## Handlers -/

structure FinishRegistrationRequest where
  sessionId : String
  credentialJson : Bytes
  identityKey : Bytes
  deviceLabel : String

structure FinishLoginRequest where
  sessionId : String
  credentialJson : Bytes

inductive Response where
  | begun (optionsJson : Bytes) (sessionId : String)
  | finished (userId deviceId : String) (accessToken : Token) (refreshToken : String)
  | refreshed (accessToken : Token) (refreshToken : String)
  deriving DecidableEq

def refuse {α : Type} (code : Code) (message : String) : Proc (Answer α) :=
  pure (.error ⟨code, message⟩)

def minute : Nat := 60 * second

def day : Nat := 24 * 60 * minute

def generateJWT (userID deviceID : UUID) : Proc Token := do
  let now ← issue .now
  pure ⟨⟨userID.text, deviceID.text, ((now + 15 * minute) / second : Nat)⟩, true⟩

def generateRefreshToken : Proc String := do
  let b ← issue (.random 32)
  pure (Base64Url.encodeToString b)

variable (S : Platform)

/-- The tokens at the end of a login, a registration and an exchange, and the session they belong
to. -/
def issueTokens (userID deviceID : UUID) (origin : Option UUID) :
    Proc (Except StoreError (Token × String)) := do
  let accessToken ← generateJWT userID deviceID
  let refreshToken ← generateRefreshToken
  let now ← issue .now
  let id ← issue .newUUID
  match ← issue (.createAuthSession id userID deviceID (S.sha256 refreshToken) (now + 30 * day)
      origin) with
  | .error err => pure (.error err)
  | .ok () => pure (.ok (accessToken, refreshToken))

/-- The end of both second steps. -/
def finish (sessionId : String) (userID deviceID : UUID) : Proc (Answer Response) := do
  match ← issueTokens S userID deviceID none with
  | .error _ => refuse .internal "failed to create auth session"
  | .ok (accessToken, refreshToken) => do
    let _ ← issue (.deleteCeremony sessionId)
    pure (.ok (.finished userID.text deviceID.text accessToken refreshToken))

/-- The end of both first steps. -/
def saveCeremony (ceremonyType : CeremonyType) (userID : Option UUID) (displayName : String)
    (begun : Option (CredentialOptions × SessionData)) (failure : String) :
    Proc (Answer Response) :=
  match begun with
  | none => refuse .internal failure
  | some (options, sessionData) =>
    match S.marshalSession sessionData with
    | none => refuse .internal "failed to marshal session data"
    | some sessionJSON => do
      let sessionID ← issue .newUUID
      let now ← issue .now
      match ← issue (.saveCeremony sessionID.text
          ⟨ceremonyType, sessionJSON, userID, displayName, now + 5 * minute⟩) with
      | .error _ => refuse .internal "failed to save ceremony"
      | .ok () =>
        match S.marshalOptions options with
        | none => refuse .internal "failed to marshal options"
        | some optionsJSON => pure (.ok (.begun optionsJSON sessionID.text))

def beginRegistration (displayName : String) : Proc (Answer Response) := do
  let tempID ← issue (.random 32)
  let challenge ← issue (.random 32)
  saveCeremony S .registration none displayName
    (S.beginRegistration ⟨tempID, displayName, displayName, []⟩ challenge)
    "begin registration failed"

/-- The checks of a registration: the credential as it is stored. -/
def checkRegistration (ceremony : Ceremony) (credentialJson : Bytes) : Except Status Bytes :=
  if ceremony.ceremonyType ≠ .registration then
    .error ⟨.invalidArgument, "invalid ceremony type"⟩
  else match S.unmarshalSession ceremony.sessionData with
    | none => .error ⟨.internal, "failed to unmarshal session data"⟩
    | some sessionData =>
      match S.parseCreationResponse credentialJson with
      | none => .error ⟨.invalidArgument, "failed to parse credential creation response"⟩
      | some parsedResponse =>
        match S.createCredential
            ⟨sessionData.userID, ceremony.displayName, ceremony.displayName, []⟩ sessionData
            parsedResponse with
        | none => .error ⟨.unauthenticated, "failed to create credential"⟩
        | some credential =>
          match S.marshalCredential credential with
          | none => .error ⟨.internal, "failed to marshal credential"⟩
          | some credJSON => .ok credJSON

/-- A registration, once its user stands. -/
def createFirstDevice (req : FinishRegistrationRequest) (userID : UUID) (credJSON : Bytes) :
    Proc (Answer Response) := do
  let deviceID ← issue .newUUID
  match ← issue (.createDevice deviceID userID req.identityKey
      (orElse req.deviceLabel "Default Device") credJSON) with
  | .error _ => refuse .internal "failed to create device"
  | .ok () => finish S req.sessionId userID deviceID

/-- The writes of a registration. -/
def createAccount (req : FinishRegistrationRequest) (displayName : String) (credJSON : Bytes) :
    Proc (Answer Response) := do
  let userID ← issue .newUUID
  match ← issue (.createUser userID displayName req.identityKey) with
  | .error _ => refuse .internal "failed to create user"
  | .ok () => createFirstDevice S req userID credJSON

def finishRegistration (req : FinishRegistrationRequest) : Proc (Answer Response) :=
  if req.identityKey.length ≠ 32 then refuse .invalidArgument "invalid identity_key length"
  else do
    match ← issue (.getCeremony req.sessionId) with
    | .error _ => refuse .notFound "failed to get ceremony"
    | .ok ceremony =>
      match checkRegistration S ceremony req.credentialJson with
      | .error err => pure (.error err)
      | .ok credJSON => createAccount S req ceremony.displayName credJSON

/-- The credentials among the columns of a user's devices, each with its device. -/
def readCredentials (devices : List (UUID × Bytes)) : List (Credential × UUID) :=
  devices.filterMap fun d => (S.unmarshalCredential d.2).map fun cred => (cred, d.1)

/-- `credToDevice`, where a later device replaces an earlier one. -/
def credToDevice (creds : List (Credential × UUID)) (id : Bytes) : Option UUID :=
  (creds.reverse.find? fun e => e.1.id = id).map Prod.snd

def beginLogin (userId : String) : Proc (Answer Response) :=
  match S.parseUUID userId with
  | none => refuse .invalidArgument "invalid user_id"
  | some uid => do
    match ← issue (.getDevicesByUser uid) with
    | .error _ => refuse .notFound "failed to get devices"
    | .ok devices => do
      let creds := readCredentials S devices
      let challenge ← issue (.random 32)
      saveCeremony S .login (some uid) userId
        (S.beginLogin ⟨S.uuidBytes uid, userId, userId, creds.map Prod.fst⟩ challenge)
        "begin login failed"

/-- The checks of a login: the device of the credential. -/
def checkLogin (ceremony : Ceremony) (uid : UUID) (devices : List (UUID × Bytes))
    (credentialJson : Bytes) : Except Status UUID :=
  let creds := readCredentials S devices
  match S.unmarshalSession ceremony.sessionData with
  | none => .error ⟨.internal, "failed to unmarshal session data"⟩
  | some sessionData =>
    match S.parseRequestResponse credentialJson with
    | none => .error ⟨.invalidArgument, "failed to parse credential request response"⟩
    | some parsedResponse =>
      match S.validateLogin ⟨S.uuidBytes uid, ceremony.displayName, ceremony.displayName,
          creds.map Prod.fst⟩ sessionData parsedResponse with
      | none => .error ⟨.unauthenticated, "failed to validate login"⟩
      | some credential =>
        match credToDevice creds credential.id with
        | none => .error ⟨.notFound, "device not found for credential"⟩
        | some deviceID => .ok deviceID

def finishLogin (req : FinishLoginRequest) : Proc (Answer Response) := do
  match ← issue (.getCeremony req.sessionId) with
  | .error _ => refuse .notFound "failed to get ceremony"
  | .ok ceremony =>
    if ceremony.ceremonyType ≠ .login then refuse .invalidArgument "invalid ceremony type"
    else match ceremony.userID with
      | none => refuse .internal "invalid user id in ceremony"
      | some uid => do
        match ← issue (.getDevicesByUser uid) with
        | .error _ => refuse .notFound "failed to get devices"
        | .ok devices =>
          match checkLogin S ceremony uid devices req.credentialJson with
          | .error err => pure (.error err)
          | .ok deviceID => do
            match ← issue (.updateDeviceLastSeen deviceID) with
            | .error _ => refuse .internal "failed to update device last seen"
            | .ok () => finish S req.sessionId uid deviceID

def refreshToken (token : String) : Proc (Answer Response) := do
  match ← issue (.getAuthSession (S.sha256 token)) with
  | .error _ => refuse .unauthenticated "invalid refresh token"
  | .ok (id, session) =>
    if session.revoked then refuse .unauthenticated "refresh token revoked"
    else do
      let now ← issue .now
      if session.expiresAt < now then refuse .unauthenticated "refresh token expired"
      else match ← issue (.revokeAuthSession id) with
        | .error _ => refuse .internal "failed to revoke old session"
        | .ok () => do
          match ← issueTokens S session.userID session.deviceID (some id) with
          | .error _ => refuse .internal "failed to create new auth session"
          | .ok (accessToken, newRefreshToken) =>
            pure (.ok (.refreshed accessToken newRefreshToken))

/-! ## The service -/

inductive Request where
  | beginRegistration (displayName : String)
  | finishRegistration (req : FinishRegistrationRequest)
  | beginLogin (userId : String)
  | finishLogin (req : FinishLoginRequest)
  | refreshToken (token : String)

def Request.handle : Request → Proc (Answer Response)
  | .beginRegistration displayName => Passkeys.beginRegistration S displayName
  | .finishRegistration req => Passkeys.finishRegistration S req
  | .beginLogin userId => Passkeys.beginLogin S userId
  | .finishLogin req => Passkeys.finishLogin S req
  | .refreshToken token => Passkeys.refreshToken S token

inductive Event where
  | tick (nanoseconds : Nat)
  /-- `RevokeAuthSessionByID`. -/
  | revokeByID (userID sessionID : UUID)
  deriving DecidableEq

def Accounts.event (s : Accounts) : Event → Option Accounts
  | .tick n => some { s with clock := s.clock + n }
  | .revokeByID userID sessionID =>
    if (s.db.sessions.lookup sessionID).any fun row => row.userID = userID then
      some { s with db := s.db.revokeSession sessionID }
    else some s

/-! ## What an operation does -/

namespace Accounts
variable {s s' : Accounts} {op : Op} {c : Choice} {r : Ret op}

@[simp] theorem query_eq_some {α : Type} {a r : Except StoreError α} :
    s.query a c = some (r, s') ↔ s' = s ∧ (c = .ok ∧ r = a ∨ c = .fail ∧ r = .error .failed) := by
  cases c <;> simp [query, eq_comm, and_comm]

theorem write_eq_some {written : Option Accounts} {r : Except StoreError Unit}
    (h : s.write written c = some (r, s')) :
    r = .error .failed ∧ s' = s ∧ (written = none ∨ c = .fail) ∨
      written = some s' ∧ (c = .ok ∧ r = .ok () ∨ c = .failApplied ∧ r = .error .failed) := by
  cases written with
  | none =>
    cases h
    exact .inl ⟨rfl, rfl, .inl rfl⟩
  | some t => cases c <;> cases h <;> simp

theorem insertUser_eq_some {id : UUID} {name : String} {key : Bytes}
    (h : s.insertUser id name key = some s') :
    (id ∉ s.db.users ∧ id ∉ s.profiles ∧ ∀ e ∈ s.profiles.entries, e.2.identityKey ≠ key) ∧
      s' = { s with
        db := { s.db with users := id :: s.db.users }
        profiles := s.profiles.insert id ⟨name, key⟩ } := by
  obtain ⟨⟨fresh, new, unique⟩, h⟩ := Option.ite_none_right_eq_some.mp h
  cases h
  exact ⟨⟨fresh, new, by simpa using unique⟩, rfl⟩

theorem insertDevice_eq_some {id u : UUID} {key : Bytes} {label : String} {cred : Bytes}
    (h : s.insertDevice id u key label cred = some s') :
    (id ∉ s.db.devices ∧ u ∈ s.db.users) ∧ s' = { s with
      db := { s.db with devices := s.db.devices.insert id ⟨u, key⟩ }
      passkeys := s.passkeys.insert id ⟨label, cred⟩ } := by
  obtain ⟨⟨fresh, user, -⟩, h⟩ := Option.ite_none_right_eq_some.mp h
  cases h
  exact ⟨⟨fresh, user⟩, rfl⟩

theorem insertSession_eq_some {id u d : UUID} {hash : Bytes} {time : Nat} {origin : Option UUID}
    (h : s.insertSession id u d hash time origin = some s') :
    (id ∉ s.db.sessions ∧ u ∈ s.db.users ∧ d ∈ s.db.devices) ∧ s' = { s with
      db := { s.db with sessions := s.db.sessions.insert id ⟨u, d, hash, time, false⟩ }
      origins := recordOrigin s.origins id origin } := by
  obtain ⟨db, inserted, rfl⟩ := Option.map_eq_some_iff.mp h
  obtain ⟨allowed, inserted⟩ := Option.ite_none_right_eq_some.mp inserted
  cases inserted
  exact ⟨allowed, rfl⟩

theorem insertCeremony_eq_some {id : String} {ceremony : Ceremony}
    (h : s.insertCeremony id ceremony = some s') : id ∉ s.ceremonies ∧
      s' = { s with ceremonies := s.ceremonies.insert id ceremony, begun := id :: s.begun } := by
  obtain ⟨⟨fresh, -⟩, h⟩ := Option.ite_none_right_eq_some.mp h
  cases h
  exact ⟨fresh, rfl⟩

/-- What the operation does to the accounts when it takes effect. -/
def effect (s : Accounts) : Op → Option Accounts
  | .saveCeremony id ceremony => s.insertCeremony id ceremony
  | .deleteCeremony id => some (s.removeCeremony id)
  | .createUser id name key => s.insertUser id name key
  | .createDevice id u key label cred => s.insertDevice id u key label cred
  | .createAuthSession id u d hash time origin => s.insertSession id u d hash time origin
  | .revokeAuthSession id => some { s with db := s.db.revokeSession id }
  | _ => none

/-- An operation changes nothing, or it takes effect. -/
theorem exec_cases (h : s.exec op c = some (r, s')) :
    s' = s ∨ s.effect op = some s' ∧ c ≠ .fail := by
  cases op
  case saveCeremony | deleteCeremony | createUser | createDevice | createAuthSession |
      revokeAuthSession =>
    simp only [exec] at h
    obtain ⟨-, rfl, -⟩ | ⟨written, ⟨rfl, -⟩ | ⟨rfl, -⟩⟩ := write_eq_some h
    · exact .inl rfl
    · exact .inr ⟨written, nofun⟩
    · exact .inr ⟨written, nofun⟩
  case updateDeviceLastSeen =>
    simp only [exec] at h
    obtain ⟨-, rfl, -⟩ | ⟨written, -⟩ := write_eq_some h
    · exact .inl rfl
    · exact .inl (Option.some.inj written).symm
  case getCeremony | getDevicesByUser => exact .inl (query_eq_some.mp h).1
  case now | newUUID =>
    cases c <;> cases h
    exact .inl rfl
  case random n =>
    cases c
    case bytes b =>
      obtain ⟨-, h⟩ := Option.ite_none_right_eq_some.mp h
      cases h
      exact .inl rfl
    all_goals cases h
  case getAuthSession =>
    cases c
    case row n =>
      obtain ⟨found, -, h⟩ := Option.map_eq_some_iff.mp h
      cases h
      exact .inl rfl
    case ok =>
      simp only [exec] at h
      split at h <;> cases h
      exact .inl rfl
    all_goals cases h
    exact .inl rfl

end Accounts

/-! ## Tokens -/

section Tokens
variable {S : Platform} {s s' : Accounts} {trace : List (Op × Choice)} {u d : UUID}

/-- The operation asks the world outside the database. -/
def Op.isDraw : Op → Bool
  | .now | .newUUID | .random _ => true
  | _ => false

theorem exec_draw {op : Op} {c : Choice} {r : Ret op} (draw : op.isDraw)
    (h : s.exec op c = some (r, s')) : s' = s := by
  rcases Accounts.exec_cases h with same | ⟨written, -⟩
  · exact same
  · cases op <;> simp [Op.isDraw] at draw <;> cases written

/-- Tokens are issued when their session has been written. -/
theorem executes_issueTokens {origin : Option UUID} {r : Except StoreError (Token × String)}
    (run : Executes system (issueTokens S u d origin) s trace r s') :
    ∃ before id hash time c answer,
      trace = before ++ [(.createAuthSession id u d hash time origin, c)] ∧
      (∀ x ∈ before, x.1.isDraw) ∧
      s.write (s.insertSession id u d hash time origin) c = some (answer, s') ∧
      ((∃ tokens, r = .ok tokens) ∧ answer = .ok () ∨
        (∃ err, r = .error err) ∧ ∃ err, answer = .error err) := by
  obtain ⟨c₁, now, s₁, t₁, h₁, run₁, rfl⟩ := executes_call.mp run
  obtain ⟨c₂, bytes, s₂, t₂, h₂, run₂, rfl⟩ := executes_call.mp run₁
  obtain ⟨c₃, later, s₃, t₃, h₃, run₃, rfl⟩ := executes_call.mp run₂
  obtain ⟨c₄, id, s₄, t₄, h₄, run₄, rfl⟩ := executes_call.mp run₃
  obtain ⟨c₅, answer, s₅, t₅, h₅, run₅, rfl⟩ := executes_call.mp run₄
  obtain rfl := @exec_draw s s₁ .now c₁ now rfl h₁
  obtain rfl := @exec_draw s₁ s₂ (.random 32) c₂ bytes rfl h₂
  obtain rfl := @exec_draw s₂ s₃ .now c₃ later rfl h₃
  obtain rfl := @exec_draw s₃ s₄ .newUUID c₄ id rfl h₄
  refine ⟨[(.now, c₁), (.random 32, c₂), (.now, c₃), (.newUUID, c₄)], id,
    S.sha256 (Base64Url.encodeToString bytes), later + 30 * day, c₅, answer, ?_,
    by simp [Op.isDraw], ?_⟩
  · cases answer <;> obtain ⟨rfl, -⟩ := executes_pure.mp run₅ <;> rfl
  · cases answer <;> obtain ⟨rfl, rfl, rfl⟩ := executes_pure.mp run₅
    · exact ⟨h₅, .inr ⟨⟨_, rfl⟩, ⟨_, rfl⟩⟩⟩
    · exact ⟨h₅, .inl ⟨⟨_, rfl⟩, rfl⟩⟩

/-- A second step that has come to its end without an error has written a session, and whether the
ceremony is deleted does not matter to it. -/
theorem executes_finish {sessionId : String} {a : Answer Response}
    (run : Executes system (finish S sessionId u d) s trace a s') :
    (∃ err, a = .error err) ∨ (∃ response, a = .ok response) ∧ ∃ id hash time t c,
      s.insertSession id u d hash time none = some t ∧ (.deleteCeremony sessionId, c) ∈ trace ∧
      (s' = t ∧ c = .fail ∨ s' = t.removeCeremony sessionId ∧ c ≠ .fail) := by
  obtain ⟨first, r, s₁, later, issued, rest, rfl⟩ := executes_bind.mp run
  obtain ⟨before, id, hash, time, c, answer, rfl, -, wrote, outcome⟩ := executes_issueTokens issued
  rcases outcome with ⟨⟨tokens, rfl⟩, rfl⟩ | ⟨⟨err, rfl⟩, -⟩
  · obtain ⟨c', deleted, s₂, end', removed, last, rfl⟩ := executes_call.mp rest
    obtain ⟨rfl, rfl, rfl⟩ := executes_pure.mp last
    obtain ⟨⟨⟩, -⟩ | ⟨inserted, -⟩ := Accounts.write_eq_some wrote
    refine .inr ⟨⟨_, rfl⟩, id, hash, time, s₁, c', inserted, by simp, ?_⟩
    have removed : Accounts.write s₁ (some (s₁.removeCeremony sessionId)) c' =
      some (deleted, s₂) := removed
    obtain ⟨-, rfl, ⟨⟨⟩⟩ | rfl⟩ | ⟨written, same⟩ := Accounts.write_eq_some removed
    · exact .inl ⟨rfl, rfl⟩
    · refine .inr ⟨(Option.some.inj written).symm, ?_⟩
      rintro rfl
      obtain ⟨⟨⟩, -⟩ | ⟨⟨⟩, -⟩ := same
  · obtain ⟨-, rfl, -⟩ := executes_pure.mp rest
    exact .inl ⟨_, rfl⟩

end Tokens

/-! ## Referential integrity -/

namespace Accounts

/-- The foreign keys of devices and sessions, and the primary key of the profiles. -/
structure Referential (s : Accounts) : Prop where
  devices : ∀ d row, s.db.devices.lookup d = some row → row.userID ∈ s.db.users
  sessions : ∀ id row, s.db.sessions.lookup id = some row →
    row.userID ∈ s.db.users ∧ row.deviceID ∈ s.db.devices
  profiles : ∀ id ∈ s.profiles, id ∈ s.db.users

variable {s s' : Accounts} {op : Op} {c : Choice} {r : Ret op}

theorem revokeSession_referential (h : s.Referential) (id : UUID) :
    Referential { s with db := s.db.revokeSession id } := by
  unfold Database.revokeSession
  split
  · rename_i row found
    refine ⟨h.devices, fun id' row' found' => ?_, h.profiles⟩
    by_cases same : id' = id
    · subst same
      rw [AList.lookup_insert] at found'
      cases found'
      exact h.sessions id' row found
    · rw [AList.lookup_insert_ne same] at found'
      exact h.sessions id' row' found'
  · exact h

/-- No operation breaks a foreign key. -/
theorem exec_referential (h : s.Referential) (step : s.exec op c = some (r, s')) :
    s'.Referential := by
  rcases exec_cases step with rfl | ⟨written, -⟩
  · exact h
  cases op
  case saveCeremony =>
    obtain ⟨-, rfl⟩ := insertCeremony_eq_some written
    exact ⟨h.devices, h.sessions, h.profiles⟩
  case deleteCeremony =>
    cases written
    exact ⟨h.devices, h.sessions, h.profiles⟩
  case createUser id name key =>
    obtain ⟨-, rfl⟩ := insertUser_eq_some written
    refine ⟨fun d row found => .tail _ (h.devices d row found), fun id' row found =>
      ⟨.tail _ (h.sessions id' row found).1, (h.sessions id' row found).2⟩, fun id' mem => ?_⟩
    obtain rfl | old := AList.mem_insert _ |>.mp mem
    · exact List.mem_cons_self
    · exact .tail _ (h.profiles id' old)
  case createDevice id u key label cred =>
    obtain ⟨⟨-, user⟩, rfl⟩ := insertDevice_eq_some written
    refine ⟨fun d row found => ?_, fun id' row found => ⟨(h.sessions id' row found).1,
      AList.mem_insert _ |>.mpr (.inr (h.sessions id' row found).2)⟩, h.profiles⟩
    by_cases same : d = id
    · subst same
      rw [AList.lookup_insert] at found
      cases found
      exact user
    · rw [AList.lookup_insert_ne same] at found
      exact h.devices d row found
  case createAuthSession id u d hash time origin =>
    obtain ⟨⟨-, user, device⟩, rfl⟩ := insertSession_eq_some written
    refine ⟨h.devices, fun id' row found => ?_, h.profiles⟩
    by_cases same : id' = id
    · subst same
      rw [AList.lookup_insert] at found
      cases found
      exact ⟨user, device⟩
    · rw [AList.lookup_insert_ne same] at found
      exact h.sessions id' row found
  case revokeAuthSession id =>
    cases written
    exact revokeSession_referential h id
  all_goals cases written

theorem event_referential {e : Event} (h : s.Referential) (step : s.event e = some s') :
    s'.Referential := by
  cases e with
  | tick n =>
    cases step
    exact ⟨h.devices, h.sessions, h.profiles⟩
  | revokeByID u id =>
    simp only [event] at step
    split at step <;> cases step
    · exact revokeSession_referential h id
    · exact h

end Accounts

/-- Any number of requests at a time, from accounts without sessions and ceremonies. -/
abbrev service : Service Op Ret (Answer Response) Request Event where
  system := system
  init s := s.Referential ∧ s.db.sessions = ∅ ∧ s.ceremonies = ∅ ∧ s.begun = [] ∧ s.origins = ∅
  env := Accounts.event
  body req := req.handle S

/-- The accounts keep their foreign keys in every run. -/
theorem service_referential {S : Platform} {p : Pool (service S)}
    (h : (Pool.machine (service S)).Reachable p) : p.shared.Referential := by
  refine h.invariant (I := fun p : Pool (service S) => p.shared.Referential) ?_ ?_
  · rintro p ⟨s, ⟨referential, -⟩, rfl⟩
    exact referential
  · intro p label p' referential _ step
    cases label with
    | spawn t =>
      cases step
      exact referential
    | run i c =>
      obtain ⟨t, op, k, r, s, -, executed, rfl⟩ := Pool.run_cases step
      exact Accounts.exec_referential referential executed
    | env e =>
      obtain ⟨s, changed, rfl⟩ := Option.map_eq_some_iff.mp step
      exact Accounts.event_referential referential changed

namespace Sample
open Auth.Sample (alice alicePhone bob bobPhone)

/-- A library that takes the challenge itself for its signature. -/
def platform : Platform where
  parseUUID text := [alice, alicePhone, bob, bobPhone].find? (·.text = text)
  uuidBytes id := id.text.toUTF8.data.toList
  sha256 text := text.toUTF8.data.toList
  beginRegistration user challenge := some (⟨challenge, user⟩, ⟨challenge, user.id, []⟩)
  beginLogin user challenge :=
    some (⟨challenge, user⟩, ⟨challenge, user.id, user.credentials.map Credential.id⟩)
  parseCreationResponse json := some ⟨json.take 1, json.drop 1⟩
  parseRequestResponse json := some ⟨json.take 1, json.drop 1⟩
  createCredential _ session parsed :=
    if session.challenge = parsed.response then some ⟨parsed.rawID, parsed.response⟩ else none
  validateLogin user session parsed :=
    if session.challenge = parsed.response then user.credentials.find? (·.id = parsed.rawID)
    else none
  marshalOptions options := some options.challenge
  marshalSession session := some session.challenge
  unmarshalSession json := if json = [] then none else some ⟨json, [], []⟩
  marshalCredential credential := some (credential.id ++ credential.publicKey)
  unmarshalCredential json := if json = [] then none else some ⟨json.take 1, json.drop 1⟩

def challenge : Bytes := List.replicate 32 5

/-- Nothing but one ceremony. -/
def accounts : Accounts where
  db := Database.empty
  profiles := ∅
  passkeys := ∅
  ceremonies := (∅ : Table String Ceremony).insert "c1"
    ⟨.registration, challenge, none, "Alice", Auth.Sample.clock + 5 * minute⟩
  clock := Auth.Sample.clock
  begun := ["c1"]
  origins := ∅

end Sample
end GenChat.Auth.Passkeys
