import GenChat.Auth.Store
import GenChat.Library.Base64
import GenChat.Library.Prog

/-!
# What the handlers of the auth service call

Every operation is one SQL statement, one transaction that reads nothing back, or one question to
the world outside the database. The choice decides whether it fails; a failed write may have been
applied or not. The transaction of `FetchPreKeyBundle` stands statement by statement, with the row
that its `UPDATE` has locked until it ends.
-/
namespace GenChat.Auth
open Library
open Ledger (Bytes Table)
open Database (PreKeyArgs OTK)

inductive Op where
  /-- `time.Now()`. -/
  | now
  /-- `uuid.New()`. -/
  | newUUID
  /-- `authLimiter.Allow`. -/
  | allow
  | createChannel (channelID : UUID) (channelType name : String) (creatorID : UUID)
      (memberIDs : List UUID)
  | getChannelMembers (channelID : UUID)
  | joinChannel (channelID userID : UUID)
  | leaveChannel (channelID userID : UUID)
  | isChannelMember (channelID userID : UUID)
  | saveMlsWelcome (channelID userID : UUID) (epoch : Nat) (welcomeData : Bytes)
  | getMlsWelcome (channelID userID : UUID)
  | saveMlsCommit (channelID senderID : UUID) (epoch : Nat) (commitData : Bytes)
  | getDeviceByID (id : UUID)
  | getDevicesByUser (userID : UUID)
  | updateDeviceIdentityKey (deviceID : UUID) (identityKey : Bytes)
  | uploadPreKeyBundle (deviceID : UUID) (args : PreKeyArgs) (uploadedAt : Nat)
  | uploadOneTimeKeys (deviceID : UUID) (keys : List OTK)
  | getRemainingOneTimeKeyCount (deviceID : UUID)
  | begin
  | selectIdentityKey (deviceID : UUID)
  | selectPreKeys (deviceID : UUID)
  /-- `UPDATE … WHERE id = (SELECT … FOR UPDATE SKIP LOCKED) RETURNING key_id, public_key`. -/
  | takeOneTimeKey (tx : Nat) (deviceID : UUID)
  | commit (tx : Nat)
  | rollback (tx : Nat)
  | saveMlsKeyPackage (userID deviceID : UUID) (keyPackage : Bytes)
  | getActiveMlsKeyPackage (userID : UUID) (deviceID : Option UUID)
  | registerPushToken (deviceID : UUID) (row : PushToken)
  | getPushTokensForUser (userID : UUID)
  | unregisterPushToken (deviceID : UUID)
  | createAuthSession (id userID deviceID : UUID) (refreshTokenHash : Bytes) (expiresAt : Nat)
  | getAuthSession (refreshTokenHash : Bytes)
  | revokeAuthSession (sessionID : UUID)
  deriving DecidableEq

inductive StoreError where
  | failed
  /-- `pgx.ErrNoRows`. -/
  | noRows
  deriving DecidableEq

abbrev Ret : Op → Type
  | .now => Nat
  | .newUUID => UUID
  | .allow => Bool
  | .createChannel _ _ _ _ _ => Except StoreError Unit
  | .getChannelMembers _ => Except StoreError (List (UUID × String))
  | .joinChannel _ _ => Except StoreError Unit
  | .leaveChannel _ _ => Except StoreError Unit
  | .isChannelMember _ _ => Except StoreError Bool
  | .saveMlsWelcome _ _ _ _ => Except StoreError Unit
  | .getMlsWelcome _ _ => Except StoreError (Option Bytes)
  | .saveMlsCommit _ _ _ _ => Except StoreError Unit
  | .getDeviceByID _ => Except StoreError Device
  | .getDevicesByUser _ => Except StoreError (List (UUID × Device))
  | .updateDeviceIdentityKey _ _ => Except StoreError Unit
  | .uploadPreKeyBundle _ _ _ => Except StoreError Unit
  | .uploadOneTimeKeys _ _ => Except StoreError Unit
  | .getRemainingOneTimeKeyCount _ => Except StoreError Nat
  | .begin => Except StoreError Nat
  | .selectIdentityKey _ => Except StoreError Bytes
  | .selectPreKeys _ => Except StoreError (Nat × PreKeys)
  | .takeOneTimeKey _ _ => Except StoreError (Nat × Bytes)
  | .commit _ => Except StoreError Unit
  | .rollback _ => Unit
  | .saveMlsKeyPackage _ _ _ => Except StoreError Unit
  | .getActiveMlsKeyPackage _ _ => Except StoreError Bytes
  | .registerPushToken _ _ => Except StoreError Unit
  | .getPushTokensForUser _ => Except StoreError (List (UUID × PushToken))
  | .unregisterPushToken _ => Except StoreError Unit
  | .createAuthSession _ _ _ _ _ => Except StoreError Unit
  | .getAuthSession _ => Except StoreError (UUID × AuthSession)
  | .revokeAuthSession _ => Except StoreError Unit

inductive Choice where
  | ok
  | fail
  /-- The caller sees a failure, but the write took effect. -/
  | failApplied
  | uuid (id : UUID)
  | answer (b : Bool)
  /-- Which of several rows a query without an order finds. -/
  | row (n : Nat)
  deriving DecidableEq

/-- A group of tables. -/
inductive Part where
  | channels
  | commits
  | keys
  | push
  | sessions
  deriving DecidableEq

/-- The tables to which an operation writes. -/
def Op.part : Op → Option Part
  | .createChannel _ _ _ _ _ | .joinChannel _ _ | .leaveChannel _ _
  | .saveMlsWelcome _ _ _ _ => some .channels
  | .saveMlsCommit _ _ _ _ => some .commits
  | .updateDeviceIdentityKey _ _ | .uploadPreKeyBundle _ _ _ | .uploadOneTimeKeys _ _
  | .commit _ | .saveMlsKeyPackage _ _ _ => some .keys
  | .registerPushToken _ _ | .unregisterPushToken _ => some .push
  | .createAuthSession _ _ _ _ _ | .revokeAuthSession _ => some .sessions
  | _ => none

def Database.Same (p : Part) (db db' : Database) : Prop :=
  match p with
  | .channels => db'.channels = db.channels ∧ db'.members = db.members ∧ db'.welcomes = db.welcomes
  | .commits => db'.commits = db.commits
  | .keys => db'.devices = db.devices ∧ db'.preKeys = db.preKeys ∧
    db'.oneTimeKeys = db.oneTimeKeys ∧ db'.mlsKeyPackages = db.mlsKeyPackages
  | .push => db'.pushTokens = db.pushTokens
  | .sessions => db'.sessions = db.sessions

structure Server where
  db : Database
  clock : Nat
  /-- The number of transactions begun. -/
  begun : Nat
  /-- The one-time keys that a transaction has updated without having ended. -/
  locks : Table (UUID × Nat) Nat
  deriving DecidableEq

namespace Server

def query {α : Type} (s : Server) (a : Except StoreError α) :
    Choice → Option (Except StoreError α × Server)
  | .ok => some (a, s)
  | .fail => some (.error .failed, s)
  | _ => none

/-- A write, without result when it breaks a constraint. -/
def write (s : Server) (db : Option Database) (c : Choice) :
    Option (Except StoreError Unit × Server) :=
  match db with
  | none => some (.error .failed, s)
  | some db =>
    match c with
    | .ok => some (.ok (), { s with db := db })
    | .fail => some (.error .failed, s)
    | .failApplied => some (.error .failed, { s with db := db })
    | _ => none

def orNoRows {α : Type} : Option α → Except StoreError α
  | some a => .ok a
  | none => .error .noRows

/-- The one-time keys of a device that a `SKIP LOCKED` query can find. -/
def available (s : Server) (deviceID : UUID) : List (Nat × OneTimeKey) :=
  (s.db.oneTimeKeys.entries.filter fun e =>
    e.1.1 = deviceID ∧ !e.2.isConsumed ∧ e.1 ∉ s.locks).map fun e => (e.1.2, e.2)

/-- The rows that a transaction has locked. -/
def lockedBy (s : Server) (tx : Nat) : List (UUID × Nat) :=
  (s.locks.entries.filter fun e => e.2 = tx).map Sigma.fst

/-- The end of a transaction releases its locks. -/
def release (s : Server) (tx : Nat) : Server :=
  { s with locks := (s.lockedBy tx).foldl (fun locks k => locks.erase k) s.locks }

/-- The updates of a transaction take effect. -/
def applied (s : Server) (tx : Nat) : Server :=
  { s.release tx with db := (s.lockedBy tx).foldl Database.consumeOneTimeKey s.db }

def exec (s : Server) : (op : Op) → Choice → Option (Ret op × Server)
  | .now, c => match c with
    | .ok => some (s.clock, s)
    | _ => none
  | .newUUID, c => match c with
    | .uuid id => some (id, s)
    | _ => none
  | .allow, c => match c with
    | .answer b => some (b, s)
    | _ => none
  | .createChannel ch type name u us, c => s.write (s.db.createChannel ch type name u us) c
  | .getChannelMembers ch, c => s.query (.ok (s.db.channelMembers ch)) c
  | .joinChannel ch u, c => s.write (s.db.joinChannel ch u) c
  | .leaveChannel ch u, c => s.write (some (s.db.leaveChannel ch u)) c
  | .isChannelMember ch u, c => s.query (.ok (s.db.isChannelMember ch u)) c
  | .saveMlsWelcome ch u epoch data, c => s.write (s.db.upsertWelcome ch u epoch data) c
  | .getMlsWelcome ch u, c => s.query (.ok (s.db.selectWelcome ch u)) c
  | .saveMlsCommit ch u epoch data, c => s.write (s.db.upsertCommit ch u epoch data) c
  | .getDeviceByID id, c => s.query (orNoRows (s.db.devices.lookup id)) c
  | .getDevicesByUser u, c => s.query (.ok (s.db.devicesOf u)) c
  | .updateDeviceIdentityKey d key, c => s.write (s.db.updateIdentityKey d key) c
  | .uploadPreKeyBundle d args time, c => s.write (s.db.upsertPreKeys d args time) c
  | .uploadOneTimeKeys d keys, c => s.write (s.db.insertOneTimeKeys d keys) c
  | .getRemainingOneTimeKeyCount d, c => s.query (.ok (s.db.oneTimeKeyCount d)) c
  | .begin, c => match c with
    | .ok => some (.ok s.begun, { s with begun := s.begun + 1 })
    | .fail => some (.error .failed, s)
    | _ => none
  | .selectIdentityKey d, c =>
    s.query (orNoRows ((s.db.devices.lookup d).map Device.identityKey)) c
  | .selectPreKeys d, c => s.query (orNoRows (s.db.selectPreKeys d)) c
  | .takeOneTimeKey tx d, c => match c with
    | .row n => ((s.available d).find? (·.1 = n)).map fun found =>
      (.ok (n, found.2.publicKey), { s with locks := s.locks.insert (d, n) tx })
    | .ok => if s.available d = [] then some (.error .noRows, s) else none
    | .fail => some (.error .failed, s)
    | _ => none
  | .commit tx, c => match c with
    | .ok => some (.ok (), s.applied tx)
    | .fail => some (.error .failed, s.release tx)
    | .failApplied => some (.error .failed, s.applied tx)
    | _ => none
  | .rollback tx, c => match c with
    | .ok => some ((), s.release tx)
    | _ => none
  | .saveMlsKeyPackage u d data, c => s.write (s.db.insertMlsKeyPackage u d data s.clock) c
  | .getActiveMlsKeyPackage u d, c => s.query (orNoRows (s.db.selectMlsKeyPackage u d)) c
  | .registerPushToken d row, c => s.write (s.db.upsertPushToken d row) c
  | .getPushTokensForUser u, c => s.query (.ok (s.db.pushTokensOf u)) c
  | .unregisterPushToken d, c => s.write (some (s.db.deletePushToken d)) c
  | .createAuthSession id u d hash time, c => s.write (s.db.insertSession id u d hash time) c
  | .getAuthSession hash, c => match c with
    | .row n => (s.db.selectSession hash)[n]?.map fun found => (.ok found, s)
    | .ok => if s.db.selectSession hash = [] then some (.error .noRows, s) else none
    | .fail => some (.error .failed, s)
    | _ => none
  | .revokeAuthSession id, c => s.write (some (s.db.revokeSession id)) c

/-! ## Effects -/

/-- What the operation does to the database when it takes effect. -/
def effect (s : Server) : Op → Option Database
  | .createChannel ch type name u us => s.db.createChannel ch type name u us
  | .joinChannel ch u => s.db.joinChannel ch u
  | .leaveChannel ch u => some (s.db.leaveChannel ch u)
  | .saveMlsWelcome ch u epoch data => s.db.upsertWelcome ch u epoch data
  | .saveMlsCommit ch u epoch data => s.db.upsertCommit ch u epoch data
  | .updateDeviceIdentityKey d key => s.db.updateIdentityKey d key
  | .uploadPreKeyBundle d args time => s.db.upsertPreKeys d args time
  | .uploadOneTimeKeys d keys => s.db.insertOneTimeKeys d keys
  | .commit tx => some (s.applied tx).db
  | .saveMlsKeyPackage u d data => s.db.insertMlsKeyPackage u d data s.clock
  | .registerPushToken d row => s.db.upsertPushToken d row
  | .unregisterPushToken d => some (s.db.deletePushToken d)
  | .createAuthSession id u d hash time => s.db.insertSession id u d hash time
  | .revokeAuthSession id => some (s.db.revokeSession id)
  | _ => none

variable {s s' : Server} {op : Op} {c : Choice} {r : Ret op}

@[simp] theorem query_eq_some {α : Type} {a r : Except StoreError α} :
    s.query a c = some (r, s') ↔ s' = s ∧ (c = .ok ∧ r = a ∨ c = .fail ∧ r = .error .failed) := by
  cases c <;> simp [query, eq_comm, and_comm]

theorem write_cases {db : Option Database} {r : Except StoreError Unit}
    (h : s.write db c = some (r, s')) :
    s' = s ∧ (db = none ∨ c = .fail) ∨
      ∃ d, db = some d ∧ s' = { s with db := d } ∧ c ≠ .fail := by
  cases db with
  | none =>
    cases h
    exact .inl ⟨rfl, .inl rfl⟩
  | some d => cases c <;> cases h <;> simp

/-- An operation leaves the tables alone to which it does not write. -/
theorem effect_same {db' : Database} {p : Part} (h : s.effect op = some db')
    (other : op.part ≠ some p) : s.db.Same p db' := by
  cases op
  case createChannel =>
    obtain ⟨_, _, rfl⟩ := Database.createChannel_shape h
    cases p <;> simp_all [Database.Same, Op.part]
  case saveMlsCommit =>
    obtain ⟨-, h⟩ := Option.ite_none_right_eq_some.mp h
    cases h
    cases p <;> simp_all [Database.Same, Op.part]
  case commit tx =>
    cases h
    obtain ⟨_, rows⟩ := @Database.consumeOneTimeKeys_shape s.db (s.lockedBy tx)
    cases p <;> simp_all [Database.Same, Op.part, applied]
  case leaveChannel ch u =>
    cases h
    obtain ⟨_, rows⟩ := @Database.leaveChannel_shape s.db ch u
    cases p <;> simp_all [Database.Same, Op.part]
  case revokeAuthSession id =>
    cases h
    unfold Database.revokeSession
    split <;> cases p <;> simp_all [Database.Same, Op.part]
  case unregisterPushToken =>
    cases h
    cases p <;> simp_all [Database.Same, Op.part, Database.deletePushToken]
  case joinChannel =>
    obtain ⟨_, rfl⟩ := Database.joinChannel_shape h
    cases p <;> simp_all [Database.Same, Op.part]
  case saveMlsWelcome =>
    obtain ⟨_, rfl⟩ := Database.upsertWelcome_shape h
    cases p <;> simp_all [Database.Same, Op.part]
  case updateDeviceIdentityKey =>
    obtain ⟨_, rfl⟩ := Database.updateIdentityKey_shape h
    cases p <;> simp_all [Database.Same, Op.part]
  case uploadPreKeyBundle =>
    obtain ⟨_, rfl⟩ := Database.upsertPreKeys_shape h
    cases p <;> simp_all [Database.Same, Op.part]
  case uploadOneTimeKeys =>
    obtain ⟨_, rfl⟩ := Database.insertOneTimeKeys_shape h
    cases p <;> simp_all [Database.Same, Op.part]
  case saveMlsKeyPackage | registerPushToken | createAuthSession =>
    obtain ⟨-, h⟩ := Option.ite_none_right_eq_some.mp h
    cases h
    cases p <;> simp_all [Database.Same, Op.part]
  all_goals cases h

/-- An operation changes nothing, or it takes effect. -/
theorem exec_db (h : s.exec op c = some (r, s')) :
    s'.db = s.db ∨ s.effect op = some s'.db ∧ c ≠ .fail := by
  cases op
  case createChannel | joinChannel | leaveChannel | saveMlsWelcome | saveMlsCommit |
      updateDeviceIdentityKey | uploadPreKeyBundle | uploadOneTimeKeys | saveMlsKeyPackage |
      registerPushToken | unregisterPushToken | createAuthSession | revokeAuthSession =>
    simp only [exec] at h
    obtain ⟨rfl, -⟩ | ⟨d, hd, rfl, hc⟩ := write_cases h
    · exact .inl rfl
    · exact .inr ⟨hd, hc⟩
  case commit tx =>
    cases c <;> cases h
    · exact .inr ⟨rfl, nofun⟩
    · exact .inl rfl
    · exact .inr ⟨rfl, nofun⟩
  case now | newUUID | allow | begin | rollback =>
    cases c <;> cases h <;> exact .inl rfl
  case takeOneTimeKey =>
    cases c
    case row n =>
      obtain ⟨found, -, h⟩ := Option.map_eq_some_iff.mp h
      cases h
      exact .inl rfl
    case ok =>
      simp only [exec] at h
      split at h <;> cases h
      exact .inl rfl
    all_goals cases h
    exact .inl rfl
  case getAuthSession =>
    cases c
    case row n =>
      obtain ⟨found, -, h⟩ := Option.map_eq_some_iff.mp h
      cases h
      exact .inl rfl
    case ok =>
      simp only [exec] at h
      split at h <;> cases h
      exact .inl rfl
    all_goals cases h
    exact .inl rfl
  all_goals
    obtain ⟨rfl, -⟩ := query_eq_some.mp h
    exact .inl rfl

end Server

/-- What happens between the operations of the requests. -/
inductive Change where
  | tick (nanoseconds : Nat)
  | addUser (id : UUID)
  | addDevice (id : UUID) (device : Device)
  deriving DecidableEq

def Server.change (s : Server) : Change → Option Server
  | .tick n => some { s with clock := s.clock + n }
  | .addUser id => some { s with db := { s.db with users := id :: s.db.users } }
  | .addDevice id device =>
    if id ∉ s.db.devices ∧ device.userID ∈ s.db.users ∧
        ∀ d ∈ s.db.devicesOf device.userID, d.2.identityKey ≠ device.identityKey then
      some { s with db := { s.db with devices := s.db.devices.insert id device } }
    else none

theorem Server.change_commits {s s' : Server} {e : Change} (h : s.change e = some s') :
    s'.db.commits = s.db.commits := by
  cases e with
  | addDevice =>
    obtain ⟨-, h⟩ := Option.ite_none_right_eq_some.mp h
    cases h
    rfl
  | _ =>
    cases h
    rfl

/-- The operations over a server state. -/
abbrev system : System Op Ret := ⟨Server, Choice, Server.exec⟩

abbrev Proc := Prog Op Ret

@[simp] def issue (op : Op) : Proc (Ret op) := Prog.perform op

/-! ## Requests -/

structure JWTPayload where
  sub : String
  deviceID : String
  exp : Int
  deriving DecidableEq

/-- A bearer token: its payload, and whether it is well formed and signed with the server's
secret. -/
structure Token where
  payload : JWTPayload
  signed : Bool
  deriving DecidableEq

def verifyJWT (now : Nat) (token : Token) : Option JWTPayload :=
  if token.signed ∧ (now / Ledger.second : Nat) ≤ token.payload.exp then some token.payload
  else none

theorem verifyJWT_eq_some {now : Nat} {token : Token} {claims : JWTPayload}
    (h : verifyJWT now token = some claims) : token.signed ∧ token.payload = claims := by
  obtain ⟨valid, h⟩ := Option.ite_none_right_eq_some.mp h
  cases h
  exact ⟨valid.1, rfl⟩

/-- What the handlers take from outside. -/
structure Platform where
  /-- `uuid.Parse`. -/
  parseUUID : String → Option UUID
  parseUUID_empty : parseUUID "" = none
  /-- What `uuid.Parse` returns beside an error. -/
  parsedUUID : String → UUID
  /-- `MAX_CHANNEL_MEMBERS`, or its default. -/
  maxChannelMembers : Nat

namespace Sample

def alice : UUID := ⟨"6f1c1a52-5c0e-4c1e-9f53-0d8a6c1f2a01"⟩
def alicePhone : UUID := ⟨"0b9d2f6e-3a47-4f0b-8d51-7c2e9a4b1d02"⟩
def bob : UUID := ⟨"a2d4c8f0-1e6b-4b7a-92c3-5f8e7d6c3b03"⟩
def bobPhone : UUID := ⟨"d7e3b1a9-8c5f-4e2d-a6b4-1f9c0e8d7a04"⟩
def channel : UUID := ⟨"3e5a7c91-2b4d-4f68-8a0c-6d1e9f7b5c05"⟩

def clock : Nat := 1714550400 * Ledger.second

/-- Tokens of a quarter of an hour. -/
def aliceToken : Token := ⟨⟨alice.text, alicePhone.text, 1714551300⟩, true⟩

def bobToken : Token := ⟨⟨bob.text, bobPhone.text, 1714551300⟩, true⟩

/-- A platform that meets no ids but these. -/
def platform : Platform where
  parseUUID text := [alice, alicePhone, bob, bobPhone, channel].find? (·.text = text)
  parseUUID_empty := by rfl
  parsedUUID _ := .nil
  maxChannelMembers := 256

end Sample

inductive Code where
  | unknown
  | invalidArgument
  | notFound
  | permissionDenied
  | resourceExhausted
  | internal
  | unauthenticated
  deriving DecidableEq, Repr

/-- A gRPC status, without the text of the error that caused it. -/
structure Status where
  code : Code
  message : String
  deriving DecidableEq, Repr

abbrev Answer (α : Type) := Except Status α

/-- The values that `WithUserAndDevice` attaches; the empty string stands for none. -/
structure Context where
  userID : String
  deviceID : String
  deriving DecidableEq

def Context.background : Context := ⟨"", ""⟩

def getUserIDFromCtx (S : Platform) (ctx : Context) : Except Status UUID :=
  if ctx.userID = "" then
    .error ⟨.unauthenticated, "missing or invalid user authentication"⟩
  else match S.parseUUID ctx.userID with
    | some id => .ok id
    | none => .error ⟨.unknown, "invalid UUID"⟩

theorem getUserIDFromCtx_ok {S : Platform} {ctx : Context} {u : UUID}
    (h : getUserIDFromCtx S ctx = .ok u) : S.parseUUID ctx.userID = some u := by
  unfold getUserIDFromCtx at h
  split at h
  · cases h
  · split at h <;> cases h
    assumption

/-- `strings.TrimPrefix`. -/
def trimPrefix (s pre : String) : String :=
  if pre.toList.isPrefixOf s.toList then String.ofList (s.toList.drop pre.toList.length) else s

/-! ### Methods -/

def isPublicMethod (fullMethod : String) : Bool :=
  "/grpc.reflection.".toList.isPrefixOf fullMethod.toList ||
    fullMethod ∈ [
      "/chat.v1.AuthService/BeginRegistration",
      "/chat.v1.AuthService/FinishRegistration",
      "/chat.v1.AuthService/BeginLogin",
      "/chat.v1.AuthService/FinishLogin",
      "/chat.v1.AuthService/RefreshToken",
      "/chat.v1.AuthService/DevToken"]

def isInternalServiceMethod (fullMethod : String) : Bool :=
  fullMethod ∈ ["/chat.v1.ChannelService/GetChannelMembers", "/chat.v1.PushService/GetPushTokens"]

/-- `UnaryAuthInterceptor` around a handler; `token` is what `extractToken` finds in the metadata of
the call. -/
def unaryAuthInterceptor {α : Type} (fullMethod : String) (token : Option Token)
    (handler : Context → Proc (Answer α)) : Proc (Answer α) :=
  if isPublicMethod fullMethod then handler .background
  else match token with
    | none =>
      if isInternalServiceMethod fullMethod then handler .background
      else pure (.error ⟨.unauthenticated, "missing authorization token in gRPC metadata"⟩)
    | some token => do
      match verifyJWT (← issue .now) token with
      | some claims => handler ⟨claims.sub, claims.deviceID⟩
      | none =>
        if isInternalServiceMethod fullMethod then handler .background
        else pure (.error ⟨.unauthenticated, "invalid or expired authorization token"⟩)

/-! ### HTTP -/

inductive Method where
  | get
  | post
  | other
  deriving DecidableEq

/-- A request that `cors` has let through, with the token of its bearer header. Its handler decodes
the body into a `β`: what that holds afterwards, and whether reading and decoding succeeded. -/
structure HttpRequest (β : Type) where
  method : Method
  token : Option Token
  body : β
  decoded : Bool

/-- The message and the status of `writeErrorJSON`. -/
structure HttpError where
  message : String
  status : Nat
  deriving DecidableEq

abbrev HttpAnswer (α : Type) := Except HttpError α

/-- The checks of the method and of the bearer token that most endpoints begin with. -/
def authenticated {α β : Type} (methods : List Method) (req : HttpRequest β)
    (handler : JWTPayload → Proc (HttpAnswer α)) : Proc (HttpAnswer α) :=
  if req.method ∉ methods then pure (.error ⟨"method not allowed", 405⟩)
  else match req.token with
    | none => pure (.error ⟨"unauthorized", 401⟩)
    | some token => do
      match verifyJWT (← issue .now) token with
      | none => pure (.error ⟨"unauthorized", 401⟩)
      | some claims => handler claims

/-- The first of two strings that is not empty. -/
def orElse (s t : String) : String := if s = "" then t else s

/-- Base64, or the text itself when that decodes to nothing. -/
def decodeOrRaw (text : String) : Bytes :=
  let decoded := (Base64.decodeString text).1
  if decoded = [] then text.toUTF8.data.toList else decoded

/-! ### Footprints -/

section Footprints
variable {φ : Op → Prop} {ok : (op : Op) → Ret op → Prop}

theorem authenticated_allIf {α β : Type} {methods : List Method} {req : HttpRequest β}
    {handler : JWTPayload → Proc (HttpAnswer α)} {Q : HttpAnswer α → Prop}
    (failed : ∀ err, Q (.error err)) (now : φ .now)
    (h : ∀ token ∈ req.token, token.signed → (handler token.payload).AllIf ok φ Q) :
    (authenticated methods req handler).AllIf ok φ Q := by
  unfold authenticated
  split
  · exact failed _
  · split
    · exact failed _
    · rename_i token bearer
      refine ⟨now, fun time _ => ?_⟩
      cases verified : verifyJWT time token with
      | none => simp [verified, failed]
      | some claims =>
        obtain ⟨signed, rfl⟩ := verifyJWT_eq_some verified
        simpa [verified] using h token bearer signed

theorem interceptor_allIf {α : Type} {fullMethod : String} {token : Option Token}
    {handler : Context → Proc (Answer α)} {Q : Answer α → Prop}
    (guarded : isPublicMethod fullMethod = false ∧ isInternalServiceMethod fullMethod = false)
    (failed : ∀ err, Q (.error err)) (now : φ .now)
    (h : ∀ token' ∈ token, token'.signed →
      (handler ⟨token'.payload.sub, token'.payload.deviceID⟩).AllIf ok φ Q) :
    (unaryAuthInterceptor fullMethod token handler).AllIf ok φ Q := by
  simp only [unaryAuthInterceptor, guarded, Bool.false_eq_true, if_false]
  split
  · exact failed _
  · rename_i token
    refine ⟨now, fun time _ => ?_⟩
    cases verified : verifyJWT time token with
    | none => simp [verified, failed]
    | some claims =>
      obtain ⟨signed, rfl⟩ := verifyJWT_eq_some verified
      simpa [verified] using h token rfl signed

/-- A method between the services runs with any token and with none. -/
theorem internal_allIf {α : Type} {fullMethod : String} {token : Option Token}
    {handler : Context → Proc (Answer α)} {Q : Answer α → Prop}
    (internal : isPublicMethod fullMethod = false ∧ isInternalServiceMethod fullMethod = true)
    (now : φ .now) (h : ∀ ctx, (handler ctx).AllIf ok φ Q) :
    (unaryAuthInterceptor fullMethod token handler).AllIf ok φ Q := by
  simp only [unaryAuthInterceptor, internal, Bool.false_eq_true, if_false, if_true]
  split
  · exact h .background
  · rename_i token
    refine ⟨now, fun time _ => ?_⟩
    cases verified : verifyJWT time token with
    | none => simpa [verified] using h .background
    | some claims => simpa [verified] using h ⟨claims.sub, claims.deviceID⟩

theorem authenticated_all {α β : Type} {methods : List Method} {req : HttpRequest β}
    {handler : JWTPayload → Proc (HttpAnswer α)} (now : φ .now)
    (h : ∀ token ∈ req.token, token.signed → (handler token.payload).All φ) :
    (authenticated methods req handler).All φ := by
  rw [Prog.all_iff_allIf]
  refine authenticated_allIf (fun _ => trivial) now fun token bearer signed => ?_
  exact (h token bearer signed).allIf

theorem interceptor_all {α : Type} {fullMethod : String} {token : Option Token}
    {handler : Context → Proc (Answer α)}
    (guarded : isPublicMethod fullMethod = false ∧ isInternalServiceMethod fullMethod = false)
    (now : φ .now) (h : ∀ token' ∈ token, token'.signed →
      (handler ⟨token'.payload.sub, token'.payload.deviceID⟩).All φ) :
    (unaryAuthInterceptor fullMethod token handler).All φ := by
  rw [Prog.all_iff_allIf]
  refine interceptor_allIf guarded (fun _ => trivial) now fun token bearer signed => ?_
  exact (h token bearer signed).allIf

end Footprints

/-! ### Running alone -/

section Alone
variable {s t : Server} {trace : List (Op × Choice)}

/-- No operation gets stuck. -/
theorem exec_live (s : Server) (op : Op) : ∃ c r s', Server.exec s op c = some (r, s') := by
  have write (db : Option Database) : ∃ c r s', s.write db c = some (r, s') := by
    cases db with
    | none => exact ⟨.ok, _, _, rfl⟩
    | some db => exact ⟨.ok, _, _, rfl⟩
  cases op
  case newUUID => exact ⟨.uuid .nil, _, _, rfl⟩
  case allow => exact ⟨.answer true, _, _, rfl⟩
  case takeOneTimeKey | getAuthSession => exact ⟨.fail, _, _, rfl⟩
  case createChannel | joinChannel | saveMlsWelcome | saveMlsCommit | updateDeviceIdentityKey |
      uploadPreKeyBundle | uploadOneTimeKeys | saveMlsKeyPackage | registerPushToken |
      createAuthSession =>
    exact write _
  all_goals exact ⟨.ok, _, _, rfl⟩

/-- With a valid token the endpoint runs its handler. -/
theorem executes_authenticated {α β : Type} {methods : List Method} {req : HttpRequest β}
    {handler : JWTPayload → Proc (HttpAnswer α)} {token : Token} {a : HttpAnswer α}
    (method : req.method ∈ methods) (bearer : req.token = some token) :
    Executes system (authenticated methods req handler) s trace a t ↔
      ∃ later, trace = (.now, .ok) :: later ∧ match verifyJWT s.clock token with
        | none => later = [] ∧ a = .error ⟨"unauthorized", 401⟩ ∧ t = s
        | some claims => Executes system (handler claims) s later a t := by
  have now (c : Choice) (r : Nat) (s' : Server) :
      s.exec .now c = some (r, s') ↔ c = .ok ∧ r = s.clock ∧ s' = s := by
    cases c <;> simp [Server.exec, eq_comm]
  unfold authenticated
  simp only [method, not_true, if_false, bearer, issue, Prog.monad_bind, Prog.perform_bind]
  rw [executes_call]
  constructor
  · rintro ⟨c, r, s', later, hr, run, rfl⟩
    obtain ⟨rfl, rfl, rfl⟩ := (now c r s').mp hr
    refine ⟨later, rfl, ?_⟩
    split at run
    · obtain ⟨rfl, rfl, rfl⟩ := executes_pure.mp run
      simp [*]
    · simp [*]
  · rintro ⟨later, rfl, run⟩
    refine ⟨.ok, s.clock, s, later, (now _ _ _).mpr ⟨rfl, rfl, rfl⟩, ?_, rfl⟩
    split at run
    · obtain ⟨rfl, rfl, rfl⟩ := run
      simp [*]
    · simp [*]

/-- An endpoint gets past its checks with a valid token only. -/
theorem executes_authenticated_cases {α β : Type} {methods : List Method} {req : HttpRequest β}
    {handler : JWTPayload → Proc (HttpAnswer α)} {a : HttpAnswer α}
    (run : Executes system (authenticated methods req handler) s trace a t) :
    t = s ∨ req.method ∈ methods ∧ ∃ token ∈ req.token, ∃ claims,
      verifyJWT s.clock token = some claims ∧
      ∃ later, Executes system (handler claims) s later a t := by
  by_cases method : req.method ∈ methods
  · cases bearer : req.token with
    | none =>
      simp only [authenticated, method, not_true, if_false, bearer] at run
      exact .inl (executes_pure.mp run).2.2.symm
    | some token =>
      obtain ⟨later, -, run⟩ := (executes_authenticated method bearer).mp run
      split at run
      · exact .inl run.2.2
      · exact .inr ⟨method, token, rfl, _, ‹_›, later, run⟩
  · simp only [authenticated, method, not_false_eq_true, if_true] at run
    exact .inl (executes_pure.mp run).2.2.symm

end Alone
end GenChat.Auth
