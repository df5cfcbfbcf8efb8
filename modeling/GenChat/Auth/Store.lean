import GenChat.Ledger.Store

/-!
# The tables of the auth service

The part of `init.sql` behind channels, keys, push tokens and sessions. A table with a unique key is
an association list under that key. Row ids that no statement reads are left out, and so are times
that no statement compares. A statement that breaks a constraint has no result.
-/
namespace GenChat.Auth
open Ledger (Bytes Table)

/-- A UUID by its canonical text. -/
structure UUID where
  text : String
  deriving DecidableEq, Repr

/-- `uuid.Nil`. -/
def UUID.nil : UUID := ⟨"00000000-0000-0000-0000-000000000000"⟩

structure Device where
  userID : UUID
  identityKey : Bytes
  deriving DecidableEq

structure PreKeys where
  spk : Bytes
  spkSig : Bytes
  pqpk : Bytes
  pqpkSig : Bytes
  pqpkID : Nat
  uploadedAt : Nat
  deriving DecidableEq

structure OneTimeKey where
  publicKey : Bytes
  isConsumed : Bool
  deriving DecidableEq

structure MlsKeyPackage where
  userID : UUID
  deviceID : UUID
  keyPackage : Bytes
  isConsumed : Bool
  createdAt : Nat
  deriving DecidableEq

structure AuthSession where
  userID : UUID
  deviceID : UUID
  refreshTokenHash : Bytes
  expiresAt : Nat
  revoked : Bool
  deriving DecidableEq

structure Channel where
  channelType : String
  name : String
  creatorID : UUID
  deriving DecidableEq

/-- A row of `channel_members`; `left` says that `left_at` is set. -/
structure Membership where
  role : String
  left : Bool
  deriving DecidableEq

/-- The columns of `device_push_tokens` outside its primary key. -/
structure PushToken where
  userID : UUID
  platform : String
  token : String
  endpoint : String
  p256dh : Option Bytes
  auth : Option Bytes
  deriving DecidableEq

structure Commit where
  senderID : UUID
  commitData : Bytes
  deriving DecidableEq

structure Database where
  users : List UUID
  devices : Table UUID Device
  preKeys : Table (UUID × Nat) PreKeys
  oneTimeKeys : Table (UUID × Nat) OneTimeKey
  mlsKeyPackages : List MlsKeyPackage
  sessions : Table UUID AuthSession
  channels : Table UUID Channel
  members : Table (UUID × UUID) Membership
  pushTokens : Table UUID PushToken
  welcomes : Table (UUID × UUID × Nat) Bytes
  commits : Table (UUID × Nat) Commit
  deriving DecidableEq

namespace Database

def empty : Database := ⟨[], ∅, ∅, ∅, [], ∅, ∅, ∅, ∅, ∅, ∅⟩

variable (db : Database)

/-- The largest values of the SQL types `INTEGER` and `BIGINT`. -/
def maxInteger : Nat := 2 ^ 31 - 1

def maxBigint : Nat := 2 ^ 63 - 1

/-! ## Channels -/

def memberRows (members : Table (UUID × UUID) Membership) (channelID creatorID : UUID)
    (memberIDs : List UUID) : Table (UUID × UUID) Membership :=
  memberIDs.foldl (fun rows u => if (channelID, u) ∈ rows then rows
    else rows.insert (channelID, u) ⟨if u = creatorID then "owner" else "member", false⟩) members

/-- The transaction of `CreateChannel`. -/
def createChannel (channelID : UUID) (channelType name : String) (creatorID : UUID)
    (memberIDs : List UUID) : Option Database :=
  if channelID ∉ db.channels ∧ channelType ∈ ["dm", "group", "broadcast"] ∧
      creatorID ∈ db.users ∧ ∀ u ∈ memberIDs, u ∈ db.users then
    some { db with
      channels := db.channels.insert channelID ⟨channelType, name, creatorID⟩
      members := memberRows db.members channelID creatorID memberIDs }
  else none

/-- The members that have not left, with their roles. -/
def channelMembers (channelID : UUID) : List (UUID × String) :=
  (db.members.entries.filter fun e => e.1.1 = channelID ∧ !e.2.left).map fun e => (e.1.2, e.2.role)

def joinChannel (channelID userID : UUID) : Option Database :=
  if channelID ∈ db.channels ∧ userID ∈ db.users then
    let role := match db.members.lookup (channelID, userID) with
      | some row => row.role
      | none => "member"
    some { db with members := db.members.insert (channelID, userID) ⟨role, false⟩ }
  else none

def leaveChannel (channelID userID : UUID) : Database :=
  match db.members.lookup (channelID, userID) with
  | some row =>
    { db with members := db.members.insert (channelID, userID) { row with left := true } }
  | none => db

def isChannelMember (channelID userID : UUID) : Bool :=
  match db.members.lookup (channelID, userID) with
  | some row => !row.left
  | none => false

def upsertWelcome (channelID userID : UUID) (epoch : Nat) (data : Bytes) : Option Database :=
  if epoch ≤ maxBigint ∧ channelID ∈ db.channels ∧ userID ∈ db.users then
    some { db with welcomes := db.welcomes.insert (channelID, userID, epoch) data }
  else none

/-- The welcome of the highest epoch, if there is one. -/
def selectWelcome (channelID userID : UUID) : Option Bytes :=
  let rows := db.welcomes.entries.filter fun e => e.1.1 = channelID ∧ e.1.2.1 = userID
  (rows.argmax fun e => e.1.2.2).map Sigma.snd

/-- On conflict only the data is replaced. -/
def commitRows (rows : Table (UUID × Nat) Commit) (channelID senderID : UUID) (epoch : Nat)
    (commitData : Bytes) : Table (UUID × Nat) Commit :=
  rows.insert (channelID, epoch) (match rows.lookup (channelID, epoch) with
    | some old => { old with commitData := commitData }
    | none => ⟨senderID, commitData⟩)

def upsertCommit (channelID senderID : UUID) (epoch : Nat) (commitData : Bytes) :
    Option Database :=
  if epoch ≤ maxBigint ∧ channelID ∈ db.channels ∧ senderID ∈ db.users then
    some { db with commits := commitRows db.commits channelID senderID epoch commitData }
  else none

/-! ## Keys -/

def devicesOf (userID : UUID) : List (UUID × Device) :=
  (db.devices.entries.filter fun e => e.2.userID = userID).map fun e => (e.1, e.2)

/-- A user's devices have distinct identity keys. -/
def updateIdentityKey (deviceID : UUID) (identityKey : Bytes) : Option Database :=
  match db.devices.lookup deviceID with
  | none => some db
  | some device =>
    if ∃ d ∈ db.devicesOf device.userID, d.1 ≠ deviceID ∧ d.2.identityKey = identityKey then none
    else some { db with
      devices := db.devices.insert deviceID { device with identityKey := identityKey } }

/-- The arguments of `UploadPreKeyBundle`; a nil slice is sent as null. -/
structure PreKeyArgs where
  spk : Option Bytes
  spkSig : Option Bytes
  spkID : Nat
  pqpk : Option Bytes
  pqpkSig : Option Bytes
  pqpkID : Nat
  deriving DecidableEq

def upsertPreKeys (deviceID : UUID) (args : PreKeyArgs) (uploadedAt : Nat) : Option Database :=
  match args.spk, args.spkSig, args.pqpk, args.pqpkSig with
  | some spk, some spkSig, some pqpk, some pqpkSig =>
    if args.spkID ≤ maxInteger ∧ args.pqpkID ≤ maxInteger ∧ deviceID ∈ db.devices then
      let row : PreKeys := ⟨spk, spkSig, pqpk, pqpkSig, args.pqpkID, uploadedAt⟩
      some { db with preKeys := db.preKeys.insert (deviceID, args.spkID) row }
    else none
  | _, _, _, _ => none

/-- The pre-keys uploaded last. -/
def selectPreKeys (deviceID : UUID) : Option (Nat × PreKeys) :=
  let rows := db.preKeys.entries.filter fun e => e.1.1 = deviceID
  (rows.argmax fun e => e.2.uploadedAt).map fun e => (e.1.2, e.2)

/-- `OTK`. -/
structure OTK where
  keyID : Nat
  publicKey : Option Bytes
  deriving DecidableEq

def insertOneTimeKey (deviceID : UUID) (key : OTK) : Option Database :=
  match key.publicKey with
  | none => none
  | some publicKey =>
    if key.keyID ≤ maxInteger ∧ deviceID ∈ db.devices ∧
        (deviceID, key.keyID) ∉ db.oneTimeKeys then
      some { db with
        oneTimeKeys := db.oneTimeKeys.insert (deviceID, key.keyID) ⟨publicKey, false⟩ }
    else none

/-- The batch of `UploadOneTimeKeys` is one implicit transaction. -/
def insertOneTimeKeys (deviceID : UUID) (keys : List OTK) : Option Database :=
  keys.foldlM (fun db key => db.insertOneTimeKey deviceID key) db

def oneTimeKeyCount (deviceID : UUID) : Nat :=
  (db.oneTimeKeys.entries.filter fun e => e.1.1 = deviceID ∧ !e.2.isConsumed).length

def consumeOneTimeKey (k : UUID × Nat) : Database :=
  match db.oneTimeKeys.lookup k with
  | some key => { db with oneTimeKeys := db.oneTimeKeys.insert k { key with isConsumed := true } }
  | none => db

def insertMlsKeyPackage (userID deviceID : UUID) (keyPackage : Bytes) (now : Nat) :
    Option Database :=
  if userID ∈ db.users ∧ deviceID ∈ db.devices then
    some { db with mlsKeyPackages := db.mlsKeyPackages ++
      [⟨userID, deviceID, keyPackage, false, now⟩] }
  else none

/-- The newest unconsumed key package of a user, or of one device. -/
def selectMlsKeyPackage (userID : UUID) (deviceID : Option UUID) : Option Bytes :=
  let rows := db.mlsKeyPackages.filter fun row =>
    row.userID = userID ∧ (deviceID = none ∨ deviceID = some row.deviceID) ∧ !row.isConsumed
  (rows.argmax fun row => row.createdAt).map MlsKeyPackage.keyPackage

/-! ## Push tokens -/

/-- On conflict the row keeps its user. -/
def upsertPushToken (deviceID : UUID) (row : PushToken) : Option Database :=
  if row.platform ∈ ["apns", "fcm", "webpush"] ∧ deviceID ∈ db.devices ∧
      row.userID ∈ db.users then
    let userID := match db.pushTokens.lookup deviceID with
      | some old => old.userID
      | none => row.userID
    some { db with pushTokens := db.pushTokens.insert deviceID { row with userID := userID } }
  else none

def pushTokensOf (userID : UUID) : List (UUID × PushToken) :=
  (db.pushTokens.entries.filter fun e => e.2.userID = userID).map fun e => (e.1, e.2)

def deletePushToken (deviceID : UUID) : Database :=
  { db with pushTokens := db.pushTokens.erase deviceID }

/-! ## Sessions -/

def insertSession (id userID deviceID : UUID) (refreshTokenHash : Bytes) (expiresAt : Nat) :
    Option Database :=
  if id ∉ db.sessions ∧ userID ∈ db.users ∧ deviceID ∈ db.devices then
    let row : AuthSession := ⟨userID, deviceID, refreshTokenHash, expiresAt, false⟩
    some { db with sessions := db.sessions.insert id row }
  else none

def selectSession (refreshTokenHash : Bytes) : List (UUID × AuthSession) :=
  (db.sessions.entries.filter fun e => e.2.refreshTokenHash = refreshTokenHash).map
    fun e => (e.1, e.2)

def revokeSession (id : UUID) : Database :=
  match db.sessions.lookup id with
  | some row => { db with sessions := db.sessions.insert id { row with revoked := true } }
  | none => db

variable {db} {db' : Database}

/-! ## What a statement leaves alone -/

theorem createChannel_shape {ch u : UUID} {type name : String} {us : List UUID}
    (h : db.createChannel ch type name u us = some db') :
    ∃ channels members, db' = { db with channels := channels, members := members } := by
  obtain ⟨-, h⟩ := Option.ite_none_right_eq_some.mp h
  cases h
  exact ⟨_, _, rfl⟩

theorem joinChannel_shape {ch u : UUID} (h : db.joinChannel ch u = some db') :
    ∃ members, db' = { db with members := members } := by
  obtain ⟨-, h⟩ := Option.ite_none_right_eq_some.mp h
  cases h
  exact ⟨_, rfl⟩

theorem leaveChannel_shape (ch u : UUID) :
    ∃ members, db.leaveChannel ch u = { db with members := members } := by
  unfold leaveChannel
  split
  · exact ⟨_, rfl⟩
  · exact ⟨_, rfl⟩

theorem upsertWelcome_shape {ch u : UUID} {epoch : Nat} {data : Bytes}
    (h : db.upsertWelcome ch u epoch data = some db') :
    ∃ welcomes, db' = { db with welcomes := welcomes } := by
  obtain ⟨-, h⟩ := Option.ite_none_right_eq_some.mp h
  cases h
  exact ⟨_, rfl⟩

theorem updateIdentityKey_shape {d : UUID} {key : Bytes}
    (h : db.updateIdentityKey d key = some db') :
    ∃ devices, db' = { db with devices := devices } := by
  unfold updateIdentityKey at h
  split at h
  · cases h
    exact ⟨_, rfl⟩
  · split at h <;> cases h
    exact ⟨_, rfl⟩

theorem upsertPreKeys_shape {d : UUID} {args : PreKeyArgs} {time : Nat}
    (h : db.upsertPreKeys d args time = some db') :
    ∃ preKeys, db' = { db with preKeys := preKeys } := by
  unfold upsertPreKeys at h
  split at h
  · obtain ⟨-, h⟩ := Option.ite_none_right_eq_some.mp h
    cases h
    exact ⟨_, rfl⟩
  · cases h

theorem insertOneTimeKey_shape {d : UUID} {key : OTK} (h : db.insertOneTimeKey d key = some db') :
    ∃ keys, db' = { db with oneTimeKeys := keys } := by
  unfold insertOneTimeKey at h
  split at h
  · cases h
  · obtain ⟨-, h⟩ := Option.ite_none_right_eq_some.mp h
    cases h
    exact ⟨_, rfl⟩

theorem insertOneTimeKeys_shape {d : UUID} {keys : List OTK}
    (h : db.insertOneTimeKeys d keys = some db') :
    ∃ rows, db' = { db with oneTimeKeys := rows } := by
  induction keys generalizing db with
  | nil =>
    cases h
    exact ⟨_, rfl⟩
  | cons key rest ih =>
    obtain ⟨one, first, h⟩ := Option.bind_eq_some_iff.mp h
    obtain ⟨_, rfl⟩ := insertOneTimeKey_shape first
    obtain ⟨rows, rfl⟩ := ih h
    exact ⟨rows, rfl⟩

theorem consumeOneTimeKeys_shape (ks : List (UUID × Nat)) :
    ∃ rows, ks.foldl consumeOneTimeKey db = { db with oneTimeKeys := rows } := by
  induction ks generalizing db with
  | nil => exact ⟨_, rfl⟩
  | cons k rest ih =>
    obtain ⟨rows, h⟩ := @ih (db.consumeOneTimeKey k)
    refine ⟨rows, h.trans ?_⟩
    unfold consumeOneTimeKey
    split <;> rfl

end Database
end GenChat.Auth
