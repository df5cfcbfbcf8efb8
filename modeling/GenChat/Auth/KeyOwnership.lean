import GenChat.Auth.Keys

/-!
# Who changes the keys of a device

A request to the key service, run alone, and a device that its caller does not own. Every endpoint
checks the owner of the device before it writes, but the HTTP endpoint `UploadPreKeyBundle` stores
an identity key before the check. A fetch of pre-keys marks a one-time key as consumed, which is not
a change of the key.
-/
namespace GenChat.Auth
open Library
open Ledger (Bytes Table)

inductive KeyRequest where
  | grpcUploadPreKeyBundle (token : Option Token) (req : UploadPreKeyBundleRequest)
  | grpcFetchPreKeyBundle (token : Option Token) (userId deviceId : String)
  | grpcGetKeyCount (token : Option Token) (deviceId : String)
  | grpcUploadOneTimeKeys (token : Option Token) (deviceId : String) (keys : List OneTimePreKey)
  | grpcUploadMlsKeyPackage (token : Option Token) (deviceId : String) (keyPackageData : Bytes)
  | grpcFetchMlsKeyPackage (token : Option Token) (userId deviceId : String)
  | httpUploadPreKeyBundle (req : HttpRequest PreKeyBundleBody)
  | httpUploadOneTimeKeys (req : HttpRequest OneTimeKeysBody)
  | httpGetKeyCount (req : HttpRequest DeviceQuery)
  | httpFetchPreKeyBundle (req : HttpRequest UserDeviceQuery)
  | httpUploadMlsKeyPackage (req : HttpRequest MlsKeyPackageBody)
  | httpFetchMlsKeyPackage (req : HttpRequest UserDeviceQuery)

/-- How a request fails. -/
abbrev Failure := Status ⊕ HttpError

/-- Run a handler for its failure, if there is one. -/
def failure {ε α : Type} (cause : ε → Failure) (p : Proc (Except ε α)) : Proc (Option Failure) :=
  p.bind fun r => match r with
    | .ok _ => pure none
    | .error err => pure (some (cause err))

namespace KeyRequest
variable (S : Platform)

def handle : KeyRequest → Proc (Option Failure)
  | .grpcUploadPreKeyBundle token req => failure .inl <| unaryAuthInterceptor
    "/chat.v1.KeyService/UploadPreKeyBundle" token (uploadPreKeyBundle S · req)
  | .grpcFetchPreKeyBundle token userId deviceId => failure .inl <| unaryAuthInterceptor
    "/chat.v1.KeyService/FetchPreKeyBundle" token (fetchPreKeyBundle S · userId deviceId)
  | .grpcGetKeyCount token deviceId => failure .inl <| unaryAuthInterceptor
    "/chat.v1.KeyService/GetKeyCount" token (getKeyCount S · deviceId)
  | .grpcUploadOneTimeKeys token deviceId keys => failure .inl <| unaryAuthInterceptor
    "/chat.v1.KeyService/UploadOneTimeKeys" token (uploadOneTimeKeys S · deviceId keys)
  | .grpcUploadMlsKeyPackage token deviceId data => failure .inl <| unaryAuthInterceptor
    "/chat.v1.KeyService/UploadMlsKeyPackage" token (uploadMlsKeyPackage S · deviceId data)
  | .grpcFetchMlsKeyPackage token userId deviceId => failure .inl <| unaryAuthInterceptor
    "/chat.v1.KeyService/FetchMlsKeyPackage" token (fetchMlsKeyPackage S · userId deviceId)
  | .httpUploadPreKeyBundle req => failure .inr (Auth.httpUploadPreKeyBundle S req)
  | .httpUploadOneTimeKeys req => failure .inr (Auth.httpUploadOneTimeKeys S req)
  | .httpGetKeyCount req => failure .inr (Auth.httpGetKeyCount S req)
  | .httpFetchPreKeyBundle req => failure .inr (Auth.httpFetchPreKeyBundle S req)
  | .httpUploadMlsKeyPackage req => failure .inr (Auth.httpUploadMlsKeyPackage S req)
  | .httpFetchMlsKeyPackage req => failure .inr (Auth.httpFetchMlsKeyPackage S req)

/-- The token that the request presents. -/
def token : KeyRequest → Option Token
  | .grpcUploadPreKeyBundle token _ | .grpcFetchPreKeyBundle token _ _ | .grpcGetKeyCount token _
  | .grpcUploadOneTimeKeys token _ _ | .grpcUploadMlsKeyPackage token _ _
  | .grpcFetchMlsKeyPackage token _ _ => token
  | .httpUploadPreKeyBundle req => req.token
  | .httpUploadOneTimeKeys req => req.token
  | .httpGetKeyCount req => req.token
  | .httpUploadMlsKeyPackage req => req.token
  | .httpFetchPreKeyBundle req | .httpFetchMlsKeyPackage req => req.token

/-- The request takes pre-keys. -/
def fetches : KeyRequest → Bool
  | .grpcFetchPreKeyBundle _ _ _ | .httpFetchPreKeyBundle _ => true
  | _ => false

/-- The request comes from the user. -/
def From (req : KeyRequest) (u : UUID) : Prop :=
  ∃ token ∈ req.token, token.signed ∧ S.parseUUID token.payload.sub = some u

end KeyRequest

namespace Database

def owner (db : Database) (d : UUID) : Option UUID := (db.devices.lookup d).map Device.userID

/-- The key material of a device is the same in two databases. -/
structure SameMaterial (d : UUID) (db db' : Database) : Prop where
  identityKey : (db'.devices.lookup d).map Device.identityKey =
    (db.devices.lookup d).map Device.identityKey
  preKeys : ∀ id, db'.preKeys.lookup (d, id) = db.preKeys.lookup (d, id)
  oneTimeKeys : ∀ id, (db'.oneTimeKeys.lookup (d, id)).map OneTimeKey.publicKey =
    (db.oneTimeKeys.lookup (d, id)).map OneTimeKey.publicKey
  mlsKeyPackages : db'.mlsKeyPackages.filter (·.deviceID = d) =
    db.mlsKeyPackages.filter (·.deviceID = d)

/-- No one-time key of the device has been consumed between the two. -/
def SameConsumed (d : UUID) (db db' : Database) : Prop :=
  ∀ id, db'.oneTimeKeys.lookup (d, id) = db.oneTimeKeys.lookup (d, id)

/-- What a request may do to a device of somebody else: at most consume one-time keys, if it is a
fetch. -/
structure Spared (d : UUID) (fetches : Bool) (db db' : Database) : Prop where
  material : SameMaterial d db db'
  consumed : fetches = false → SameConsumed d db db'
  owners : ∀ d', db'.owner d' = db.owner d'

variable {d : UUID} {fetches : Bool} {db db' db'' : Database}

theorem SameMaterial.refl (d : UUID) (db : Database) : SameMaterial d db db :=
  ⟨rfl, fun _ => rfl, fun _ => rfl, rfl⟩

theorem SameMaterial.trans (h : SameMaterial d db db') (h' : SameMaterial d db' db'') :
    SameMaterial d db db'' where
  identityKey := h'.identityKey.trans h.identityKey
  preKeys id := (h'.preKeys id).trans (h.preKeys id)
  oneTimeKeys id := (h'.oneTimeKeys id).trans (h.oneTimeKeys id)
  mlsKeyPackages := h'.mlsKeyPackages.trans h.mlsKeyPackages

theorem Spared.refl (d : UUID) (fetches : Bool) (db : Database) : Spared d fetches db db :=
  ⟨.refl d db, fun _ _ => rfl, fun _ => rfl⟩

theorem Spared.trans (h : Spared d fetches db db') (h' : Spared d fetches db' db'') :
    Spared d fetches db db'' where
  material := h.material.trans h'.material
  consumed no id := (h'.consumed no id).trans (h.consumed no id)
  owners d' := (h'.owners d').trans (h.owners d')

/-! ## Statements -/

theorem Spared.of_same (h : db.Same .keys db') : Spared d fetches db db' := by
  obtain ⟨devices, preKeys, oneTimeKeys, packages⟩ := h
  refine ⟨⟨?_, fun id => ?_, fun id => ?_, ?_⟩, fun _ id => ?_, fun d' => ?_⟩
  · rw [devices]
  · rw [preKeys]
  · rw [oneTimeKeys]
  · rw [packages]
  · rw [oneTimeKeys]
  · simp only [owner, devices]

/-- An update of an identity key keeps the owners. -/
theorem updateIdentityKey_owner {d' : UUID} {key : Bytes}
    (h : db.updateIdentityKey d' key = some db') (e : UUID) : db'.owner e = db.owner e := by
  unfold updateIdentityKey at h
  split at h
  · cases h
    rfl
  · rename_i device found
    split at h <;> cases h
    unfold owner
    by_cases same : e = d'
    · subst same
      simp [found]
    · simp [AList.lookup_insert_ne same]

theorem updateIdentityKey_spared {d' : UUID} {key : Bytes} (other : d' ≠ d)
    (h : db.updateIdentityKey d' key = some db') : Spared d fetches db db' := by
  have owners := updateIdentityKey_owner h
  unfold updateIdentityKey at h
  split at h
  · cases h
    exact .refl d fetches _
  · split at h <;> cases h
    refine ⟨⟨?_, fun _ => rfl, fun _ => rfl, rfl⟩, fun _ _ => rfl, owners⟩
    simp [AList.lookup_insert_ne other.symm]

theorem upsertPreKeys_spared {d' : UUID} {args : PreKeyArgs} {time : Nat} (other : d' ≠ d)
    (h : db.upsertPreKeys d' args time = some db') : Spared d fetches db db' := by
  unfold upsertPreKeys at h
  split at h
  · obtain ⟨-, h⟩ := Option.ite_none_right_eq_some.mp h
    cases h
    refine ⟨⟨rfl, fun id => ?_, fun _ => rfl, rfl⟩, fun _ _ => rfl, fun _ => rfl⟩
    exact AList.lookup_insert_ne (by simp [other.symm])
  · cases h

theorem insertOneTimeKey_spared {d' : UUID} {key : OTK} (other : d' ≠ d)
    (h : db.insertOneTimeKey d' key = some db') : Spared d fetches db db' := by
  unfold insertOneTimeKey at h
  split at h
  · cases h
  · obtain ⟨-, h⟩ := Option.ite_none_right_eq_some.mp h
    cases h
    have row (publicKey : Bytes) (id : Nat) :
        (db.oneTimeKeys.insert (d', key.keyID) ⟨publicKey, false⟩).lookup (d, id) =
          db.oneTimeKeys.lookup (d, id) := AList.lookup_insert_ne (by simp [other.symm])
    exact ⟨⟨rfl, fun _ => rfl, fun id => by rw [row], rfl⟩, fun _ id => row _ id, fun _ => rfl⟩

theorem insertOneTimeKeys_spared {d' : UUID} {keys : List OTK} (other : d' ≠ d)
    (h : db.insertOneTimeKeys d' keys = some db') : Spared d fetches db db' := by
  induction keys generalizing db with
  | nil =>
    cases h
    exact .refl d fetches _
  | cons key rest ih =>
    obtain ⟨one, first, h⟩ := Option.bind_eq_some_iff.mp h
    exact (insertOneTimeKey_spared other first).trans (ih h)

theorem insertMlsKeyPackage_spared {u d' : UUID} {data : Bytes} {now : Nat} (other : d' ≠ d)
    (h : db.insertMlsKeyPackage u d' data now = some db') : Spared d fetches db db' := by
  obtain ⟨-, h⟩ := Option.ite_none_right_eq_some.mp h
  cases h
  refine ⟨⟨rfl, fun _ => rfl, fun _ => rfl, ?_⟩, fun _ _ => rfl, fun _ => rfl⟩
  simp [other]

theorem consumeOneTimeKey_spared (db : Database) (k : UUID × Nat) :
    Spared d true db (db.consumeOneTimeKey k) := by
  unfold consumeOneTimeKey
  split
  · rename_i key found
    refine ⟨⟨rfl, fun _ => rfl, fun id => ?_, rfl⟩, nofun, fun _ => rfl⟩
    by_cases same : (d, id) = k
    · subst same
      simp [found]
    · rw [AList.lookup_insert_ne same]
  · exact .refl d true db

theorem consumeOneTimeKeys_spared (db : Database) (ks : List (UUID × Nat)) :
    Spared d true db (ks.foldl consumeOneTimeKey db) := by
  induction ks generalizing db with
  | nil => exact .refl d true db
  | cons k rest ih => exact (consumeOneTimeKey_spared db k).trans (ih _)

end Database

/-! ## Operations -/

/-- The operation writes no keys of this device, except that it may consume one-time keys. -/
def Op.Spares (d : UUID) (fetches : Bool) : Op → Prop
  | .updateDeviceIdentityKey d' _ | .uploadPreKeyBundle d' _ _ | .uploadOneTimeKeys d' _
  | .saveMlsKeyPackage _ d' _ => d' ≠ d
  | .commit _ => fetches
  | _ => True

/-- The answer tells the owner of a device as the database has it. -/
def Op.OwnerIn (db : Database) : (op : Op) → Ret op → Prop
  | .getDeviceByID d, r => ∀ device, r = .ok device → db.owner d = some device.userID
  | _, _ => True

section Operations
variable {s s' t : Server} {d : UUID} {fetches : Bool} {op : Op} {c : Choice} {r : Ret op}

theorem effect_spared {db' : Database} (h : s.effect op = some db') (spares : op.Spares d fetches) :
    s.db.Spared d fetches db' := by
  cases op
  case updateDeviceIdentityKey => exact Database.updateIdentityKey_spared spares h
  case uploadPreKeyBundle => exact Database.upsertPreKeys_spared spares h
  case uploadOneTimeKeys => exact Database.insertOneTimeKeys_spared spares h
  case saveMlsKeyPackage => exact Database.insertMlsKeyPackage_spared spares h
  case commit tx =>
    cases h
    have fetch : fetches = true := spares
    subst fetch
    exact Database.consumeOneTimeKeys_spared s.db (s.lockedBy tx)
  all_goals exact .of_same (Server.effect_same h (by simp [Op.part]))

theorem exec_spared (h : s.exec op c = some (r, s')) (spares : op.Spares d fetches) :
    s.db.Spared d fetches s'.db := by
  rcases Server.exec_db h with same | ⟨effect, -⟩
  · rw [same]
    exact .refl d fetches s.db
  · exact effect_spared effect spares

/-- No operation changes the owner of a device. -/
theorem effect_owner {db' : Database} (h : s.effect op = some db') (e : UUID) :
    db'.owner e = s.db.owner e := by
  cases op
  case updateDeviceIdentityKey => exact Database.updateIdentityKey_owner h e
  case uploadPreKeyBundle =>
    obtain ⟨_, rfl⟩ := Database.upsertPreKeys_shape h
    rfl
  case uploadOneTimeKeys =>
    obtain ⟨_, rfl⟩ := Database.insertOneTimeKeys_shape h
    rfl
  case saveMlsKeyPackage =>
    obtain ⟨-, h⟩ := Option.ite_none_right_eq_some.mp h
    cases h
    rfl
  case commit tx =>
    cases h
    exact (Database.consumeOneTimeKeys_spared (d := e) s.db (s.lockedBy tx)).owners e
  all_goals
    have spared : s.db.Spared e true db' := .of_same (Server.effect_same h (by simp [Op.part]))
    exact spared.owners e

theorem exec_owner (h : s.exec op c = some (r, s')) (e : UUID) : s'.db.owner e = s.db.owner e := by
  rcases Server.exec_db h with same | ⟨effect, -⟩
  · rw [same]
  · exact effect_owner effect e

theorem exec_ownerIn {db : Database} (owners : ∀ d', s.db.owner d' = db.owner d')
    (h : s.exec op c = some (r, s')) : op.OwnerIn db r := by
  cases op
  case getDeviceByID d =>
    rintro device rfl
    obtain ⟨-, ⟨-, found⟩ | ⟨-, failed⟩⟩ := Server.query_eq_some.mp h
    · rw [← owners d, Database.owner]
      cases row : s.db.devices.lookup d with
      | none => simp [row, Server.orNoRows] at found
      | some device' =>
        simp only [row, Server.orNoRows, Except.ok.injEq] at found
        simp [found]
    · cases failed
  all_goals trivial

/-- A program that spares a device in every run with true answers about owners. -/
theorem spared_of_allIf {α : Type} {p : Proc α} {trace : List (Op × Choice)} {a : α}
    {Q : α → Prop} (run : Executes system p s trace a t)
    (h : p.AllIf (Op.OwnerIn s.db) (Op.Spares d fetches) Q) : s.db.Spared d fetches t.db := by
  have step (u : Server) (op : Op) (c : Choice) (r : Ret op) (v : Server)
      (spared : s.db.Spared d fetches u.db) (spares : op.Spares d fetches) (_ : True)
      (h : u.exec op c = some (r, v)) : op.OwnerIn s.db r ∧ s.db.Spared d fetches v.db :=
    ⟨exec_ownerIn spared.owners h, spared.trans (exec_spared h spares)⟩
  exact (run.allIf (P := fun u : Server => s.db.Spared d fetches u.db) h (.refl d fetches s.db)
    (fun _ _ => trivial) step).2.2

end Operations

/-! ## Handlers -/

section Handlers
variable {S : Platform} {db : Database} {d : UUID} {fetches : Bool} {ctx : Context}
  {deviceId : String}

/-- The caller does not own the device. -/
abbrev Context.Foreign (S : Platform) (db : Database) (ctx : Context) (d : UUID) : Prop :=
  ∀ u, S.parseUUID ctx.userID = some u → db.owner d ≠ some u

/-- Behind the check of the owner, a handler has a device of the caller. -/
theorem withDevice_allIf {α : Type} {handler : UUID → UUID → Proc (Answer α)}
    (foreign : ctx.Foreign S db d)
    (h : ∀ d' u, d' ≠ d →
      (handler d' u).AllIf (Op.OwnerIn db) (Op.Spares d fetches) fun _ => True) :
    (withDevice S ctx deviceId handler).AllIf (Op.OwnerIn db) (Op.Spares d fetches)
      fun _ => True := by
  unfold withDevice
  split
  · trivial
  · split
    · trivial
    · rename_i devUUID _
      unfold verifyDeviceOwnership
      split
      · trivial
      · rename_i u caller
        split
        · trivial
        · refine ⟨trivial, fun device owned => ?_⟩
          cases device with
          | error => trivial
          | ok device =>
            by_cases own : device.userID = u
            · simp only [Prog.pure_bind, own, ne_eq, not_true, if_false, Prog.monad_pure]
              refine h devUUID u ?_
              rintro rfl
              have owner := owned device rfl
              rw [own] at owner
              exact foreign u (getUserIDFromCtx_ok caller) owner
            · simp [own]

theorem saveOneTimeKeys_allIf {d' : UUID} (other : d' ≠ d) (keys : List OneTimePreKey) :
    (saveOneTimeKeys d' keys).AllIf (Op.OwnerIn db) (Op.Spares d fetches) fun _ => True := by
  unfold saveOneTimeKeys
  split
  · trivial
  · exact ⟨other, fun r _ => by cases r <;> trivial⟩

theorem uploadPreKeyBundle_allIf {req : UploadPreKeyBundleRequest} (foreign : ctx.Foreign S db d) :
    (uploadPreKeyBundle S ctx req).AllIf (Op.OwnerIn db) (Op.Spares d fetches) fun _ => True := by
  refine withDevice_allIf foreign fun d' u other => ?_
  split
  · trivial
  · refine ⟨trivial, fun now _ => ⟨other, fun saved _ => ?_⟩⟩
    cases saved with
    | error => trivial
    | ok => exact saveOneTimeKeys_allIf other req.oneTimePreKeys

theorem getKeyCount_allIf (foreign : ctx.Foreign S db d) :
    (getKeyCount S ctx deviceId).AllIf (Op.OwnerIn db) (Op.Spares d fetches) fun _ => True := by
  refine withDevice_allIf foreign fun d' u other => ⟨trivial, fun count _ => ?_⟩
  cases count <;> trivial

theorem uploadOneTimeKeys_allIf {keys : List OneTimePreKey} (foreign : ctx.Foreign S db d) :
    (uploadOneTimeKeys S ctx deviceId keys).AllIf (Op.OwnerIn db) (Op.Spares d fetches)
      fun _ => True :=
  withDevice_allIf foreign fun _ _ other => saveOneTimeKeys_allIf other keys

theorem uploadMlsKeyPackage_allIf {data : Bytes} (foreign : ctx.Foreign S db d) :
    (uploadMlsKeyPackage S ctx deviceId data).AllIf (Op.OwnerIn db) (Op.Spares d fetches)
      fun _ => True := by
  unfold uploadMlsKeyPackage
  split
  · trivial
  · refine withDevice_allIf foreign fun d' u other => ⟨other, fun saved _ => ?_⟩
    cases saved <;> trivial

theorem finishFetch_all {tx spkID : Nat} {identityKey : Bytes} {row : PreKeys}
    {key : Option (Nat × Bytes)} :
    (finishFetch tx identityKey spkID row key).All (Op.Spares d true) :=
  ⟨rfl, fun committed => by cases committed <;> trivial⟩

theorem abort_all {α : Type} (tx : Nat) : (abort tx : Proc (Except StoreError α)).All
    (Op.Spares d fetches) := ⟨trivial, fun _ => trivial⟩

theorem storeFetchPreKeyBundle_all (d' : UUID) :
    (storeFetchPreKeyBundle d').All (Op.Spares d true) := by
  refine ⟨trivial, fun begun => ?_⟩
  cases begun with
  | error => trivial
  | ok tx =>
    refine ⟨trivial, fun identityKey => ?_⟩
    cases identityKey with
    | error => exact abort_all tx
    | ok identityKey =>
      refine ⟨trivial, fun preKeys => ?_⟩
      cases preKeys with
      | error => exact abort_all tx
      | ok preKeys =>
        refine ⟨trivial, fun key => ?_⟩
        rcases key with (_ | _) | key
        · exact abort_all tx
        · exact finishFetch_all
        · exact finishFetch_all

theorem fetchDevice_all {userId : String} :
    (fetchDevice S userId deviceId).All (Op.Spares d fetches) := by
  unfold fetchDevice
  split
  · split
    · trivial
    · refine ⟨trivial, fun devices => ?_⟩
      rcases devices with _ | _ | _ <;> trivial
  · trivial

theorem fetchPreKeyBundle_all {userId : String} :
    (fetchPreKeyBundle S ctx userId deviceId).All (Op.Spares d true) := by
  unfold fetchPreKeyBundle
  split
  · trivial
  · refine Prog.All.bind fetchDevice_all fun deviceId => ?_
    split
    · trivial
    · split
      · trivial
      · split
        · trivial
        · refine Prog.All.bind (storeFetchPreKeyBundle_all _) fun bundle => ?_
          cases bundle <;> trivial

theorem fetchMlsKeyPackage_all {userId : String} :
    (fetchMlsKeyPackage S ctx userId deviceId).All (Op.Spares d fetches) := by
  unfold fetchMlsKeyPackage
  split
  · trivial
  · split
    · trivial
    · split
      · trivial
      · split
        · trivial
        · exact ⟨trivial, fun data => by cases data <;> trivial⟩

end Handlers

/-! ## Requests -/

section Requests
variable {S : Platform} {s t : Server} {d : UUID} {trace : List (Op × Choice)}

theorem failure_allIf {ε α : Type} {cause : ε → Failure} {p : Proc (Except ε α)}
    {ok : (op : Op) → Ret op → Prop} {φ : Op → Prop} (h : p.AllIf ok φ fun _ => True) :
    (failure cause p).AllIf ok φ fun _ => True :=
  h.bind fun r _ => by cases r <;> trivial

theorem respond_allIf {α : Type} {forbidden failed : String} {p : Proc (Answer α)}
    {ok : (op : Op) → Ret op → Prop} {φ : Op → Prop} (h : p.AllIf ok φ fun _ => True) :
    (respond forbidden failed p).AllIf ok φ fun _ => True :=
  h.bind fun r _ => by cases r <;> trivial

namespace KeyRequest

theorem methods_guarded : ∀ method ∈ ["/chat.v1.KeyService/UploadPreKeyBundle",
    "/chat.v1.KeyService/FetchPreKeyBundle", "/chat.v1.KeyService/GetKeyCount",
    "/chat.v1.KeyService/UploadOneTimeKeys", "/chat.v1.KeyService/UploadMlsKeyPackage",
    "/chat.v1.KeyService/FetchMlsKeyPackage"],
    isPublicMethod method = false ∧ isInternalServiceMethod method = false := by
  decide

/-- The caller of the request does not own the device. -/
def Foreign (S : Platform) (db : Database) (req : KeyRequest) (d : UUID) : Prop :=
  ∀ u, req.From S u → db.owner d ≠ some u

/-- The endpoint that writes before it checks. -/
def writesFirst : KeyRequest → Bool
  | .httpUploadPreKeyBundle _ => true
  | _ => false

/-- Every endpoint but one spares the devices of other users. -/
theorem handle_allIf {db : Database} (req : KeyRequest) (foreign : req.Foreign S db d)
    (checked : req.writesFirst = false) :
    (req.handle S).AllIf (Op.OwnerIn db) (Op.Spares d req.fetches) fun _ => True := by
  cases req with
  | httpUploadPreKeyBundle => cases checked
  | grpcUploadPreKeyBundle token req =>
    refine failure_allIf ?_
    apply interceptor_allIf
    · exact methods_guarded "/chat.v1.KeyService/UploadPreKeyBundle" (by simp)
    · exact fun _ => trivial
    · trivial
    · intro token bearer signed
      exact uploadPreKeyBundle_allIf fun u caller => foreign u ⟨token, bearer, signed, caller⟩
  | grpcFetchPreKeyBundle token userId deviceId =>
    refine failure_allIf ?_
    apply interceptor_allIf
    · exact methods_guarded "/chat.v1.KeyService/FetchPreKeyBundle" (by simp)
    · exact fun _ => trivial
    · trivial
    · intro token bearer signed
      exact fetchPreKeyBundle_all.allIf
  | grpcGetKeyCount token deviceId =>
    refine failure_allIf ?_
    apply interceptor_allIf
    · exact methods_guarded "/chat.v1.KeyService/GetKeyCount" (by simp)
    · exact fun _ => trivial
    · trivial
    · intro token bearer signed
      exact getKeyCount_allIf fun u caller => foreign u ⟨token, bearer, signed, caller⟩
  | grpcUploadOneTimeKeys token deviceId keys =>
    refine failure_allIf ?_
    apply interceptor_allIf
    · exact methods_guarded "/chat.v1.KeyService/UploadOneTimeKeys" (by simp)
    · exact fun _ => trivial
    · trivial
    · intro token bearer signed
      exact uploadOneTimeKeys_allIf fun u caller => foreign u ⟨token, bearer, signed, caller⟩
  | grpcUploadMlsKeyPackage token deviceId data =>
    refine failure_allIf ?_
    apply interceptor_allIf
    · exact methods_guarded "/chat.v1.KeyService/UploadMlsKeyPackage" (by simp)
    · exact fun _ => trivial
    · trivial
    · intro token bearer signed
      exact uploadMlsKeyPackage_allIf fun u caller => foreign u ⟨token, bearer, signed, caller⟩
  | grpcFetchMlsKeyPackage token userId deviceId =>
    refine failure_allIf ?_
    apply interceptor_allIf
    · exact methods_guarded "/chat.v1.KeyService/FetchMlsKeyPackage" (by simp)
    · exact fun _ => trivial
    · trivial
    · intro token bearer signed
      exact fetchMlsKeyPackage_all.allIf
  | httpUploadOneTimeKeys req =>
    refine failure_allIf ?_
    refine authenticated_allIf (fun _ => trivial) trivial fun token bearer signed => ?_
    split
    · trivial
    · refine respond_allIf (uploadOneTimeKeys_allIf fun u caller => ?_)
      exact foreign u ⟨token, bearer, signed, caller⟩
  | httpGetKeyCount req =>
    refine failure_allIf ?_
    refine authenticated_allIf (fun _ => trivial) trivial fun token bearer signed => ?_
    refine respond_allIf (getKeyCount_allIf fun u caller => ?_)
    exact foreign u ⟨token, bearer, signed, caller⟩
  | httpFetchPreKeyBundle req =>
    refine failure_allIf (Prog.All.allIf ?_)
    unfold Auth.httpFetchPreKeyBundle
    split
    · trivial
    · split
      · trivial
      · refine ⟨trivial, fun time => ?_⟩
        simp only [Prog.pure_bind]
        split
        · trivial
        · split
          · trivial
          · refine Prog.All.bind fetchPreKeyBundle_all fun bundle => ?_
            cases bundle <;> trivial
  | httpUploadMlsKeyPackage req =>
    refine failure_allIf ?_
    refine authenticated_allIf (fun _ => trivial) trivial fun token bearer signed => ?_
    split
    · trivial
    · refine respond_allIf (uploadMlsKeyPackage_allIf fun u caller => ?_)
      exact foreign u ⟨token, bearer, signed, caller⟩
  | httpFetchMlsKeyPackage req =>
    refine failure_allIf ?_
    refine authenticated_allIf (fun _ => trivial) trivial fun token bearer signed => ?_
    dsimp only
    split
    · trivial
    · refine Prog.AllIf.bind fetchMlsKeyPackage_all.allIf fun data _ => ?_
      cases data <;> trivial

end KeyRequest

/-! ## The write before the check -/

/-- The endpoint's own write replaces the identity key of the device. -/
def KeyRequest.Overwrites (S : Platform) (s : Server) (d : UUID) : KeyRequest → Prop
  | .httpUploadPreKeyBundle req => req.method = .post ∧ req.decoded ∧ ∃ token ∈ req.token,
    ∃ claims, verifyJWT s.clock token = some claims ∧
      S.parseUUID (req.body.request claims).deviceId = some d ∧
      ∃ key device, req.body.finalIdentKey = some key ∧ s.db.devices.lookup d = some device ∧
        device.identityKey ≠ key ∧
        ∀ other ∈ s.db.devicesOf device.userID, other.1 ≠ d → other.2.identityKey ≠ key
  | _ => False

theorem storeIdentityKey_cases {claims : JWTPayload} {body : PreKeyBundleBody} :
    Executes system (storeIdentityKey S claims body) s trace () t →
      t = s ∨ ∃ key d', body.finalIdentKey = some key ∧
        S.parseUUID (body.request claims).deviceId = some d' ∧
        s.db.updateIdentityKey d' key = some t.db := by
  unfold storeIdentityKey
  split
  · rename_i key d' final parsed
    intro run
    obtain ⟨c, r, u, later, hr, run, -⟩ := executes_call.mp run
    obtain ⟨-, -, rfl⟩ := executes_pure.mp run
    obtain ⟨rfl, -⟩ | ⟨db, stored, rfl, -⟩ := Server.write_cases hr
    · exact .inl rfl
    · exact .inr ⟨key, d', final, parsed, stored⟩
  · intro run
    exact .inl (executes_pure.mp run).2.2.symm

/-- A write of an identity key that replaces no other leaves the device as it is. -/
theorem Database.updateIdentityKey_same {db db' : Database} {key : Bytes}
    (h : db.updateIdentityKey d key = some db')
    (idle : ∀ device, db.devices.lookup d = some device → device.identityKey ≠ key →
      ∃ other ∈ db.devicesOf device.userID, other.1 ≠ d ∧ other.2.identityKey = key) :
    db.Spared d false db' := by
  have owners := updateIdentityKey_owner h
  unfold updateIdentityKey at h
  split at h
  · cases h
    exact .refl d false _
  · rename_i device found
    split at h
    · cases h
    · rename_i unique
      cases h
      refine ⟨⟨?_, fun _ => rfl, fun _ => rfl, rfl⟩, fun _ _ => rfl, owners⟩
      by_cases same : device.identityKey = key
      · simp [found, same]
      · exact absurd (idle device found same) unique

theorem executes_failure {ε α : Type} {cause : ε → Failure} {p : Proc (Except ε α)}
    {a : Option Failure} (run : Executes system (failure cause p) s trace a t) :
    ∃ first r, Executes system p s first r t := by
  obtain ⟨first, r, u, later, part, rest, -⟩ := executes_bind.mp run
  have same : u = t := by cases r <;> exact (executes_pure.mp rest).2.2
  exact ⟨first, r, same ▸ part⟩

theorem executes_of_failure {ε α : Type} (cause : ε → Failure) {p : Proc (Except ε α)}
    {r : Except ε α} (run : Executes system p s trace r t) :
    ∃ a, Executes system (failure cause p) s trace a t := by
  have rest : ∃ a, Executes system (match r with
      | .ok _ => pure none
      | .error err => pure (some (cause err))) t [] a t := by
    cases r <;> exact ⟨_, .pure _ _⟩
  obtain ⟨a, rest⟩ := rest
  exact ⟨a, executes_bind.mpr ⟨trace, r, t, [], run, rest, by simp⟩⟩

/-- The endpoint after its own write. -/
theorem afterWrite_spared {claims : JWTPayload} {body : PreKeyBundleBody}
    {forbidden failed : String} {a : HttpAnswer Unit}
    (foreign : ∀ u, S.parseUUID claims.sub = some u → s.db.owner d ≠ some u)
    (run : Executes system (respond forbidden failed
      (uploadPreKeyBundle S ⟨claims.sub, claims.deviceID⟩ (body.request claims))) s trace a t) :
    s.db.Spared d false t.db :=
  spared_of_allIf run (respond_allIf (uploadPreKeyBundle_allIf foreign))

/-- A key that no other device of the owner has can always be written. -/
theorem storeIdentityKey_executes {claims : JWTPayload} {body : PreKeyBundleBody} {key : Bytes}
    {device : Device} (final : body.finalIdentKey = some key)
    (parsed : S.parseUUID (body.request claims).deviceId = some d)
    (found : s.db.devices.lookup d = some device)
    (unique : ∀ other ∈ s.db.devicesOf device.userID, other.1 ≠ d → other.2.identityKey ≠ key) :
    ∃ trace u, Executes system (storeIdentityKey S claims body) s trace () u ∧
      u.db.devices.lookup d = some { device with identityKey := key } ∧
      ∀ e, u.db.owner e = s.db.owner e := by
  let db : Database :=
    { s.db with devices := s.db.devices.insert d { device with identityKey := key } }
  have stored : s.db.updateIdentityKey d key = some db := by
    unfold Database.updateIdentityKey
    simp only [found]
    refine if_neg ?_
    rintro ⟨other, mem, distinct, same⟩
    exact unique other mem distinct same
  have step : s.exec (.updateDeviceIdentityKey d key) .ok =
      some (.ok (), { s with db := db }) := by
    simp only [Server.exec, stored, Server.write]
  refine ⟨[(.updateDeviceIdentityKey d key, .ok)], { s with db := db }, ?_,
    AList.lookup_insert _, Database.updateIdentityKey_owner stored⟩
  simp only [storeIdentityKey, final, parsed]
  exact .call step (.pure _ _)

/-- The endpoint goes on to its handler after its own write. -/
theorem executes_upload {req : HttpRequest PreKeyBundleBody} {token : Token} {claims : JWTPayload}
    {u : Server} {first rest : List (Op × Choice)} {r : HttpAnswer Unit}
    (method : req.method = .post) (decoded : req.decoded) (bearer : req.token = some token)
    (verified : verifyJWT s.clock token = some claims)
    (write : Executes system (storeIdentityKey S claims req.body) s first () u)
    (after : Executes system (respond
      "permission denied: cannot upload pre-key bundle for another user's device"
      "failed to upload prekey bundle"
      (uploadPreKeyBundle S ⟨claims.sub, claims.deviceID⟩ (req.body.request claims))) u rest r t) :
    Executes system (httpUploadPreKeyBundle S req) s ((.now, .ok) :: (first ++ rest)) r t := by
  refine (executes_authenticated (by simp [method]) bearer).mpr ⟨first ++ rest, rfl, ?_⟩
  simp only [verified, decoded, Bool.true_eq_false, if_false]
  exact executes_bind.mpr ⟨first, (), u, rest, write, after, rfl⟩

/-- A request of somebody else leaves the key material of a device as it is exactly if it does not
overwrite the identity key. -/
theorem keyMaterial_kept_iff (req : KeyRequest) (s : Server) (d : UUID)
    (foreign : req.Foreign S s.db d) :
    (∀ trace a t, Executes system (req.handle S) s trace a t →
      s.db.SameMaterial d t.db ∧ (req.fetches = false → s.db.SameConsumed d t.db)) ↔
    ¬ req.Overwrites S s d := by
  by_cases checked : req.writesFirst = false
  · have spared : ¬ req.Overwrites S s d := by cases req <;> first | exact id | cases checked
    refine iff_of_true (fun trace a t run => ?_) spared
    have spared := spared_of_allIf run (req.handle_allIf foreign checked)
    exact ⟨spared.material, spared.consumed⟩
  · cases req with
    | httpUploadPreKeyBundle req =>
      have own {token : Token} (bearer : token ∈ req.token) {claims : JWTPayload}
          (verified : verifyJWT s.clock token = some claims) (v : UUID)
          (caller : S.parseUUID claims.sub = some v) : s.db.owner d ≠ some v := by
        obtain ⟨signed, rfl⟩ := verifyJWT_eq_some verified
        exact foreign v ⟨token, bearer, signed, caller⟩
      constructor
      · rintro kept ⟨method, decoded, token, bearer, claims, verified, parsed, key, device, final,
          found, changes, unique⟩
        obtain ⟨first, u, write, stored, owners⟩ :=
          storeIdentityKey_executes final parsed found unique
        obtain ⟨rest, r, t, after⟩ := Executes.exists exec_live _ u
        obtain ⟨a, run⟩ := executes_of_failure .inr
          (executes_upload method decoded bearer verified write after)
        have later : u.db.Spared d false t.db :=
          afterWrite_spared (fun v caller => owners d ▸ own bearer verified v caller) after
        have same := (kept _ a t run).1.identityKey
        rw [later.material.identityKey, stored, found] at same
        exact changes (Option.some.inj same).symm
      · intro spared trace a t run
        obtain ⟨first, r, run⟩ := executes_failure run
        rcases executes_authenticated_cases run with rfl | ⟨method, token, bearer, claims, verified,
          later, run⟩
        · exact ⟨.refl d _, fun _ _ => rfl⟩
        · split at run
          · obtain ⟨-, -, rfl⟩ := executes_pure.mp run
            exact ⟨.refl d _, fun _ _ => rfl⟩
          · rename_i decoded
            obtain ⟨first, _, u, rest, write, after, -⟩ := executes_bind.mp run
            have first : s.db.Spared d false u.db := by
              rcases storeIdentityKey_cases write with rfl | ⟨key, d', final, parsed, stored⟩
              · exact .refl d false _
              · by_cases same : d' = d
                · subst same
                  refine Database.updateIdentityKey_same stored fun device found changes => ?_
                  by_contra unique
                  push Not at unique
                  exact spared ⟨by simpa using method, by simpa using decoded, token, bearer,
                    claims, verified, parsed, key, device, final, found, changes, unique⟩
                · exact Database.updateIdentityKey_spared same stored
            have second : u.db.Spared d false t.db := afterWrite_spared
              (fun v caller => (first.owners d).symm ▸ own bearer verified v caller) after
            exact ⟨(first.trans second).material, (first.trans second).consumed⟩
    | _ => exact absurd rfl checked

end Requests

/-! ## Bob and Alice's phone -/

namespace Sample

/-- Alice and Bob have a phone each. -/
def twoPhones : Server where
  db := { Database.empty with
    users := [alice, bob]
    devices := ((∅ : Table UUID Device).insert alicePhone ⟨alice, [1]⟩).insert bobPhone ⟨bob, [2]⟩ }
  clock := clock
  begun := 0
  locks := ∅

def bundleBody (deviceId identityKey : String) : PreKeyBundleBody where
  deviceId := deviceId
  device_id := ""
  signedPreKey := none
  pqPreKey := none
  oneTimePreKeys := []
  identityKey := identityKey
  identity_key := ""
  identityKeyX25519 := ""
  identity_key_x25519 := ""

/-- Bob uploads a bundle for a device, with an identity key of the one byte 3. -/
def bobUploads (deviceId : String) : KeyRequest :=
  .httpUploadPreKeyBundle ⟨.post, some bobToken, bundleBody deviceId "Aw==", true⟩

def uploadRun : Option (List (Op × Choice) × Option Failure × Server) :=
  play system ((bobUploads alicePhone.text).handle platform) twoPhones [.ok, .ok, .ok]

theorem uploadRun_isSome : uploadRun.isSome := by rfl

theorem bob_foreign (deviceId : String) :
    (bobUploads deviceId).Foreign platform twoPhones.db alicePhone := by
  rintro u ⟨token, bearer, -, caller⟩
  cases bearer
  have named : platform.parseUUID bobToken.payload.sub = some bob := by rfl
  have owner : twoPhones.db.owner alicePhone = some alice := by rfl
  rw [named] at caller
  cases caller
  rw [owner]
  decide

/-- Bob replaces the identity key of Alice's phone, and his request is forbidden. -/
theorem identityKey_replaced : ∃ trace err t,
    Executes system ((bobUploads alicePhone.text).handle platform) twoPhones trace
      (some (.inr err)) t ∧ err.status = 403 ∧
    (bobUploads alicePhone.text).Foreign platform twoPhones.db alicePhone ∧
    (twoPhones.db.devices.lookup alicePhone).map Device.identityKey = some [1] ∧
    (t.db.devices.lookup alicePhone).map Device.identityKey = some [3] := by
  let run := uploadRun.get uploadRun_isSome
  let err : HttpError :=
    ⟨"permission denied: cannot upload pre-key bundle for another user's device", 403⟩
  have forbidden : run.2.1 = some (.inr err) := by rfl
  refine ⟨run.1, err, run.2.2, ?_, rfl, bob_foreign _, by rfl, by rfl⟩
  rw [← forbidden]
  exact Executes.of_play _ (Option.some_get uploadRun_isSome).symm

/-- Bob's upload for his own phone leaves Alice's as it is. -/
theorem keyMaterial_kept_sample :
    (bobUploads bobPhone.text).Foreign platform twoPhones.db alicePhone ∧ ∀ trace a t,
      Executes system ((bobUploads bobPhone.text).handle platform) twoPhones trace a t →
        twoPhones.db.SameMaterial alicePhone t.db ∧ ((bobUploads bobPhone.text).fetches = false →
          twoPhones.db.SameConsumed alicePhone t.db) := by
  have foreign := bob_foreign bobPhone.text
  refine ⟨foreign, (keyMaterial_kept_iff (bobUploads bobPhone.text) twoPhones alicePhone
    foreign).mpr ?_⟩
  rintro ⟨-, -, token, bearer, claims, verified, parsed, -⟩
  cases bearer
  obtain ⟨-, rfl⟩ := verifyJWT_eq_some verified
  revert parsed
  decide

end Sample
end GenChat.Auth
