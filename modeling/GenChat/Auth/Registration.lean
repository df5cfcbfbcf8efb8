import GenChat.Auth.Passkeys

/-!
# Registration step by step

A registration writes its user, its device and its session one after the other, and an identity key
belongs to one user only. So once the user stands, a failure of what follows leaves a user without a
device, and no retry with the same key gets past the first write.
-/
namespace GenChat.Auth.Passkeys
open Library
open Ledger (Bytes Table)

/-! ## All or nothing -/

/-- The registration would be accepted, if its statements are. -/
def CanRegister (S : Platform) (req : FinishRegistrationRequest) (s : Accounts) : Prop :=
  ∃ trace response s', Executes system (finishRegistration S req) s trace (.ok response) s'

/-- No user, device or session row has come or gone. -/
structure SameAccounts (s s' : Accounts) : Prop where
  users : s'.db.users = s.db.users
  profiles : s'.profiles = s.profiles
  devices : s'.db.devices = s.db.devices
  sessions : s'.db.sessions = s.db.sessions

/-- The identity key has one user, with one device and one session. -/
structure Registered (s : Accounts) (key : Bytes) (userID deviceID sessionID : UUID) : Prop where
  user : ∀ u, (s.profiles.lookup u).map Profile.identityKey = some key ↔ u = userID
  device : ∀ d, (s.db.devices.lookup d).map Device.userID = some userID ↔ d = deviceID
  session : ∀ id, (s.db.sessions.lookup id).map AuthSession.userID = some userID ↔ id = sessionID

/-- The insertion of the user takes effect. -/
def UserCreated (s : Accounts) (trace : List (Op × Choice)) : Prop :=
  ∃ id name key c, (.createUser id name key, c) ∈ trace ∧ c ≠ .fail ∧
    (s.insertUser id name key).isSome

section Runs
variable {S : Platform} {s s' : Accounts} {trace : List (Op × Choice)} {a : Answer Response}
  {req : FinishRegistrationRequest} {u d : UUID}

def Op.isCreateUser : Op → Bool
  | .createUser _ _ _ => true
  | _ => false

theorem exec_profiles {op : Op} {c : Choice} {r : Ret op} (other : op.isCreateUser = false)
    (h : s.exec op c = some (r, s')) : s'.profiles = s.profiles := by
  rcases Accounts.exec_cases h with rfl | ⟨written, -⟩
  · rfl
  cases op
  case saveCeremony =>
    obtain ⟨-, rfl⟩ := Accounts.insertCeremony_eq_some written
    rfl
  case createUser => cases other
  case createDevice =>
    obtain ⟨-, rfl⟩ := Accounts.insertDevice_eq_some written
    rfl
  case createAuthSession =>
    obtain ⟨-, rfl⟩ := Accounts.insertSession_eq_some written
    rfl
  case deleteCeremony | revokeAuthSession =>
    cases written
    rfl
  all_goals cases written

theorem issueTokens_others {origin : Option UUID} :
    (issueTokens S u d origin).All fun op => op.isCreateUser = false := by
  refine ⟨rfl, fun _ => ⟨rfl, fun _ => ⟨rfl, fun _ => ⟨rfl, fun _ => ⟨rfl, fun written => ?_⟩⟩⟩⟩⟩
  cases written <;> trivial

theorem createFirstDevice_others {credJSON : Bytes} :
    (createFirstDevice S req u credJSON).All fun op => op.isCreateUser = false := by
  refine ⟨rfl, fun d => ⟨rfl, fun created => ?_⟩⟩
  cases created with
  | error => trivial
  | ok =>
    refine issueTokens_others.bind fun tokens => ?_
    cases tokens with
    | error => trivial
    | ok => exact ⟨rfl, fun _ => trivial⟩

theorem createFirstDevice_profiles {credJSON : Bytes}
    (run : Executes system (createFirstDevice S req u credJSON) s trace a s') :
    s'.profiles = s.profiles := by
  have step (t : Accounts) (op : Op) (c : Choice) (r : Ret op) (t' : Accounts)
      (same : t.profiles = s.profiles) (other : op.isCreateUser = false) (_ : True)
      (h : t.exec op c = some (r, t')) : True ∧ t'.profiles = s.profiles :=
    ⟨trivial, (exec_profiles other h).trans same⟩
  exact (run.allIf (P := fun t : Accounts => t.profiles = s.profiles)
    (Prog.all_iff_allIf.mp createFirstDevice_others) rfl (fun _ _ => trivial) step).2.2

/-- A registration ends before it writes, or it goes through the insertion of its user. -/
theorem finishRegistration_cases
    (run : Executes system (finishRegistration S req) s trace a s') :
    s' = s ∧ (∃ err, a = .error err) ∧ (∀ x ∈ trace, x.1.isCreateUser = false) ∨
    ∃ before later u name credJSON c r s₁,
      trace = before ++ (.createUser u name req.identityKey, c) :: later ∧
      (∀ x ∈ before, x.1.isCreateUser = false) ∧
      s.write (s.insertUser u name req.identityKey) c = some (r, s₁) ∧
      match r with
      | .error _ => later = [] ∧ (∃ err, a = .error err) ∧ s' = s₁
      | .ok () => Executes system (createFirstDevice S req u credJSON) s₁ later a s' := by
  unfold finishRegistration at run
  split at run
  · obtain ⟨rfl, rfl, rfl⟩ := executes_pure.mp run
    exact .inl ⟨rfl, ⟨_, rfl⟩, by simp⟩
  obtain ⟨c₀, found, s₀, t₀, got, run₀, rfl⟩ := executes_call.mp run
  obtain ⟨rfl, -⟩ := Accounts.query_eq_some.mp got
  rcases found with err | ceremony
  · obtain ⟨rfl, rfl, rfl⟩ := executes_pure.mp run₀
    exact .inl ⟨rfl, ⟨_, rfl⟩, by simp [Op.isCreateUser]⟩
  simp only [Prog.pure_bind] at run₀
  split at run₀
  · obtain ⟨rfl, rfl, rfl⟩ := executes_pure.mp run₀
    exact .inl ⟨rfl, ⟨_, rfl⟩, by simp [Op.isCreateUser]⟩
  rename_i credJSON checked
  obtain ⟨c₁, u, s₁, t₁, drawn, run₁, rfl⟩ := executes_call.mp run₀
  obtain rfl := @exec_draw s₀ s₁ .newUUID c₁ u rfl drawn
  obtain ⟨c, r, s₂, later, wrote, run₂, rfl⟩ := executes_call.mp run₁
  refine .inr ⟨[(.getCeremony req.sessionId, c₀), (.newUUID, c₁)], later, u, ceremony.displayName,
    credJSON, c, r, s₂, rfl, by simp [Op.isCreateUser], wrote, ?_⟩
  cases r with
  | error err =>
    obtain ⟨rfl, rfl, rfl⟩ := executes_pure.mp run₂
    exact ⟨rfl, ⟨_, rfl⟩, rfl⟩
  | ok => exact run₂

/-- A refused registration leaves its user behind if that has been inserted, and nothing
otherwise. -/
theorem refused_cases {err : Status}
    (run : Executes system (finishRegistration S req) s trace (.error err) s') :
    (UserCreated s trace ∧ ∃ u profile, u ∉ s.profiles ∧ s'.profiles.lookup u = some profile ∧
      profile.identityKey = req.identityKey) ∨ (¬ UserCreated s trace ∧ s' = s) := by
  rcases finishRegistration_cases run with ⟨rfl, -, none⟩ | ⟨before, later, u, name, credJSON, c, r,
    s₁, rfl, none, wrote, rest⟩
  · refine .inr ⟨?_, rfl⟩
    rintro ⟨id, name, key, c, mem, -⟩
    cases none _ mem
  obtain ⟨rfl, rfl, blocked⟩ | ⟨inserted, outcome⟩ := Accounts.write_eq_some wrote
  · obtain ⟨rfl, -, rfl⟩ := rest
    refine .inr ⟨?_, rfl⟩
    rintro ⟨id, name', key, c', mem, applied, possible⟩
    obtain early | here := List.mem_append.mp mem
    · cases none _ early
    · cases List.mem_singleton.mp here
      obtain refused | failed := blocked
      · simp [refused] at possible
      · exact applied failed
  · have kept : s'.profiles = s₁.profiles := by
      cases r with
      | error => rw [rest.2.2]
      | ok => exact createFirstDevice_profiles rest
    have applied : c ≠ .fail := by
      rintro rfl
      obtain ⟨⟨⟩, -⟩ | ⟨⟨⟩, -⟩ := outcome
    obtain ⟨⟨-, new, -⟩, same⟩ := Accounts.insertUser_eq_some inserted
    refine .inl ⟨⟨u, name, req.identityKey, c, by simp, applied, by simp [inserted]⟩,
      u, ⟨name, req.identityKey⟩, new, ?_, rfl⟩
    rw [kept, same]
    exact AList.lookup_insert _

/-- Where the key has a user, no registration with it is accepted. -/
theorem not_canRegister {profile : Profile} (stands : s.profiles.lookup u = some profile)
    (same : profile.identityKey = req.identityKey) : ¬ CanRegister S req s := by
  rintro ⟨trace, response, t, run⟩
  rcases finishRegistration_cases run with ⟨-, ⟨_, ⟨⟩⟩, -⟩ | ⟨_, _, v, name, _, c, r, t₁, -, -,
    wrote, rest⟩
  cases r with
  | error => obtain ⟨-, ⟨_, ⟨⟩⟩, -⟩ := rest
  | ok =>
    obtain ⟨⟨⟩, -⟩ | ⟨inserted, -⟩ := Accounts.write_eq_some wrote
    obtain ⟨⟨-, -, unique⟩, -⟩ := Accounts.insertUser_eq_some inserted
    exact unique ⟨u, profile⟩ (AList.mem_lookup_iff.mp stands) same

/-- A row with a new value is the only one with it. -/
theorem lookup_insert_map {κ ρ β : Type} [DecidableEq κ] {rows : Table κ ρ} {f : ρ → β} {v : β}
    {k k' : κ} {row : ρ} (value : f row = v)
    (new : ∀ k row, rows.lookup k = some row → f row ≠ v) :
    ((rows.insert k row).lookup k').map f = some v ↔ k' = k := by
  by_cases same : k' = k
  · subst same
    simp [AList.lookup_insert, value]
  · rw [AList.lookup_insert_ne same]
    refine iff_of_false (fun found => ?_) same
    obtain ⟨row', found, equal⟩ := Option.map_eq_some_iff.mp found
    exact new k' row' found equal

/-- With foreign keys in order, the new user owns what is written for it and nothing else. -/
theorem registered_of_inserted {u d id : UUID} {name label : String} {key cred hash : Bytes}
    {time : Nat} {s₁ s₂ s₃ : Accounts} (referential : s.Referential)
    (user : s.insertUser u name key = some s₁)
    (device : s₁.insertDevice d u key label cred = some s₂)
    (session : s₂.insertSession id u d hash time none = some s₃) : Registered s₃ key u d id := by
  obtain ⟨⟨fresh, -, unique⟩, rfl⟩ := Accounts.insertUser_eq_some user
  obtain ⟨-, rfl⟩ := Accounts.insertDevice_eq_some device
  obtain ⟨-, rfl⟩ := Accounts.insertSession_eq_some session
  refine ⟨fun u' => lookup_insert_map rfl fun k row found => ?_,
    fun d' => lookup_insert_map rfl fun k row found owner => ?_,
    fun id' => lookup_insert_map rfl fun k row found owner => ?_⟩
  · exact unique ⟨k, row⟩ (AList.mem_lookup_iff.mp found)
  · exact fresh (owner ▸ referential.devices k row found)
  · exact fresh (owner ▸ (referential.sessions k row found).1)

theorem createFirstDevice_ok {credJSON : Bytes} {response : Response}
    (run : Executes system (createFirstDevice S req u credJSON) s trace (.ok response) s') :
    ∃ d id label cred hash time s₁ s₂, s.insertDevice d u req.identityKey label cred = some s₁ ∧
      s₁.insertSession id u d hash time none = some s₂ ∧
      (s' = s₂ ∨ s' = s₂.removeCeremony req.sessionId) := by
  obtain ⟨c₁, d, s₀, t₁, drawn, run₁, rfl⟩ := executes_call.mp run
  obtain rfl := @exec_draw s s₀ .newUUID c₁ d rfl drawn
  obtain ⟨c₂, r, s₁, t₂, wrote, run₂, rfl⟩ := executes_call.mp run₁
  cases r with
  | error =>
    obtain ⟨-, ⟨⟩, -⟩ := executes_pure.mp run₂
  | ok =>
    obtain ⟨⟨⟩, -⟩ | ⟨inserted, -⟩ := Accounts.write_eq_some wrote
    obtain ⟨_, ⟨⟩⟩ | ⟨-, id, hash, time, s₂, c, session, -, outcome⟩ := executes_finish run₂
    exact ⟨d, id, _, _, hash, time, s₁, s₂, inserted, session, outcome.imp And.left And.left⟩

/-- A refused registration leaves the accounts and the chances of a retry as they were exactly if
its user has not been inserted, and one that succeeds gives the identity key one user, one device
and one session. -/
theorem registration_atomic_iff (referential : s.Referential)
    (run : Executes system (finishRegistration S req) s trace a s') :
    (∀ err, a = .error err → ((SameAccounts s s' ∧ (CanRegister S req s → CanRegister S req s')) ↔
      ¬ UserCreated s trace)) ∧
    (∀ response, a = .ok response →
      ∃ userID deviceID sessionID, Registered s' req.identityKey userID deviceID sessionID) := by
  constructor
  · rintro err rfl
    obtain ⟨created, u, profile, new, stands, -⟩ | ⟨none, rfl⟩ := refused_cases run
    · refine iff_of_false (fun kept => new ?_) (not_not.mpr created)
      rw [← kept.1.profiles]
      exact AList.lookup_isSome.mp (by simp [stands])
    · exact iff_of_true ⟨⟨rfl, rfl, rfl, rfl⟩, id⟩ none
  · rintro response rfl
    obtain ⟨-, ⟨_, ⟨⟩⟩, -⟩ | ⟨before, later, u, name, credJSON, c, r, s₁, -, -, wrote, rest⟩ :=
      finishRegistration_cases run
    cases r with
    | error => obtain ⟨-, ⟨_, ⟨⟩⟩, -⟩ := rest
    | ok =>
      obtain ⟨⟨⟩, -⟩ | ⟨inserted, -⟩ := Accounts.write_eq_some wrote
      obtain ⟨d, id, _, _, _, _, s₂, s₃, device, session, rfl | rfl⟩ := createFirstDevice_ok rest
      · exact ⟨u, d, id, registered_of_inserted referential inserted device session⟩
      · obtain ⟨user, device, session⟩ :=
          registered_of_inserted referential inserted device session
        exact ⟨u, d, id, user, device, session⟩

end Runs

namespace Sample
open Auth.Sample (alice alicePhone)

def request : FinishRegistrationRequest := ⟨"c1", 9 :: challenge, List.replicate 32 7, ""⟩

/-- The choices of a registration up to its user. -/
def userChoices : List Choice := [.ok, .uuid alice, .ok, .uuid alicePhone]

def refusedRun : Option (List (Op × Choice) × Answer Response × Accounts) :=
  play system (finishRegistration platform request) accounts (userChoices ++ [.fail])

def acceptedRun : Option (List (Op × Choice) × Answer Response × Accounts) :=
  play system (finishRegistration platform request) accounts
    (userChoices ++ [.ok, .ok, .bytes (List.replicate 32 3), .ok, .uuid alice, .ok, .ok])

theorem refusedRun_isSome : refusedRun.isSome := by rfl

theorem acceptedRun_isSome : acceptedRun.isSome := by rfl

theorem accounts_referential : accounts.Referential :=
  ⟨nofun, nofun, nofun⟩

end Sample

open Passkeys.Sample in
/-- A device that cannot be written leaves its user behind, and the key is used up. -/
theorem user_without_device : ∃ trace err s',
    Executes system (finishRegistration platform request) accounts trace (.error err) s' ∧
      ¬ SameAccounts accounts s' ∧ CanRegister platform request accounts ∧
      ¬ CanRegister platform request s' := by
  let run := refusedRun.get refusedRun_isSome
  let err : Status := ⟨.internal, "failed to create device"⟩
  have refused : run.2.1 = .error err := by rfl
  have executes : Executes system (finishRegistration platform request) accounts run.1
      (.error err) run.2.2 := by
    rw [← refused]
    exact Executes.of_play _ (Option.some_get refusedRun_isSome).symm
  have stands : (run.2.2.profiles.lookup Auth.Sample.alice).map Profile.identityKey =
      some request.identityKey := by rfl
  obtain ⟨profile, stands, same⟩ := Option.map_eq_some_iff.mp stands
  refine ⟨run.1, err, run.2.2, executes, fun kept => ?_, ?_, not_canRegister stands same⟩
  · rw [kept.profiles] at stands
    cases stands
  · let again := acceptedRun.get acceptedRun_isSome
    have accepted : again.2.1.isOk := by rfl
    have retry : Executes system (finishRegistration platform request) accounts again.1 again.2.1
        again.2.2 := Executes.of_play _ (Option.some_get acceptedRun_isSome).symm
    cases answer : again.2.1 with
    | error => simp [answer, Except.isOk, Except.toBool] at accepted
    | ok response => exact ⟨again.1, response, again.2.2, answer ▸ retry⟩

open Passkeys.Sample in
theorem registration_atomic_sample : ∃ trace response s',
    Executes system (finishRegistration platform request) accounts trace (.ok response) s' ∧
      ∃ userID deviceID sessionID, Registered s' request.identityKey userID deviceID sessionID := by
  let run := acceptedRun.get acceptedRun_isSome
  have accepted : run.2.1.isOk := by rfl
  have executes : Executes system (finishRegistration platform request) accounts run.1 run.2.1
      run.2.2 := Executes.of_play _ (Option.some_get acceptedRun_isSome).symm
  cases answer : run.2.1 with
  | error => simp [answer, Except.isOk, Except.toBool] at accepted
  | ok response =>
    rw [answer] at executes
    exact ⟨run.1, response, run.2.2, executes,
      (registration_atomic_iff accounts_referential executes).2 response rfl⟩

end GenChat.Auth.Passkeys
