import GenChat.Auth.KeyOwnership
import GenChat.Auth.Push
import GenChat.Library.Concurrent

/-!
# Who changes the push tokens of a device

Requests to the push service run one statement at a time, in any order. The service never asks whose
device a request names. As long as the statements that take effect name devices of their callers,
the rows of a device change only by its owner, and a user's tokens are those that he registered for
his own devices.
-/
namespace GenChat.Auth
open Library
open Ledger (Bytes Table)

inductive PushRequest where
  | grpcRegisterPushToken (token : Option Token) (req : RegisterPushTokenRequest)
  | grpcUnregisterPushToken (token : Option Token) (deviceId : String)
  | grpcGetPushTokens (token : Option Token) (userId : String)
  | httpRegisterPushToken (req : HttpRequest RegisterPushTokenBody)
  | httpUnregisterPushToken (req : HttpRequest DeviceQuery)
  | httpGetPushTokens (req : HttpRequest UserQuery)

namespace PushRequest
variable (S : Platform)

/-- Run a handler that returns no tokens. -/
def silent {ε : Type} (p : Proc (Except ε Unit)) : Proc (Option (List PushTokenRecord)) :=
  p.bind fun _ => pure none

/-- Run a handler for the tokens that it returns. -/
def tokens {ε : Type} (p : Proc (Except ε (List PushTokenRecord))) :
    Proc (Option (List PushTokenRecord)) :=
  p.bind fun r => match r with
    | .ok tokens => pure (some tokens)
    | .error _ => pure none

def handle : PushRequest → Proc (Option (List PushTokenRecord))
  | .grpcRegisterPushToken token req => silent <| unaryAuthInterceptor
    "/chat.v1.PushService/RegisterPushToken" token (registerPushToken S · req)
  | .grpcUnregisterPushToken token deviceId => silent <| unaryAuthInterceptor
    "/chat.v1.PushService/UnregisterPushToken" token fun _ => unregisterPushToken S deviceId
  | .grpcGetPushTokens token userId => tokens <| unaryAuthInterceptor
    "/chat.v1.PushService/GetPushTokens" token fun _ => getPushTokens S userId
  | .httpRegisterPushToken req => silent (Auth.httpRegisterPushToken S req)
  | .httpUnregisterPushToken req => silent (Auth.httpUnregisterPushToken S req)
  | .httpGetPushTokens req => tokens (Auth.httpGetPushTokens S req)

/-- The token that the request presents. -/
def token : PushRequest → Option Token
  | .grpcRegisterPushToken token _ | .grpcUnregisterPushToken token _
  | .grpcGetPushTokens token _ => token
  | .httpRegisterPushToken req => req.token
  | .httpUnregisterPushToken req => req.token
  | .httpGetPushTokens req => req.token

/-- The request comes from the user. -/
def From (req : PushRequest) (u : UUID) : Prop :=
  ∃ token ∈ req.token, token.signed ∧ S.parseUUID token.payload.sub = some u

/-- The user whose tokens the request asks for. -/
def asks : PushRequest → Option UUID
  | .grpcGetPushTokens _ userId => S.parseUUID userId
  | .httpGetPushTokens req => S.parseUUID (orElse req.body.userId req.body.user_id)
  | _ => none

end PushRequest

/-- Any number of requests at a time, from a database without push tokens. -/
abbrev pushService (S : Platform) :
    Service Op Ret (Option (List PushTokenRecord)) PushRequest Change where
  system := system
  init s := s.db.pushTokens = ∅
  env := Server.change
  body req := req.handle S

/-! ## What a request may issue -/

/-- The operations of a request: a row that it writes has the user of its token, a query is for the
user that it asks for. -/
def Op.PushedBy (S : Platform) (req : PushRequest) : Op → Prop
  | .registerPushToken _ row => ∀ u, req.From S u → row.userID = u
  | .getPushTokensForUser v => req.asks S = some v
  | .now | .allow | .unregisterPushToken _ => True
  | _ => False

/-- A query answers with rows that are `found` for its user. -/
def Op.Finds (found : UUID → UUID → PushToken → Prop) : (op : Op) → Ret op → Prop
  | .getPushTokensForUser v, r => ∀ rows, r = .ok rows → ∀ e ∈ rows, found v e.1 e.2
  | _, _ => True

/-- A request returns tokens that are `found` for the user that it asks for. -/
def PushRequest.Returns (S : Platform) (req : PushRequest) (found : UUID → UUID → PushToken → Prop)
    (tokens : Option (List PushTokenRecord)) : Prop :=
  ∀ v, req.asks S = some v → ∀ records ∈ tokens, ∀ token ∈ records,
    ∃ d row, token = row.record d ∧ found v d row

section Footprints
variable {S : Platform} {req : PushRequest} {found : UUID → UUID → PushToken → Prop}
  {ok : (op : Op) → Ret op → Prop} {φ : Op → Prop}

theorem PushRequest.methods_guarded : ∀ method ∈ ["/chat.v1.PushService/RegisterPushToken",
    "/chat.v1.PushService/UnregisterPushToken"],
    isPublicMethod method = false ∧ isInternalServiceMethod method = false := by
  decide

theorem PushRequest.getPushTokens_internal :
    isPublicMethod "/chat.v1.PushService/GetPushTokens" = false ∧
      isInternalServiceMethod "/chat.v1.PushService/GetPushTokens" = true := by
  decide

theorem limited_allIf {α β : Type} {methods : List Method} {http : HttpRequest β}
    {handler : JWTPayload → Proc (HttpAnswer α)} (now : φ .now) (allow : φ .allow)
    (h : ∀ token ∈ http.token, token.signed → (handler token.payload).AllIf ok φ fun _ => True) :
    (limited methods http handler).AllIf ok φ fun _ => True := by
  unfold limited
  split
  · trivial
  · refine ⟨allow, fun allowed _ => ?_⟩
    cases allowed with
    | false => trivial
    | true => exact authenticated_allIf (fun _ => trivial) now h

theorem registerPushToken_allIf {ctx : Context} {request : RegisterPushTokenRequest}
    (caller : ∀ u, req.From S u → S.parseUUID ctx.userID = some u) :
    (registerPushToken S ctx request).AllIf ok (Op.PushedBy S req) fun _ => True := by
  unfold registerPushToken
  split
  · trivial
  · split
    · trivial
    · refine ⟨fun u own => ?_, fun saved _ => by cases saved <;> trivial⟩
      have parsed := caller u own
      have named : ctx.userID ≠ "" := by
        intro empty
        rw [empty, S.parseUUID_empty] at parsed
        cases parsed
      simp [contextUser, named, parsed]

theorem unregisterPushToken_allIf {deviceId : String} :
    (unregisterPushToken S deviceId).AllIf ok (Op.PushedBy S req) fun _ => True := by
  unfold unregisterPushToken
  split
  · trivial
  · split
    · trivial
    · exact ⟨trivial, fun deleted _ => by cases deleted <;> trivial⟩

theorem getPushTokens_allIf {userId : String} (asked : req.asks S = S.parseUUID userId) :
    (getPushTokens S userId).AllIf (Op.Finds found) (Op.PushedBy S req) fun answer =>
      ∀ v, req.asks S = some v → ∀ records, answer = .ok records → ∀ token ∈ records,
        ∃ d row, token = row.record d ∧ found v d row := by
  unfold getPushTokens
  split
  · exact fun _ _ _ failed => nomatch failed
  · split
    · exact fun _ _ _ failed => nomatch failed
    · rename_i v parsed
      refine ⟨asked.trans parsed, fun rows answer => ?_⟩
      cases rows with
      | error => exact fun _ _ _ failed => nomatch failed
      | ok rows =>
        intro v' asks records same token mem
        cases same
        obtain ⟨e, he, rfl⟩ := List.mem_map.mp mem
        have same : v' = v := Option.some.inj (asks.symm.trans (asked.trans parsed))
        exact ⟨e.1, e.2, rfl, same ▸ answer rows rfl e he⟩

theorem PushRequest.handle_allIf (req : PushRequest) :
    (req.handle S).AllIf (Op.Finds found) (Op.PushedBy S req) (req.Returns S found) := by
  have silent {ε : Type} {q : Proc (Except ε Unit)}
      (h : q.AllIf (Op.Finds found) (Op.PushedBy S req) fun _ => True) :
      (PushRequest.silent q).AllIf (Op.Finds found) (Op.PushedBy S req)
        (req.Returns S found) := h.bind fun _ _ => fun _ _ _ mem => nomatch mem
  have tokens {ε : Type} {q : Proc (Except ε (List PushTokenRecord))}
      (h : q.AllIf (Op.Finds found) (Op.PushedBy S req) fun answer =>
        ∀ v, req.asks S = some v → ∀ records, answer = .ok records → ∀ token ∈ records,
          ∃ d row, token = row.record d ∧ found v d row) :
      (PushRequest.tokens q).AllIf (Op.Finds found) (Op.PushedBy S req)
        (req.Returns S found) := by
    refine h.bind fun answer justified => ?_
    cases answer with
    | error => exact fun _ _ _ mem => nomatch mem
    | ok records =>
      intro v asks records' mem
      cases mem
      exact justified v asks records rfl
  cases req with
  | grpcRegisterPushToken token request =>
    refine silent ?_
    apply interceptor_allIf
    · exact PushRequest.methods_guarded "/chat.v1.PushService/RegisterPushToken" (by simp)
    · exact fun _ => trivial
    · trivial
    · intro token' bearer signed
      refine registerPushToken_allIf ?_
      rintro u ⟨_, bearer', -, caller⟩
      cases bearer.symm.trans bearer'
      exact caller
  | grpcUnregisterPushToken token deviceId =>
    refine silent ?_
    apply interceptor_allIf
    · exact PushRequest.methods_guarded "/chat.v1.PushService/UnregisterPushToken" (by simp)
    · exact fun _ => trivial
    · trivial
    · intro token' bearer signed
      exact unregisterPushToken_allIf
  | grpcGetPushTokens token userId =>
    refine tokens ?_
    apply internal_allIf
    · exact PushRequest.getPushTokens_internal
    · trivial
    · exact fun _ => getPushTokens_allIf rfl
  | httpRegisterPushToken http =>
    refine silent (limited_allIf trivial trivial fun token bearer signed => ?_)
    split
    · trivial
    · refine Prog.AllIf.bind (registerPushToken_allIf ?_) fun r _ => by cases r <;> trivial
      rintro u ⟨_, bearer', -, caller⟩
      cases bearer.symm.trans bearer'
      exact caller
  | httpUnregisterPushToken http =>
    refine silent (limited_allIf trivial trivial fun token bearer signed => ?_)
    split
    · trivial
    · exact Prog.AllIf.bind unregisterPushToken_allIf fun r _ => by cases r <;> trivial
  | httpGetPushTokens http =>
    refine tokens ?_
    refine authenticated_allIf (fun _ _ _ _ failed => nomatch failed) trivial fun _ _ _ => ?_
    dsimp only
    split
    · exact fun _ _ _ failed => nomatch failed
    · split
      · exact fun _ _ _ failed => nomatch failed
      · refine Prog.AllIf.bind (getPushTokens_allIf rfl) fun answer justified => ?_
        cases answer with
        | error => exact fun _ _ _ failed => nomatch failed
        | ok records =>
          intro v asks records' same
          cases same
          exact justified v asks records rfl

theorem PushRequest.handle_all (req : PushRequest) : (req.handle S).All (Op.PushedBy S req) := by
  have all : (req.handle S).AllIf (Op.Finds fun _ _ _ => True) (Op.PushedBy S req)
      (req.Returns S fun _ _ _ => True) := req.handle_allIf
  refine Prog.all_iff_allIf.mpr (all.mono (fun op r _ => ?_) (fun _ h => h) fun _ _ => trivial)
  cases op <;> simp [Op.Finds]

end Footprints

/-! ## Runs -/

/-- A statement that writes push tokens has no effect, or names a device of one of the callers. -/
def Op.NamesOwn (s : Server) (callers : UUID → Prop) (op : Op) (c : Choice) : Prop :=
  match op with
  | .registerPushToken d row => c = .fail ∨ s.db.upsertPushToken d row = none ∨
    ∃ u, callers u ∧ s.db.owner d = some u
  | .unregisterPushToken d => c = .fail ∨ d ∉ s.db.pushTokens ∨
    ∃ u, callers u ∧ s.db.owner d = some u
  | _ => True

section Runs
variable {S : Platform} {p q : Pool (pushService S)} {l : PoolLabel (pushService S)}

/-- Requests write for devices of their callers. -/
def NamesOwn (p : Pool (pushService S)) : PoolLabel (pushService S) → Prop
  | .run i c => ∀ x ∈ p.next i, x.2.NamesOwn p.shared (x.1.From S) c
  | _ => True

instance (callers : UUID → Prop) [DecidablePred callers] (owner : Option UUID) :
    Decidable (∃ u, callers u ∧ owner = some u) :=
  decidable_of_iff (∃ u ∈ owner, callers u) (by simp [and_comm])

instance (s : Server) (callers : UUID → Prop) [DecidablePred callers] (op : Op) (c : Choice) :
    Decidable (op.NamesOwn s callers c) :=
  match op with
  | .registerPushToken _ _ | .unregisterPushToken _ => inferInstanceAs (Decidable (_ ∨ _ ∨ _))
  | .now | .newUUID | .allow | .begin | .createChannel .. | .getChannelMembers ..
  | .joinChannel .. | .leaveChannel .. | .isChannelMember .. | .saveMlsWelcome ..
  | .getMlsWelcome .. | .saveMlsCommit .. | .getDeviceByID .. | .getDevicesByUser ..
  | .updateDeviceIdentityKey .. | .uploadPreKeyBundle .. | .uploadOneTimeKeys ..
  | .getRemainingOneTimeKeyCount .. | .selectIdentityKey .. | .selectPreKeys ..
  | .takeOneTimeKey .. | .commit .. | .rollback .. | .saveMlsKeyPackage ..
  | .getActiveMlsKeyPackage .. | .getPushTokensForUser .. | .createAuthSession ..
  | .getAuthSession .. | .revokeAuthSession .. => instDecidableTrue

instance (req : PushRequest) : DecidablePred (req.From S) := fun u =>
  inferInstanceAs (Decidable (∃ token ∈ req.token, token.signed ∧
    S.parseUUID token.payload.sub = some u))

instance : ∀ (p : Pool (pushService S)) l, Decidable (NamesOwn p l)
  | p, .run i c => inferInstanceAs (Decidable (∀ x ∈ p.next i,
    x.2.NamesOwn p.shared (x.1.From S) c))
  | _, .spawn _ => instDecidableTrue
  | _, .env _ => instDecidableTrue

/-- The row was registered by a request of the user, for a device of the user. -/
def RegisteredBy (p : Pool (pushService S)) (v d : UUID) (row : PushToken) : Prop :=
  p.shared.db.owner d = some v ∧
    ∃ req, (req, .registerPushToken d row) ∈ p.log ∧ req.From S v

/-- What a statement does to the rows, when it names a device of its caller. -/
theorem pushTokens_exec {s s' : Server} {op : Op} {c : Choice} {r : Ret op} {callers : UUID → Prop}
    (h : s.exec op c = some (r, s')) (own : op.NamesOwn s callers c) :
    s'.db.pushTokens = s.db.pushTokens ∨ ∃ d u, callers u ∧ s.db.owner d = some u ∧
      (s'.db.pushTokens = s.db.pushTokens.erase d ∨ ∃ row, op = .registerPushToken d row ∧
        s.db.upsertPushToken d row = some s'.db) := by
  rcases Server.exec_db h with same | ⟨effect, hc⟩
  · exact .inl (by rw [same])
  · cases op with
    | registerPushToken d row =>
      rcases own with failed | broken | ⟨u, caller, owner⟩
      · exact absurd failed hc
      · exact absurd effect (by simp [Server.effect, broken])
      · exact .inr ⟨d, u, caller, owner, .inr ⟨row, rfl, effect⟩⟩
    | unregisterPushToken d =>
      have erased : s'.db.pushTokens = s.db.pushTokens.erase d := by
        rw [← Option.some.inj effect]
        rfl
      rcases own with failed | absent | ⟨u, caller, owner⟩
      · exact absurd failed hc
      · exact .inl (erased.trans (AList.ext (List.kerase_of_notMem_keys absent)))
      · exact .inr ⟨d, u, caller, owner, .inl erased⟩
    | _ =>
      have same : s.db.Same .push s'.db := Server.effect_same effect (by simp [Op.part])
      exact .inl same

/-- A device of a step's caller is the only one whose row the step may change. -/
theorem pushTokens_step (hok : NamesOwn p l) (h : Pool.step p l = some q) :
    q.shared.db.pushTokens = p.shared.db.pushTokens ∨ ∃ i c req op d u, l = .run i c ∧
      p.next i = some (req, op) ∧ q.log = p.log ++ [(req, op)] ∧ req.From S u ∧
      p.shared.db.owner d = some u ∧
      (q.shared.db.pushTokens = p.shared.db.pushTokens.erase d ∨
        ∃ row, op = .registerPushToken d row ∧
          p.shared.db.upsertPushToken d row = some q.shared.db) := by
  cases l with
  | spawn req =>
    cases h
    exact .inl rfl
  | env e =>
    obtain ⟨s, hs, rfl⟩ := Pool.env_cases h
    refine .inl ?_
    cases e with
    | addDevice =>
      obtain ⟨-, hs⟩ := Option.ite_none_right_eq_some.mp hs
      cases hs
      rfl
    | _ =>
      cases hs
      rfl
  | run i c =>
    obtain ⟨req, op, k, r, s, thread, hr, rfl⟩ := Pool.run_cases h
    refine (pushTokens_exec hr (hok _ (Pool.next_call thread))).imp id ?_
    rintro ⟨d, u, caller, owner, change⟩
    exact ⟨i, c, req, op, d, u, rfl, Pool.next_call thread, rfl, caller, owner, change⟩

/-- The log grows, and a device keeps its owner. -/
theorem grows_step (h : Pool.step p l = some q) :
    p.log <+: q.log ∧ ∀ d u, p.shared.db.owner d = some u → q.shared.db.owner d = some u := by
  cases l with
  | spawn req =>
    cases h
    exact ⟨List.prefix_rfl, fun _ _ => id⟩
  | run i c =>
    obtain ⟨req, op, k, r, s, thread, hr, rfl⟩ := Pool.run_cases h
    exact ⟨List.prefix_append _ _, fun d u owner => (exec_owner hr d).trans owner⟩
  | env e =>
    obtain ⟨s, hs, rfl⟩ := Pool.env_cases h
    refine ⟨List.prefix_rfl, fun d u owner => ?_⟩
    cases e with
    | addDevice id device =>
      obtain ⟨⟨fresh, -⟩, hs⟩ := Option.ite_none_right_eq_some.mp hs
      cases hs
      have other : d ≠ id := by
        rintro rfl
        simp [Database.owner, AList.lookup_eq_none.mpr fresh] at owner
      simpa [Database.owner, AList.lookup_insert_ne other] using owner
    | _ =>
      cases hs
      exact owner

theorem RegisteredBy.grows {v d : UUID} {row : PushToken} (grown : p.log <+: q.log)
    (owners : ∀ d u, p.shared.db.owner d = some u → q.shared.db.owner d = some u)
    (h : RegisteredBy p v d row) : RegisteredBy q v d row := by
  obtain ⟨owner, req, mem, caller⟩ := h
  exact ⟨owners d v owner, req, grown.subset mem, caller⟩

/-- The rows were registered by the users whose they are. -/
def Sound (p : Pool (pushService S)) : Prop :=
  ∀ d row, p.shared.db.pushTokens.lookup d = some row → RegisteredBy p row.userID d row

/-- What a registration writes under the name of the owner that it finds. -/
theorem upsertPushToken_lookup {db db' : Database} {d : UUID} {row : PushToken}
    (h : db.upsertPushToken d row = some db')
    (named : ∀ old, db.pushTokens.lookup d = some old → old.userID = row.userID) (d' : UUID) :
    db'.pushTokens.lookup d' = if d' = d then some row else db.pushTokens.lookup d' := by
  obtain ⟨-, h⟩ := Option.ite_none_right_eq_some.mp h
  cases h
  by_cases here : d' = d
  · subst here
    cases found : db.pushTokens.lookup d' with
    | none => simp
    | some old => simp [named old found]
  · simp [here, AList.lookup_insert_ne here]

theorem Sound.of_reach (hp : (Pool.machine (pushService S)).Reach NamesOwn p) : Sound p := by
  induction hp with
  | start hs =>
    obtain ⟨s, hs, rfl⟩ := hs
    have empty : s.db.pushTokens = ∅ := hs
    intro d row found
    simp [Pool.start, empty] at found
  | @step p q l hp hok h ih =>
    obtain ⟨grown, owners⟩ := grows_step h
    intro d row found
    rcases pushTokens_step hok h with same | ⟨i, c, req, op, d', u, rfl, next, log, caller, owner,
      change⟩
    · rw [same] at found
      exact (ih d row found).grows grown owners
    · rcases change with erased | ⟨row', rfl, saved⟩
      · rw [erased] at found
        by_cases here : d = d'
        · subst here
          simp at found
        · rw [AList.lookup_erase_ne here] at found
          exact (ih d row found).grows grown owners
      · have own : row'.userID = u := by
          have issued := Pool.log_all (fun req => Op.PushedBy S req)
            (fun _ req _ => req.handle_all) (hp.step hok h)
          exact issued (req, .registerPushToken d' row') (by simp [log]) u caller
        have named (old : PushToken) (found : p.shared.db.pushTokens.lookup d' = some old) :
            old.userID = row'.userID := by
          have stored := (ih d' old found).1
          rw [owner] at stored
          exact (Option.some.inj stored).symm.trans own.symm
        rw [upsertPushToken_lookup saved named] at found
        split at found
        · rename_i here
          cases found
          subst here own
          exact ⟨owners d _ owner, req, by simp [log], caller⟩
        · exact (ih d row found).grows grown owners

/-- A step of a request leaves the rows of other users' devices alone; and what requests have
returned by then are tokens that their user registered for his own devices. -/
structure OwnerOnly (p : Pool (pushService S)) (l : PoolLabel (pushService S))
    (q : Pool (pushService S)) : Prop where
  kept : ∀ i c req op d, l = .run i c → p.next i = some (req, op) →
    (∀ u, req.From S u → p.shared.db.owner d ≠ some u) →
    q.shared.db.pushTokens.lookup d = p.shared.db.pushTokens.lookup d
  returned : ∀ x ∈ q.threads, ∀ tokens, x.2 = .pure tokens →
    x.1.Returns S (RegisteredBy q) tokens

/-- What grows in a step grows in a run. -/
theorem RegisteredBy.later {v d : UUID} {row : PushToken}
    (hq : ((Pool.machine (pushService S)).resume p).Reach NamesOwn q)
    (h : RegisteredBy p v d row) : RegisteredBy q v d row := by
  induction hq with
  | start same => exact same ▸ h
  | step _ _ step ih =>
    obtain ⟨grown, owners⟩ := grows_step step
    exact ih.grows grown owners

theorem returned_registered (hp : (Pool.machine (pushService S)).Reach NamesOwn p) :
    ∀ x ∈ p.threads, ∀ tokens, x.2 = .pure tokens → x.1.Returns S (RegisteredBy p) tokens := by
  have programs := Pool.threads_allIf (fun req => Op.PushedBy S req)
    (fun q => Op.Finds (RegisteredBy q)) (fun req q => req.Returns S (RegisteredBy q))
    (fun _ req _ _ => req.handle_allIf) ?_ hp
  · intro x hx tokens finished
    have program := programs x hx p (.start rfl)
    rw [finished] at program
    exact program
  · intro p i c req op r s p' q hp hok next hr step later
    cases op with
    | getPushTokensForUser v =>
      rintro rows rfl e he
      obtain ⟨rfl, ⟨-, answer⟩ | ⟨-, failed⟩⟩ := Server.query_eq_some.mp hr
      · cases answer
        obtain ⟨entry, mem, rfl⟩ := List.mem_map.mp he
        obtain ⟨mem, own⟩ := List.mem_filter.mp mem
        have stored := Sound.of_reach hp entry.1 entry.2 (AList.mem_lookup_iff.mpr mem)
        obtain ⟨grown, owners⟩ := grows_step step
        have here := (stored.grows grown owners).later later
        rwa [of_decide_eq_true own] at here
      · cases failed
    | _ => trivial

/-- In a run all of whose statements name devices of their callers, the push tokens of a device
change by its owner only, and requests return tokens of the user that they ask for only. -/
theorem pushTokens_ownerOnly (hp : (Pool.machine (pushService S)).Reach NamesOwn p)
    (hok : NamesOwn p l) (h : Pool.step p l = some q) : OwnerOnly p l q where
  kept i c req op d same next foreign := by
    rcases pushTokens_step hok h with same' | ⟨_, _, req', op', d', u, same', next', -, caller,
      owner, change⟩
    · rw [same']
    · cases same.symm.trans same'
      cases next.symm.trans next'
      have other : d ≠ d' := by
        rintro rfl
        exact foreign u caller owner
      rcases change with erased | ⟨row, -, saved⟩
      · rw [erased, AList.lookup_erase_ne other]
      · obtain ⟨-, saved⟩ := Option.ite_none_right_eq_some.mp saved
        rw [← Option.some.inj saved]
        exact AList.lookup_insert_ne other
  returned := returned_registered (hp.step hok h)

end Runs

/-! ## Bob and Alice's phone -/

namespace Sample

/-- A token for messages to a phone. -/
def fcm (deviceId token : String) : RegisterPushTokenRequest :=
  ⟨deviceId, .fcm, token, "", none, none⟩

/-- Alice registers a token for her phone, and the gateway asks for her tokens. -/
def aliceRegisters : List (PoolLabel (pushService platform)) :=
  [.spawn (.grpcRegisterPushToken (some aliceToken) (fcm alicePhone.text "a")), .run 0 .ok,
    .run 0 .ok, .spawn (.grpcGetPushTokens none alice.text)]

/-- Bob is about to register a token for Alice's phone. -/
def bobRegisters : List (PoolLabel (pushService platform)) :=
  [.spawn (.httpRegisterPushToken ⟨.post, some bobToken,
      ⟨alicePhone.text, "", 2, "b", "", "", ""⟩, true⟩), .run 2 (.answer true), .run 2 .ok]

abbrev pushes : Machine (Pool (pushService platform)) (PoolLabel (pushService platform)) :=
  Pool.machine (pushService platform)

def noTokens : Pool (pushService platform) := Pool.start _ twoPhones

theorem noTokens_reach : pushes.Reach NamesOwn noTokens := .start ⟨twoPhones, rfl, rfl⟩

theorem aliceRegisters_isSome :
    (pushes.follow NamesOwn noTokens aliceRegisters).isSome := by
  rfl

def aliceRegistered : Pool (pushService platform) :=
  (pushes.follow NamesOwn noTokens aliceRegisters).get aliceRegisters_isSome

theorem aliceRegistered_reach : pushes.Reach NamesOwn aliceRegistered :=
  noTokens_reach.follow (Option.some_get aliceRegisters_isSome).symm

/-- The gateway is answered, and Bob can register instead. -/
theorem aliceRegistered_continues : (Pool.step aliceRegistered (.run 1 .ok)).isSome ∧
    NamesOwn aliceRegistered (.run 1 .ok) ∧
    (pushes.follow (fun _ _ => True) aliceRegistered bobRegisters).isSome := by
  decide

theorem answered_isSome : (Pool.step aliceRegistered (.run 1 .ok)).isSome :=
  aliceRegistered_continues.1

def answered : Pool (pushService platform) :=
  (Pool.step aliceRegistered (.run 1 .ok)).get answered_isSome

theorem pushTokens_ownerOnly_sample : OwnerOnly aliceRegistered (.run 1 .ok) answered :=
  pushTokens_ownerOnly aliceRegistered_reach aliceRegistered_continues.2.1
    (Option.some_get answered_isSome).symm

/-! Bob's token takes the place of Alice's. -/

theorem bobRegisters_isSome :
    (pushes.follow (fun _ _ => True) aliceRegistered bobRegisters).isSome :=
  aliceRegistered_continues.2.2

def beforeBob : Pool (pushService platform) :=
  (pushes.follow (fun _ _ => True) aliceRegistered bobRegisters).get bobRegisters_isSome

theorem beforeBob_continues : ((Pool.step beforeBob (.run 2 .ok)).bind
    fun p => Pool.step p (.run 1 .ok)).isSome := by
  rfl

theorem afterBob_isSome : (Pool.step beforeBob (.run 2 .ok)).isSome :=
  Option.isSome_of_isSome_bind beforeBob_continues

def replaced : Pool (pushService platform) :=
  (Pool.step beforeBob (.run 2 .ok)).get afterBob_isSome

theorem misled_isSome : (Pool.step replaced (.run 1 .ok)).isSome :=
  Option.isSome_apply_of_isSome_bind beforeBob_continues

def misled : Pool (pushService platform) := (Pool.step replaced (.run 1 .ok)).get misled_isSome

theorem from_bob {req : PushRequest} {u : UUID} (bearer : req.token = some bobToken)
    (caller : req.From platform u) : u = bob := by
  obtain ⟨token, own, -, parsed⟩ := caller
  cases bearer.symm.trans own
  have named : platform.parseUUID bobToken.payload.sub = some bob := by decide
  exact Option.some.inj (parsed.symm.trans named)

/-- The row that Bob writes. -/
def bobRow : PushToken := ⟨bob, "fcm", "b", "", some [], some []⟩

/-- The token that an operation registers. -/
def registers : Op → Option String
  | .registerPushToken _ row => some row.token
  | _ => none

/-- Bob's token replaces Alice's for her phone, and is then returned as a token of hers. -/
theorem pushToken_replaced : ∃ p q r, pushes.Reachable p ∧ Pool.step p (.run 2 .ok) = some q ∧
    Pool.step q (.run 1 .ok) = some r ∧
    (p.shared.db.pushTokens.lookup alicePhone).map PushToken.token = some "a" ∧
    (q.shared.db.pushTokens.lookup alicePhone).map PushToken.token = some "b" ∧
    ¬ OwnerOnly p (.run 2 .ok) q ∧ ¬ OwnerOnly q (.run 1 .ok) r := by
  have before : (beforeBob.shared.db.pushTokens.lookup alicePhone).map PushToken.token =
    some "a" := by rfl
  have after : (replaced.shared.db.pushTokens.lookup alicePhone).map PushToken.token =
    some "b" := by rfl
  refine ⟨beforeBob, replaced, misled, ?_, (Option.some_get afterBob_isSome).symm,
    (Option.some_get misled_isSome).symm, before, after, ?_, ?_⟩
  · exact aliceRegistered_reach.reachable.follow (Option.some_get bobRegisters_isSome).symm
  · intro only
    obtain ⟨⟨req, op⟩, next⟩ := Option.isSome_iff_exists.mp
      (by rfl : (beforeBob.next 2).isSome)
    have bearer : (beforeBob.next 2).map (·.1.token) = some (some bobToken) := by rfl
    have owner : beforeBob.shared.db.owner alicePhone = some alice := by rfl
    rw [next] at bearer
    have kept := only.kept 2 .ok req op alicePhone rfl next fun u caller => by
      rw [owner, from_bob (Option.some.inj bearer) caller]
      decide
    rw [kept, before] at after
    exact absurd after (by decide)
  · intro only
    have finished : (misled.threads[1]?).map (fun x => (x.1.asks platform, x.2.result)) =
        some (some alice, some (some [bobRow.record alicePhone])) := by rfl
    obtain ⟨x, thread, same⟩ := Option.map_eq_some_iff.mp finished
    obtain ⟨d, row, shown, -, req, mem, caller⟩ := only.returned x (List.mem_of_getElem? thread)
      _ (Prog.result_eq_some.mp (congrArg Prod.snd same)) alice (congrArg Prod.fst same) _ rfl _
      (List.mem_singleton.mpr rfl)
    have hers : ∀ x ∈ misled.log, x.1.From platform alice → ∀ token ∈ registers x.2,
        token = "a" := by
      decide
    have token : row.token = "a" := hers _ mem caller row.token rfl
    have shown : "b" = row.token := congrArg PushTokenRecord.token shown
    rw [token] at shown
    exact absurd shown (by decide)

end Sample
end GenChat.Auth
