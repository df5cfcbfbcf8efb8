import GenChat.Auth.DeviceLinking

/-!
# The order of a device linking

Each handler looks the session up, checks its status and then updates it in another statement that
checks the status no more. A session is approved once and completed once exactly as long as the
updates that take effect find it in the status that was checked; otherwise a bundle is replaced
after its approval, or released twice.
-/
namespace GenChat.Auth.Linking
open Library
open Ledger (Bytes Table)

/-! ## Later rows -/

/-- The place of a status in the order of a linking. -/
def LinkStatus.rank : LinkStatus → Nat
  | .pending => 0
  | .approved => 1
  | .consumed => 2

/-- What becomes of a row. -/
structure Later (a b : DeviceLinkingSession) : Prop where
  owner : b.primaryUserID = a.primaryUserID ∧ b.primaryDeviceID = a.primaryDeviceID ∧
    b.ephemeralPubkey = a.ephemeralPubkey
  code : b.authCodeHash = a.authCodeHash
  expiry : b.expiresAt = a.expiresAt
  status : a.status.rank ≤ b.status.rank
  bundle : a.status ≠ .pending →
    b.encryptedBundle = a.encryptedBundle ∧ b.newDeviceID = a.newDeviceID

variable {a b c : DeviceLinkingSession}

theorem Later.refl (a : DeviceLinkingSession) : Later a a :=
  ⟨⟨rfl, rfl, rfl⟩, rfl, rfl, le_rfl, fun _ => ⟨rfl, rfl⟩⟩

theorem rank_pos {status : LinkStatus} : status ≠ .pending ↔ 0 < status.rank := by
  cases status <;> decide

theorem rank_two {status : LinkStatus} : status = .consumed ↔ 2 ≤ status.rank := by
  cases status <;> decide

theorem Later.started (h : Later a b) (started : a.status ≠ .pending) : b.status ≠ .pending :=
  rank_pos.mpr ((rank_pos.mp started).trans_le h.status)

theorem Later.consumed (h : Later a b) (consumed : a.status = .consumed) : b.status = .consumed :=
  rank_two.mpr ((rank_two.mp consumed).trans h.status)

theorem Later.trans (h : Later a b) (h' : Later b c) : Later a c where
  owner := ⟨h'.owner.1.trans h.owner.1, h'.owner.2.1.trans h.owner.2.1,
    h'.owner.2.2.trans h.owner.2.2⟩
  code := h'.code.trans h.code
  expiry := h'.expiry.trans h.expiry
  status := h.status.trans h'.status
  bundle started :=
    have later := h'.bundle (h.started started)
    have now := h.bundle started
    ⟨later.1.trans now.1, later.2.trans now.2⟩

/-- One step of a linking: the status stays, or moves on to the next one. -/
structure Advances (a b : DeviceLinkingSession) : Prop extends Later a b where
  next : b.status = a.status ∨ a.status = .pending ∧ b.status = .approved ∨
    a.status = .approved ∧ b.status = .consumed

theorem Advances.refl (a : DeviceLinkingSession) : Advances a a := ⟨Later.refl a, .inl rfl⟩

/-! ## Updates in turn -/

/-- An approval finds the session pending and a completion finds it approved and in time, or the
statement has no effect. -/
def Op.InTurn (s : Links) (op : Op) (c : Choice) : Prop :=
  match op with
  | .approveDeviceLinkingSession id _ _ => c = .fail ∨
    (s.sessions.lookup id).all fun row => row.expiresAt ≤ s.clock ∨ row.status = .pending
  | .completeDeviceLinkingSession id => c = .fail ∨
    (s.sessions.lookup id).all fun row => row.status = .approved ∧ s.clock ≤ row.expiresAt
  | _ => True

instance (s : Links) (op : Op) (c : Choice) : Decidable (op.InTurn s c) := by
  cases op <;> first | exact instDecidableTrue | exact inferInstanceAs (Decidable (_ ∨ _))

/-- What an operation does to the sessions. -/
inductive Op.Moves (s : Links) (c : Choice) : Op → Table UUID DeviceLinkingSession → Prop where
  | keep {op} : Moves s c op s.sessions
  | create {id u d pubkey hash expires} : id ∉ s.sessions →
    Moves s c (.createDeviceLinkingSession id u d pubkey hash expires)
      (s.sessions.insert id ⟨u, d, pubkey, hash, [], none, .pending, expires⟩)
  | approve {id bundle device row} : c ≠ .fail → s.sessions.lookup id = some row →
    s.clock < row.expiresAt → Moves s c (.approveDeviceLinkingSession id bundle device)
      (s.sessions.insert id { row with
        encryptedBundle := bundle, newDeviceID := some device, status := .approved })
  | complete {id row} : c ≠ .fail → s.sessions.lookup id = some row →
    Moves s c (.completeDeviceLinkingSession id)
      (s.sessions.insert id { row with status := .consumed })

namespace Links
variable {s s' : Links} {op : Op} {ch : Choice} {r : Ret op}

theorem write_cases {sessions : Option (Table UUID DeviceLinkingSession)}
    {r : Except StoreError Unit} (h : s.write sessions ch = some (r, s')) :
    (s' = s ∧ r ≠ .ok ()) ∨ ∃ t, sessions = some t ∧ s' = { s with sessions := t } ∧
      ch ≠ .fail := by
  cases sessions with
  | none =>
    cases h
    exact .inl ⟨rfl, nofun⟩
  | some t => cases ch <;> cases h <;> simp

theorem exec_clock (h : s.exec op ch = some (r, s')) : s'.clock = s.clock := by
  cases op with
  | now | newUUID | allow | getDeviceLinkingSession => cases ch <;> cases h <;> rfl
  | createDeviceLinkingSession | approveDeviceLinkingSession | completeDeviceLinkingSession =>
    simp only [exec] at h
    rcases write_cases h with ⟨rfl, -⟩ | ⟨t, -, rfl, -⟩ <;> rfl

theorem exec_moves (h : s.exec op ch = some (r, s')) : op.Moves s ch s'.sessions := by
  cases op with
  | now | newUUID | allow | getDeviceLinkingSession => cases ch <;> cases h <;> exact .keep
  | createDeviceLinkingSession =>
    rcases write_cases h with ⟨rfl, -⟩ | ⟨t, inserted, rfl, -⟩
    · exact .keep
    · obtain ⟨fresh, inserted⟩ := Option.ite_none_left_eq_some.mp inserted
      cases inserted
      exact .create fresh
  | approveDeviceLinkingSession =>
    rcases write_cases h with ⟨rfl, -⟩ | ⟨t, updated, rfl, applied⟩
    · exact .keep
    · unfold approve at updated
      split at updated
      · rename_i row found
        obtain ⟨early, updated⟩ := Option.ite_none_right_eq_some.mp updated
        cases updated
        exact .approve applied found early
      · cases updated
  | completeDeviceLinkingSession id =>
    simp only [exec] at h
    rcases write_cases h with ⟨rfl, -⟩ | ⟨t, updated, rfl, applied⟩
    · exact .keep
    · cases updated
      cases found : s.sessions.lookup id with
      | none =>
        simp only [complete, found]
        exact .keep
      | some row =>
        simp only [complete, found]
        exact .complete applied found

end Links

/-- In turn, rows only advance. -/
theorem Op.Moves.advances {s : Links} {op : Op} {ch : Choice}
    {t : Table UUID DeviceLinkingSession} (h : op.Moves s ch t) (turn : op.InTurn s ch) {id : UUID}
    (found : s.sessions.lookup id = some a) : ∃ b, t.lookup id = some b ∧ Advances a b := by
  have other {id' : UUID} {row : DeviceLinkingSession} (ne : id ≠ id') :
      ∃ b, (s.sessions.insert id' row).lookup id = some b ∧ Advances a b :=
    ⟨a, (AList.lookup_insert_ne ne).trans found, .refl a⟩
  cases h with
  | keep => exact ⟨a, found, .refl a⟩
  | @create id' u d pubkey hash expires fresh =>
    refine other ?_
    rintro rfl
    exact fresh (AList.lookup_isSome.mp (by simp [found]))
  | @approve id' bundle device row applied here early =>
    by_cases same : id = id'
    · subst same
      cases found.symm.trans here
      have pending : a.status = .pending := by
        rcases turn with failed | turn
        · exact absurd failed applied
        · rw [found] at turn
          simpa [early.not_ge] using turn
      refine ⟨_, AList.lookup_insert _, ⟨⟨rfl, rfl, rfl⟩, rfl, rfl, ?_, ?_⟩, ?_⟩
      · rw [pending]
        exact Nat.zero_le _
      · exact fun started => absurd pending started
      · exact .inr (.inl ⟨pending, rfl⟩)
    · exact other same
  | @complete id' row applied here =>
    by_cases same : id = id'
    · subst same
      cases found.symm.trans here
      have approved : a.status = .approved := by
        rcases turn with failed | turn
        · exact absurd failed applied
        · rw [found] at turn
          exact (of_decide_eq_true turn).1
      refine ⟨_, AList.lookup_insert _, ⟨⟨rfl, rfl, rfl⟩, rfl, rfl, ?_, ?_⟩, ?_⟩
      · rw [approved]
        exact (by decide : LinkStatus.approved.rank ≤ LinkStatus.consumed.rank)
      · exact fun _ => ⟨rfl, rfl⟩
      · exact .inr (.inr ⟨approved, rfl⟩)
    · exact other same

/-! ## Contracts -/

section Contract
variable (S : Platform)

/-- Sessions last, and a completion is for a session whose code the request has presented. -/
def linkContract (req : Request) : Contract system where
  inv _ := True
  rely s s' := ∀ id a, s.sessions.lookup id = some a →
    ∃ b, s'.sessions.lookup id = some b ∧ Later a b
  rely_refl _ _ a found := ⟨a, found, .refl a⟩
  rely_trans h h' id a found :=
    have ⟨b, found', later⟩ := h id a found
    have ⟨c, found'', later'⟩ := h' id b found'
    ⟨c, found'', later.trans later'⟩
  admits s op c := op.InTurn s c
  req s op := ∀ id, op = .completeDeviceLinkingSession id → ∃ body, req = .complete body ∧
    S.parseUUID body.body.session_id = some id ∧ ∃ a, s.sessions.lookup id = some a ∧
      S.sha256 body.body.auth_code = a.authCodeHash

/-- An approval that succeeded is the one that is stored, and a bundle that was released is the
stored one, of a session that is consumed. -/
def Request.Answered (req : Request) (answer : HttpAnswer Response) (s : Links) : Prop :=
  match req, answer with
  | .approve body, .ok .approved => ∀ id, S.parseUUID body.body.session_id = some id →
    ∃ a, s.sessions.lookup id = some a ∧ a.status ≠ .pending ∧
      decodeSome body.body.encrypted_bundle = some a.encryptedBundle ∧
      S.parseUUID body.body.new_device_id = a.newDeviceID
  | .complete body, .ok (.completed bundle newDeviceID) =>
    ∀ id, S.parseUUID body.body.session_id = some id → ∃ a, s.sessions.lookup id = some a ∧
      a.status = .consumed ∧ bundle = Base64.encodeToString a.encryptedBundle ∧
      newDeviceID = a.newDeviceID ∧ S.sha256 body.body.auth_code = a.authCodeHash
  | _, _ => True

variable {S} {s : Links}

theorem approve_meets (body : HttpRequest ApproveBody) (s : Links) :
    Meets (linkContract S (.approve body)) ((Request.approve body).Answered S)
      (approve S body) s := by
  have refused (message : String) (code : Nat) (s : Links) :
      Meets (linkContract S (.approve body)) ((Request.approve body).Answered S)
        (refuse message code) s := Meets.pure fun _ _ _ => trivial
  unfold approve
  split
  · exact refused _ _ s
  split
  · exact refused _ _ s
  split
  · exact refused _ _ s
  rename_i sessionID named
  refine fun t _ _ => ⟨nofun, fun c found u _ _ => ?_⟩
  rcases found with err | _ | row
  · exact refused _ _ u
  · exact refused _ _ u
  dsimp only [Prog.pure_bind]
  split
  · exact refused _ _ u
  refine fun v _ _ => ⟨nofun, fun c now w _ _ => ?_⟩
  dsimp only [Prog.pure_bind]
  split
  · exact refused _ _ w
  split
  · exact refused _ _ w
  split
  · exact refused _ _ w
  rename_i bundle decoded
  split
  · exact refused _ _ w
  rename_i newDevID device
  refine fun x _ _ => ⟨nofun, fun c answer y _ hr => ?_⟩
  cases answer with
  | error err => exact refused _ _ y
  | ok =>
    refine Meets.pure fun z later _ id same => ?_
    cases named.symm.trans same
    -- The update reported success, so it took effect.
    obtain ⟨row, updated⟩ : ∃ row : DeviceLinkingSession,
        y.sessions.lookup sessionID = some { row with
          encryptedBundle := bundle, newDeviceID := some newDevID, status := .approved } := by
      rcases Links.write_cases hr with ⟨-, failed⟩ | ⟨t, updated, rfl, -⟩
      · exact absurd rfl failed
      · unfold Links.approve at updated
        split at updated
        · rename_i row _
          obtain ⟨-, updated⟩ := Option.ite_none_right_eq_some.mp updated
          cases updated
          exact ⟨row, AList.lookup_insert _⟩
        · cases updated
    obtain ⟨b, found, grown⟩ := later sessionID _ updated
    obtain ⟨kept, keptDevice⟩ := grown.bundle nofun
    exact ⟨b, found, grown.started nofun, by rw [decoded, kept], by rw [device, keptDevice]⟩

theorem complete_meets (body : HttpRequest CompleteBody) (s : Links) :
    Meets (linkContract S (.complete body)) ((Request.complete body).Answered S)
      (complete S body) s := by
  have refused (message : String) (code : Nat) (s : Links) :
      Meets (linkContract S (.complete body)) ((Request.complete body).Answered S)
        (refuse message code) s := Meets.pure fun _ _ _ => trivial
  unfold complete
  split
  · exact refused _ _ s
  split
  · exact refused _ _ s
  split
  · exact refused _ _ s
  rename_i sessionID named
  refine fun t _ _ => ⟨nofun, fun c found u _ hr => ?_⟩
  rcases found with err | _ | row
  · exact refused _ _ u
  · exact refused _ _ u
  have seen : u.sessions.lookup sessionID = some row := by
    cases c with
    | ok =>
      obtain ⟨found, rfl⟩ : t.sessions.lookup sessionID = some row ∧ t = u := by
        simpa [Links.exec] using hr
      exact found
    | _ => cases hr
  dsimp only [Prog.pure_bind]
  split
  · exact refused _ _ u
  rename_i approved
  have approved : row.status = .approved := not_not.mp approved
  refine fun v hv _ => ⟨nofun, fun c now w _ hr => ?_⟩
  have same : w = v := by cases c <;> cases hr; rfl
  dsimp only [Prog.pure_bind]
  split
  · exact refused _ _ w
  split
  · exact refused _ _ w
  rename_i code
  have code : S.sha256 body.body.auth_code = row.authCodeHash := not_not.mp code
  -- The row that was looked up is still there, with the bundle it had.
  refine fun x hx _ => ?_
  have since : (linkContract S (.complete body)).rely u x := by
    subst same
    exact (linkContract S (.complete body)).rely_trans hv hx
  obtain ⟨b, found, grown⟩ := since sessionID row seen
  refine ⟨fun id issued => ?_, fun c answer y _ hr => ?_⟩
  · cases issued
    exact ⟨body, rfl, named, b, found, code.trans grown.code.symm⟩
  cases answer with
  | error err => exact refused _ _ y
  | ok =>
    refine Meets.pure fun z later _ id same => ?_
    cases named.symm.trans same
    have updated : y.sessions.lookup sessionID = some { b with status := .consumed } := by
      simp only [Links.exec] at hr
      rcases Links.write_cases hr with ⟨-, failed⟩ | ⟨t, updated, rfl, -⟩
      · exact absurd rfl failed
      · cases updated
        simp [Links.complete, found]
    obtain ⟨d, found', grown'⟩ := later sessionID _ updated
    obtain ⟨kept, keptDevice⟩ := grown.bundle (by simp [approved])
    obtain ⟨kept', keptDevice'⟩ := grown'.bundle nofun
    refine ⟨d, found', grown'.consumed rfl, ?_, ?_, ?_⟩
    · rw [kept', kept]
    · rw [keptDevice', keptDevice]
    · rw [code, grown'.code, grown.code]

theorem initiate_all {φ : Op → Prop} (body : HttpRequest InitiateBody) (now : φ .now)
    (newUUID : φ .newUUID) (allow : ∀ u, φ (.allow u))
    (create : ∀ id u d pubkey hash expires,
      φ (.createDeviceLinkingSession id u d pubkey hash expires)) : (initiate S body).All φ := by
  unfold initiate
  split
  · trivial
  split
  · trivial
  refine ⟨now, fun time => ?_⟩
  dsimp only [Prog.pure_bind]
  split
  · trivial
  split
  · trivial
  split
  · trivial
  refine ⟨allow _, fun allowed => ?_⟩
  dsimp only [Prog.pure_bind]
  split
  · trivial
  split
  · trivial
  split
  · trivial
  split
  · trivial
  refine ⟨now, fun time => ⟨newUUID, fun id => ⟨create _ _ _ _ _ _, fun created => ?_⟩⟩⟩
  cases created <;> trivial

theorem status_all {φ : Op → Prop} (method : Method) (session_id : String)
    (get : ∀ id, φ (.getDeviceLinkingSession id)) : (status S method session_id).All φ := by
  unfold status
  split
  · trivial
  split
  · trivial
  refine ⟨get _, fun found => ?_⟩
  rcases found with err | _ | row <;> trivial

theorem handle_meets (req : Request) (s : Links) :
    Meets (linkContract S req) (req.Answered S) (req.handle S) s := by
  cases req with
  | initiate body =>
    refine (Meets.of_free (initiate_all body ?_ ?_ ?_ ?_)).mono fun _ _ _ => trivial
    · exact fun _ => nofun
    · exact fun _ => nofun
    · exact fun _ _ => nofun
    · exact fun _ _ _ _ _ _ _ => nofun
  | status method session_id =>
    refine (Meets.of_free (status_all method session_id ?_)).mono fun _ _ _ => trivial
    exact fun _ _ => nofun
  | approve body => exact approve_meets body s
  | complete body => exact complete_meets body s

end Contract

/-! ## Runs -/

section Runs
variable {S : Platform}

/-- Approvals and completions find the status that was checked. -/
def InTurn (p : Pool (service S)) : PoolLabel (service S) → Prop
  | .run i c => ∀ x ∈ p.next i, x.2.InTurn p.shared c
  | _ => True

instance : ∀ (p : Pool (service S)) l, Decidable (InTurn p l)
  | p, .run i c => inferInstanceAs (Decidable (∀ x ∈ p.next i, x.2.InTurn p.shared c))
  | _, .spawn _ => instDecidableTrue
  | _, .env _ => instDecidableTrue

theorem step_advances {p q : Pool (service S)} {l : PoolLabel (service S)} (turn : InTurn p l)
    (h : Pool.step p l = some q) {id : UUID} {a : DeviceLinkingSession}
    (found : p.shared.sessions.lookup id = some a) :
    ∃ b, q.shared.sessions.lookup id = some b ∧ Advances a b := by
  cases l with
  | spawn =>
    cases h
    exact ⟨a, found, .refl a⟩
  | env =>
    cases h
    exact ⟨a, found, .refl a⟩
  | run i c =>
    obtain ⟨req, op, k, r, s, thread, hr, rfl⟩ := Pool.run_cases h
    exact (Links.exec_moves hr).advances (turn _ (Pool.next_call thread)) found

variable (S) in
def linkProtocol : Pool.Protocol (service S) InTurn where
  contract := linkContract S
  inv _ := True
  rely := (linkContract S (.status .get "")).rely
  contract_inv _ := rfl
  contract_rely _ := rfl
  admitted p i c t op k turn thread := turn _ (Pool.next_call thread)
  init _ _ := trivial
  exec t s op c r s' _ _ turn hr := by
    refine ⟨trivial, fun id a found => ?_⟩
    obtain ⟨b, found', advances⟩ := (Links.exec_moves hr).advances turn found
    exact ⟨b, found', advances.toLater⟩
  env p e s' _ _ he := by
    cases he
    exact ⟨trivial, fun id a found => ⟨a, found, .refl a⟩⟩
  body p t _ _ := (handle_meets t p.shared).mono fun _ _ _ => trivial

/-! ## Races -/

/-- An approval of the session is reported as successful. -/
def approvedBy (id : UUID) : (op : Op) → Ret op → Prop
  | .approveDeviceLinkingSession id' _ _, r => id' = id ∧ r = .ok ()
  | _, _ => False

/-- A completion of the session is reported as successful. -/
def completedBy (id : UUID) : (op : Op) → Ret op → Prop
  | .completeDeviceLinkingSession id', r => id' = id ∧ r = .ok ()
  | _, _ => False

variable (S) in
/-- The request approved the session. -/
def Request.Approved (id : UUID) (req : Request) (answer : HttpAnswer Response) : Prop :=
  ∃ body, req = .approve body ∧ S.parseUUID body.body.session_id = some id ∧
    answer = .ok .approved

variable (S) in
/-- The request was given the bundle of the session. -/
def Request.Released (id : UUID) (req : Request) (answer : HttpAnswer Response) : Prop :=
  ∃ body bundle newDeviceID, req = .complete body ∧
    S.parseUUID body.body.session_id = some id ∧ answer = .ok (.completed bundle newDeviceID)

theorem approve_open (id : UUID) (req : Request) :
    Pool.Open (approvedBy id) (Request.Approved S id) req (req.handle S) := by
  cases req with
  | approve body =>
    have refused (message : String) (code : Nat) : Pool.Open (approvedBy id)
        (Request.Approved S id) (.approve body) (refuse message code) := by
      rintro ⟨-, -, -, ⟨⟩⟩
    change Pool.Open _ _ _ (approve S body)
    unfold approve
    split
    · exact refused _ _
    split
    · exact refused _ _
    split
    · exact refused _ _
    rename_i sessionID named
    refine ⟨trivial, fun found _ => ?_⟩
    rcases found with err | _ | row
    · exact refused _ _
    · exact refused _ _
    dsimp only [Prog.pure_bind]
    split
    · exact refused _ _
    refine ⟨trivial, fun now _ => ?_⟩
    dsimp only [Prog.pure_bind]
    split
    · exact refused _ _
    split
    · exact refused _ _
    split
    · exact refused _ _
    split
    · exact refused _ _
    refine ⟨trivial, fun answer lost => ?_⟩
    cases answer with
    | error err => exact refused _ _
    | ok =>
      rintro ⟨_, ⟨⟩, same, -⟩
      exact lost ⟨Option.some.inj (named.symm.trans same), rfl⟩
  | _ =>
    refine Pool.Open.of_failing _ _ (fun answer => ?_) _
    rintro ⟨_, ⟨⟩, -⟩

theorem complete_open (id : UUID) (req : Request) :
    Pool.Open (completedBy id) (Request.Released S id) req (req.handle S) := by
  cases req with
  | complete body =>
    have refused (message : String) (code : Nat) : Pool.Open (completedBy id)
        (Request.Released S id) (.complete body) (refuse message code) := by
      rintro ⟨-, -, -, -, -, ⟨⟩⟩
    change Pool.Open _ _ _ (complete S body)
    unfold complete
    split
    · exact refused _ _
    split
    · exact refused _ _
    split
    · exact refused _ _
    rename_i sessionID named
    refine ⟨trivial, fun found _ => ?_⟩
    rcases found with err | _ | row
    · exact refused _ _
    · exact refused _ _
    dsimp only [Prog.pure_bind]
    split
    · exact refused _ _
    refine ⟨trivial, fun now _ => ?_⟩
    dsimp only [Prog.pure_bind]
    split
    · exact refused _ _
    split
    · exact refused _ _
    refine ⟨trivial, fun answer lost => ?_⟩
    cases answer with
    | error err => exact refused _ _
    | ok =>
      rintro ⟨_, _, _, ⟨⟩, same, -⟩
      exact lost ⟨Option.some.inj (named.symm.trans same), rfl⟩
  | _ =>
    refine Pool.Open.of_failing _ _ (fun answer => ?_) _
    rintro ⟨_, _, _, ⟨⟩, -⟩

/-- The first approval of a session closes the race for it. -/
theorem approval_race (id : UUID) : Pool.Race (approvedBy id)
    (Request.Approved S id) (InTurn (S := S))
    (fun s => ∃ a, s.sessions.lookup id = some a ∧ a.status ≠ .pending) where
  body := approve_open id
  won p i c t op r s hp turn next hr win := by
    cases op with
    | approveDeviceLinkingSession id' bundle device =>
      obtain ⟨rfl, rfl⟩ := win
      rcases Links.write_cases hr with ⟨-, failed⟩ | ⟨_, updated, rfl, applied⟩
      · exact absurd rfl failed
      · unfold Links.approve at updated
        split at updated
        · rename_i row found
          obtain ⟨early, updated⟩ := Option.ite_none_right_eq_some.mp updated
          cases updated
          refine ⟨?_, _, AList.lookup_insert _, nofun⟩
          rintro ⟨a, found', started⟩
          cases found.symm.trans found'
          rcases turn _ next with failed | turn
          · exact applied failed
          · rw [found] at turn
            rcases of_decide_eq_true turn with late | pending
            · exact absurd early late.not_gt
            · exact started pending
        · cases updated
    | _ => exact win.elim
  kept p l q _ turn h := by
    rintro ⟨a, found, started⟩
    obtain ⟨b, found', advances⟩ := step_advances turn h found
    exact ⟨b, found', advances.toLater.started started⟩

/-- The first completion of a session closes the race for it. -/
theorem completion_race (id : UUID) : Pool.Race (completedBy id)
    (Request.Released S id) (InTurn (S := S))
    (fun s => ∃ a, s.sessions.lookup id = some a ∧ a.status = .consumed) where
  body := complete_open id
  won p i c t op r s hp turn next hr win := by
    cases op with
    | completeDeviceLinkingSession id' =>
      obtain ⟨rfl, rfl⟩ := win
      obtain ⟨k, thread⟩ := Pool.call_of_next next
      obtain ⟨-, -, -, row, found, -⟩ := Pool.safe_next (linkProtocol S) hp thread id' rfl
      change p.shared.write (some (p.shared.complete id')) c = _ at hr
      rcases Links.write_cases hr with ⟨-, failed⟩ | ⟨_, updated, rfl, applied⟩
      · exact absurd rfl failed
      · cases updated
        refine ⟨?_, { row with status := .consumed }, by simp [Links.complete, found], rfl⟩
        rintro ⟨a, found', consumed⟩
        cases found.symm.trans found'
        rcases turn _ next with failed | turn
        · exact applied failed
        · rw [found] at turn
          have approved := (of_decide_eq_true turn).1
          rw [consumed] at approved
          cases approved
    | _ => exact win.elim
  kept p l q _ turn h := by
    rintro ⟨a, found, consumed⟩
    obtain ⟨b, found', advances⟩ := step_advances turn h found
    exact ⟨b, found', advances.toLater.consumed consumed⟩

/-! ## One way -/

variable (S) in
/-- Who approved a session did so alone, and left the stored bundle. Who was given a bundle was
given the stored one, alone, with the code and after the session was approved. -/
structure OneWay (p : Pool (service S)) : Prop where
  approvedOnce : ∀ id (i j : Nat) (req req' : Request) a a',
    p.threads[i]? = some (req, Prog.pure a) → p.threads[j]? = some (req', Prog.pure a') →
    req.Approved S id a → req'.Approved S id a' → i = j
  releasedOnce : ∀ id (i j : Nat) (req req' : Request) a a',
    p.threads[i]? = some (req, Prog.pure a) → p.threads[j]? = some (req', Prog.pure a') →
    req.Released S id a → req'.Released S id a' → i = j
  answered : ∀ req a, (req, Prog.pure a) ∈ p.threads → req.Answered S a p.shared

/-- Sessions last and only advance, and a bundle is released in time to whoever has the code. -/
structure AdvancesBy (p : Pool (service S)) (l : PoolLabel (service S)) (q : Pool (service S)) :
    Prop where
  status : ∀ id a, p.shared.sessions.lookup id = some a →
    ∃ b, q.shared.sessions.lookup id = some b ∧ Advances a b
  release : ∀ i req id, l = .run i .ok → p.next i = some (req, .completeDeviceLinkingSession id) →
    ∃ body a, req = .complete body ∧ p.shared.sessions.lookup id = some a ∧
      a.status = .approved ∧ p.shared.clock ≤ a.expiresAt ∧
      S.sha256 body.body.auth_code = a.authCodeHash

/-- In a run whose updates are in turn, sessions go one way: they are approved once and completed
once. -/
theorem linking_one_way {p : Pool (service S)} (hp : (Pool.machine (service S)).Reach InTurn p) :
    OneWay S p ∧ ∀ l q, InTurn p l → Pool.step p l = some q → AdvancesBy p l q := by
  refine ⟨⟨?_, ?_, ?_⟩, fun l q turn h => ⟨fun id a => step_advances turn h, ?_⟩⟩
  · intro id i j req req' a a' hi hj
    exact (approval_race id).one_winner hp hi hj
  · intro id i j req req' a a' hi hj
    exact (completion_race id).one_winner hp hi hj
  · intro req a
    exact Pool.safe_returns (linkProtocol S) (Request.Answered S)
      (fun p t _ _ => handle_meets t p.shared) hp
  · rintro i req id rfl next
    obtain ⟨k, thread⟩ := Pool.call_of_next next
    obtain ⟨body, rfl, -, a, found, code⟩ := Pool.safe_next (linkProtocol S) hp thread id rfl
    rcases turn _ next with failed | turn
    · cases failed
    · rw [found] at turn
      obtain ⟨approved, early⟩ := of_decide_eq_true turn
      exact ⟨body, a, rfl, found, approved, early, code⟩

end Runs

/-! ## Two completions -/

section Samples
open Sample (alice alicePhone bobPhone channel aliceToken)

/-- The hash of a text is the bytes of the text. -/
def plainPlatform : Platform := ⟨Sample.platform.parseUUID, fun text => text.toUTF8.data.toList⟩

def initiation : Request := .initiate ⟨.post, some aliceToken, ⟨"AQID", "MTIz", 60⟩, true⟩

/-- Approvals with the code `123`, which is `MTIz` in base64. -/
def approval (bundle : String) : Request :=
  .approve ⟨.post, none, ⟨channel.text, bundle, bobPhone.text, "123"⟩, true⟩

def completion : Request := .complete ⟨.post, none, ⟨channel.text, "123"⟩, true⟩

abbrev linking : Machine (Pool (service plainPlatform)) (PoolLabel (service plainPlatform)) :=
  Pool.machine (service plainPlatform)

def noSessions : Pool (service plainPlatform) := Pool.start _ ⟨∅, Sample.clock⟩

theorem noSessions_reach {ok} : linking.Reach ok noSessions := .start ⟨_, rfl, rfl⟩

/-- Alice initiates a session. -/
def initiated : List (PoolLabel (service plainPlatform)) :=
  [.spawn initiation, .run 0 .ok, .run 0 (.answer true), .run 0 .ok, .run 0 (.uuid channel),
    .run 0 .ok]

/-- One device approves it and another completes it. -/
def linked : List (PoolLabel (service plainPlatform)) := initiated ++
  [.spawn (approval "BwcH"), .run 1 .ok, .run 1 .ok, .run 1 .ok,
    .spawn completion, .run 2 .ok, .run 2 .ok, .run 2 .ok]

/-- Two devices approve it at a time, and two more complete it at a time. -/
def linkedTwice : List (PoolLabel (service plainPlatform)) := initiated ++
  [.spawn (approval "BwcH"), .spawn (approval "CAgI"), .run 1 .ok, .run 1 .ok, .run 2 .ok,
    .run 2 .ok, .run 1 .ok, .run 2 .ok, .spawn completion, .spawn completion, .run 3 .ok,
    .run 3 .ok, .run 4 .ok, .run 4 .ok, .run 3 .ok, .run 4 .ok]

theorem linked_isSome : (linking.follow InTurn noSessions linked).isSome := by rfl

theorem linkedTwice_isSome : (linking.follow (fun _ _ => True) noSessions linkedTwice).isSome := by
  rfl

def linkedPool : Pool (service plainPlatform) :=
  (linking.follow InTurn noSessions linked).get linked_isSome

def linkedTwicePool : Pool (service plainPlatform) :=
  (linking.follow (fun _ _ => True) noSessions linkedTwice).get linkedTwice_isSome

theorem linkedPool_reach : linking.Reach InTurn linkedPool :=
  noSessions_reach.follow (Option.some_get linked_isSome).symm

theorem linking_one_way_sample : OneWay plainPlatform linkedPool :=
  (linking_one_way linkedPool_reach).1

/-- What the threads of a pool have returned. -/
def answers (p : Pool (service plainPlatform)) : List (Option (HttpAnswer Response)) :=
  p.threads.map fun t => t.2.result

/-- Both approvals succeed, the second replaces the bundle of the first, and it is released
twice. -/
theorem linked_twice : linking.Reachable linkedTwicePool ∧
    (answers linkedTwicePool).drop 1 = [some (.ok .approved), some (.ok .approved),
      some (.ok (.completed "CAgI" (some bobPhone))),
      some (.ok (.completed "CAgI" (some bobPhone)))] ∧
    ¬ OneWay plainPlatform linkedTwicePool := by
  have first : linkedTwicePool.threads[3]? =
      some (completion, Prog.pure (.ok (.completed "CAgI" (some bobPhone)))) := by rfl
  have second : linkedTwicePool.threads[4]? =
      some (completion, Prog.pure (.ok (.completed "CAgI" (some bobPhone)))) := by rfl
  have released : completion.Released plainPlatform channel
      (.ok (.completed "CAgI" (some bobPhone))) :=
    ⟨_, _, _, rfl, by rfl, rfl⟩
  refine ⟨noSessions_reach.follow (Option.some_get linkedTwice_isSome).symm, by rfl,
    fun oneWay => ?_⟩
  cases oneWay.releasedOnce channel 3 4 _ _ _ _ first second released released

end Samples

end GenChat.Auth.Linking
