import GenChat.Gateway.Router
import GenChat.Auth.CommitLog

/-!
# Group commits and the commit log

The gateway together with the channel service that it calls. The gateway attaches no token to its
calls, so the interceptor answers every `CommitEpoch` before the handler runs. What the gateway
fans out was persisted only if somebody else had saved it.
-/
namespace GenChat.CommitRelay
open Library
open Ledger (Bytes)

inductive Op where
  | gateway (op : Gateway.Op)
  | service (op : Auth.Op)
  /-- Whether a message between the two gets through. -/
  | delivered

abbrev Ret : Op → Type
  | .gateway op => Gateway.Ret op
  | .service op => Auth.Ret op
  | .delivered => Bool

inductive Choice where
  | gateway (c : Gateway.Choice)
  | service (c : Auth.Choice)
  | delivered (b : Bool)
  deriving DecidableEq

structure State where
  gateway : Gateway.Server
  service : Auth.Server

def exec (S : Gateway.Platform) (s : State) : (op : Op) → Choice → Option (Ret op × State)
  | .gateway op, c => match c with
    | .gateway c => (s.gateway.exec S op c).map fun r => (r.1, { s with gateway := r.2 })
    | _ => none
  | .service op, c => match c with
    | .service c => (s.service.exec op c).map fun r => (r.1, { s with service := r.2 })
    | _ => none
  | .delivered, c => match c with
    | .delivered b => some (b, s)
    | _ => none

abbrev Proc := Prog Op Ret

/-- A call whose request or answer may be lost. -/
def call {α : Type} (handler : Auth.Proc (Auth.Answer α)) :
    Proc (Except Gateway.StoreError α) := do
  if ← Prog.perform .delivered then
    let answer ← handler.implement fun op => Prog.perform (.service op)
    if ← Prog.perform .delivered then
      match answer with
      | .ok a => pure (.ok a)
      | .error _ => pure (.error .failed)
    else pure (.error .failed)
  else pure (.error .failed)

variable (A : Auth.Platform)

/-- The calls of the gateway to the channel service carry no token. -/
def remote : (op : Gateway.Op) → Proc (Gateway.Ret op)
  | .getChannelMembers channelID => do
    let members ← call (Auth.unaryAuthInterceptor "/chat.v1.ChannelService/GetChannelMembers" none
      fun _ => Auth.getChannelMembers A channelID)
    pure (members.map fun rows => rows.map fun row => row.1.text)
  | .commitEpoch channelID epoch commitData => do
    let saved ← call (Auth.unaryAuthInterceptor "/chat.v1.ChannelService/CommitEpoch" none
      fun ctx => Auth.commitEpoch A ctx ⟨channelID, UInt64.ofNat epoch.toNat, commitData⟩)
    pure (saved.map fun _ => ())
  | op => Prog.perform (Op.gateway op)

/-- What happens besides the frames: the other requests to the channel service change its members
and save commits. -/
inductive Change where
  | gateway (e : Gateway.Change)
  | service (e : Auth.Change)
  | join (channelID userID : Auth.UUID)
  | leave (channelID userID : Auth.UUID)
  | save (channelID senderID : Auth.UUID) (epoch : Nat) (commitData : Bytes)
  deriving DecidableEq

def State.withDb (s : State) (db : Auth.Database) : State :=
  { s with service := { s.service with db := db } }

def State.change (s : State) : Change → Option State
  | .gateway e => (s.gateway.change e).map fun g => { s with gateway := g }
  | .service e => (s.service.change e).map fun a => { s with service := a }
  | .join ch u => (s.service.db.joinChannel ch u).map s.withDb
  | .leave ch u => some (s.withDb (s.service.db.leaveChannel ch u))
  | .save ch u epoch data => (s.service.db.upsertCommit ch u epoch data).map s.withDb

/-- A frame of a user. -/
structure Inbound where
  conn : Gateway.Conn
  data : Bytes

/-- Any frames at a time, from any state. -/
abbrev relay (S : Gateway.Platform) (r : Gateway.Router) :
    Service Op Ret (Except Gateway.RelayError Unit) Inbound Change where
  system := ⟨State, Choice, exec S⟩
  init _ := True
  env := State.change
  body t := (r.Handle S t.conn t.data).implement (remote A)

/-! ## The log during a run -/

/-- The operation writes nothing to the channel service. -/
def Op.reads : Op → Prop
  | .service op => op.part = none
  | _ => True

variable {A}

theorem call_all {α : Type} {handler : Auth.Proc (Auth.Answer α)}
    (h : handler.All fun op => op.part = none) : (call handler).All Op.reads := by
  have served : (handler.implement fun op => Prog.perform (Op.service op) :
      Proc (Auth.Answer α)).All Op.reads := h.implement fun op reads => ⟨reads, fun _ => trivial⟩
  refine ⟨trivial, fun arrived => ?_⟩
  cases arrived with
  | false => trivial
  | true =>
    refine served.bind fun answer => ?_
    refine ⟨trivial, fun returned => ?_⟩
    cases returned <;> cases answer <;> trivial

/-- Without a token no call reaches the handler of `CommitEpoch`. -/
theorem commitEpoch_refused {α : Type} (handler : Auth.Context → Auth.Proc (Auth.Answer α)) :
    Auth.unaryAuthInterceptor "/chat.v1.ChannelService/CommitEpoch" none handler =
      .pure (.error ⟨.unauthenticated, "missing authorization token in gRPC metadata"⟩) := by
  have guarded : Auth.isPublicMethod "/chat.v1.ChannelService/CommitEpoch" = false := by
    rfl
  have external : Auth.isInternalServiceMethod "/chat.v1.ChannelService/CommitEpoch" = false := by
    rfl
  simp [Auth.unaryAuthInterceptor, guarded, external]

theorem getChannelMembers_all (channelID : String) :
    (Auth.getChannelMembers A channelID).All fun op => op.part = none := by
  unfold Auth.getChannelMembers
  split
  · trivial
  · split
    · trivial
    · exact ⟨rfl, fun members => by cases members <;> trivial⟩

theorem remote_all (op : Gateway.Op) : (remote A op).All Op.reads := by
  cases op with
  | getChannelMembers channelID =>
    refine (call_all ?_).bind fun _ => trivial
    have external :
        Auth.isInternalServiceMethod "/chat.v1.ChannelService/GetChannelMembers" = true := by
      rfl
    simp only [Auth.unaryAuthInterceptor, external, if_true, ite_self]
    exact getChannelMembers_all channelID
  | commitEpoch channelID epoch commitData =>
    refine (call_all ?_).bind fun _ => trivial
    rw [commitEpoch_refused]
    trivial
  | _ => exact ⟨trivial, fun _ => trivial⟩

theorem exec_commits {S : Gateway.Platform} {s s' : State} {op : Op} {c : Choice} {r : Ret op}
    (h : exec S s op c = some (r, s')) (reads : op.reads) :
    s'.service.db.commits = s.service.db.commits := by
  cases op with
  | gateway op =>
    cases c with
    | gateway c =>
      obtain ⟨_, -, h⟩ := Option.map_eq_some_iff.mp h
      cases h
      rfl
    | _ => cases h
  | service op =>
    cases c with
    | service c =>
      obtain ⟨_, hr, h⟩ := Option.map_eq_some_iff.mp h
      cases h
      rcases Auth.Server.exec_db hr with same | ⟨effect, -⟩
      · rw [same]
      · have other : op.part ≠ some .commits := by simp [show op.part = none from reads]
        exact Auth.Server.effect_same effect other
    | _ => cases h
  | delivered =>
    cases c <;> cases h
    rfl

/-- The log after the saves of others. -/
def Change.saved (rows : Ledger.Table (Auth.UUID × Nat) Auth.Commit) :
    Change → Ledger.Table (Auth.UUID × Nat) Auth.Commit
  | .save ch u epoch data => Auth.Database.commitRows rows ch u epoch data
  | _ => rows

theorem change_commits {s s' : State} {e : Change} (h : s.change e = some s') :
    s'.service.db.commits = e.saved s.service.db.commits := by
  cases e with
  | gateway e =>
    obtain ⟨_, -, rfl⟩ := Option.map_eq_some_iff.mp h
    rfl
  | service e =>
    obtain ⟨_, served, rfl⟩ := Option.map_eq_some_iff.mp h
    exact Auth.Server.change_commits served
  | join ch u =>
    obtain ⟨_, joined, rfl⟩ := Option.map_eq_some_iff.mp h
    obtain ⟨_, rfl⟩ := Auth.Database.joinChannel_shape joined
    rfl
  | leave ch u =>
    cases h
    obtain ⟨_, left⟩ := @Auth.Database.leaveChannel_shape s.service.db ch u
    simp [Change.saved, State.withDb, left]
  | save ch u epoch data =>
    obtain ⟨_, saved, rfl⟩ := Option.map_eq_some_iff.mp h
    obtain ⟨-, saved⟩ := Option.ite_none_right_eq_some.mp saved
    cases saved
    rfl

section Runs
variable {S : Gateway.Platform} {r : Gateway.Router}

/-- What others save during a run. -/
def othersSave (labels : List (PoolLabel (relay A S r)))
    (rows : Ledger.Table (Auth.UUID × Nat) Auth.Commit) :
    Ledger.Table (Auth.UUID × Nat) Auth.Commit :=
  labels.foldl (fun rows l => match l with
    | .env e => e.saved rows
    | _ => rows) rows

/-- The run of the labels. -/
abbrev runFrom (p : Pool (relay A S r)) (labels : List (PoolLabel (relay A S r))) :
    Option (Pool (relay A S r)) :=
  (Pool.machine (relay A S r)).follow (fun _ _ => True) p labels

/-- A thread of the gateway never writes to the channel service. -/
theorem reads_step {p q : Pool (relay A S r)} {l : PoolLabel (relay A S r)}
    (h : Pool.step p l = some q) (threads : ∀ x ∈ p.threads, x.2.All Op.reads) :
    (∀ x ∈ q.threads, x.2.All Op.reads) ∧
      q.shared.service.db.commits = othersSave [l] p.shared.service.db.commits := by
  cases l with
  | spawn t =>
    cases h
    refine ⟨fun x hx => ?_, rfl⟩
    rcases List.mem_append.mp hx with old | new
    · exact threads x old
    · rw [List.mem_singleton.mp new]
      exact (Prog.all_true _).implement fun op _ => remote_all op
  | run i c =>
    obtain ⟨t, op, k, a, u, thread, hr, rfl⟩ := Pool.run_cases h
    obtain ⟨now, later⟩ := threads _ (List.mem_of_getElem? thread)
    refine ⟨fun x hx => ?_, exec_commits hr now⟩
    rcases List.mem_or_eq_of_mem_set hx with old | rfl
    · exact threads x old
    · exact later a
  | env e =>
    obtain ⟨u, hu, rfl⟩ := Pool.env_cases h
    exact ⟨threads, change_commits hu⟩

/-- Whatever frames the gateway handles, only others change the commit log. -/
theorem runFrom_commits {p q : Pool (relay A S r)} {labels : List (PoolLabel (relay A S r))}
    (h : runFrom p labels = some q) (threads : ∀ x ∈ p.threads, x.2.All Op.reads) :
    q.shared.service.db.commits = othersSave labels p.shared.service.db.commits := by
  induction labels generalizing p with
  | nil =>
    cases h
    rfl
  | cons l labels ih =>
    obtain ⟨u, one, rest⟩ := Option.bind_eq_some_iff.mp h
    obtain ⟨threads', commits⟩ := reads_step one threads
    rw [ih rest threads', commits]
    rfl

end Runs

/-! ## Fan-out -/

/-- The bytes that the gateway hands to the channel service. -/
def commitBytes (frame : Gateway.GroupCommitFrame) : Bytes :=
  let decoded := Base64.decodeString frame.commitData
  if decoded.2 = false ∨ decoded.1 = [] then frame.commitData.toUTF8.data.toList else decoded.1

variable (A) in
/-- The log holds the commit of the frame, with the user as its sender. -/
def Persisted (conn : Gateway.Conn) (frame : Gateway.GroupCommitFrame)
    (log : Ledger.Table (Auth.UUID × Nat) Auth.Commit) : Prop :=
  ∃ ch u, A.parseUUID (Gateway.trimPrefix frame.channelID "chan_") = some ch ∧
    A.parseUUID conn.userID = some u ∧
    log.lookup (ch, frame.epoch.toNat) = some ⟨u, commitBytes frame⟩

/-- The commit of the frame goes out to somebody else. -/
def FansOut (conn : Gateway.Conn) (frame : Gateway.GroupCommitFrame) : Op → Prop
  | .gateway (.sendToUser uid (.groupCommit ch u epoch data _)) =>
    uid ≠ conn.userID ∧ ch = frame.channelID ∧ u = conn.userID ∧ epoch = frame.epoch ∧
      data = frame.commitData
  | .gateway (.broadcastAll _ (.groupCommit ch u epoch data _)) =>
    ch = frame.channelID ∧ u = conn.userID ∧ epoch = frame.epoch ∧ data = frame.commitData
  | _ => False

instance (conn : Gateway.Conn) (frame : Gateway.GroupCommitFrame) (op : Op) :
    Decidable (FansOut conn frame op) := by
  unfold FansOut
  split <;> infer_instance

/-- If the gateway has fanned out the commit, the log holds it. -/
def PersistedIfRelayed {S : Gateway.Platform} {r : Gateway.Router} (p : Pool (relay A S r))
    (conn : Gateway.Conn) (frame : Gateway.GroupCommitFrame)
    (log : Ledger.Table (Auth.UUID × Nat) Auth.Commit) : Prop :=
  (∃ x ∈ p.log, x.1.conn = conn ∧ FansOut conn frame x.2) → Persisted A conn frame log

/-- What the gateway fans out is in the log just if the saves of others have put it there. -/
theorem groupCommit_persisted_iff (S : Gateway.Platform) (r : Gateway.Router) (s : State)
    (labels : List (PoolLabel (relay A S r))) (p : Pool (relay A S r))
    (run : runFrom (Pool.start _ s) labels = some p) (conn : Gateway.Conn)
    (frame : Gateway.GroupCommitFrame) :
    PersistedIfRelayed p conn frame p.shared.service.db.commits ↔
      PersistedIfRelayed p conn frame (othersSave labels s.service.db.commits) := by
  rw [runFrom_commits run nofun]
  rfl

/-! ## A commit that nobody stores -/

namespace Sample
open Auth.Sample

def team : State := ⟨.empty clock, twoMembers⟩

/-- Alice's commit to epoch 1. -/
def frame : Gateway.GroupCommitFrame := ⟨"group_commit", "chan_" ++ channel.text, 1, "AQID"⟩

def aliceSends : Inbound where
  conn := ⟨alice.text, .json⟩
  data := ("\x7b\"action\":\"group_commit\",\"channel_id\":\"chan_" ++ channel.text ++
    "\",\"epoch\":1,\"commit_data\":\"AQID\"\x7d").toUTF8.data.toList

/-- Bob is online, and every message between the services gets through. -/
def labels : List (PoolLabel (relay platform Gateway.samplePlatform Gateway.sampleRouter)) := [
  .spawn aliceSends, .run 0 (.delivered true), .run 0 (.service .ok), .run 0 (.delivered true),
  .run 0 (.delivered true), .run 0 (.delivered true), .run 0 (.gateway .ok),
  .run 0 (.gateway (.answer true)), .run 0 (.gateway .ok)]

set_option maxRecDepth 20000

theorem labels_isSome : (runFrom (Pool.start _ team) labels).isSome := by
  rfl

def relayed : Pool (relay platform Gateway.samplePlatform Gateway.sampleRouter) :=
  (runFrom (Pool.start _ team) labels).get labels_isSome

theorem run_relayed : runFrom (Pool.start _ team) labels = some relayed :=
  (Option.some_get labels_isSome).symm

theorem groupCommit_persisted_iff_sample :
    PersistedIfRelayed relayed aliceSends.conn frame relayed.shared.service.db.commits ↔
      PersistedIfRelayed relayed aliceSends.conn frame (othersSave labels ∅) :=
  groupCommit_persisted_iff _ _ team labels relayed run_relayed aliceSends.conn frame

/-- Bob gets a commit of the member Alice that is not in the log. -/
theorem commit_relayed_unsaved : team.service.db.isChannelMember channel alice = true ∧
    runFrom (Pool.start _ team) labels = some relayed ∧
    (∃ x ∈ relayed.log, x.1.conn = aliceSends.conn ∧ FansOut aliceSends.conn frame x.2) ∧
    ¬ PersistedIfRelayed relayed aliceSends.conn frame relayed.shared.service.db.commits := by
  have sent : ∃ x ∈ relayed.log, x.1.conn = aliceSends.conn ∧
      FansOut aliceSends.conn frame x.2 := by
    decide
  have empty : relayed.shared.service.db.commits = ∅ := runFrom_commits run_relayed nofun
  refine ⟨by rfl, run_relayed, sent, fun persisted => ?_⟩
  obtain ⟨ch, u, -, -, found⟩ := persisted sent
  rw [empty] at found
  cases found

end Sample
end GenChat.CommitRelay
