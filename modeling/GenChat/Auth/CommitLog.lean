import GenChat.Auth.Channels
import GenChat.Library.Concurrent

/-!
# The commit log of the channels

Requests to the channel service run one statement at a time, in any order. A commit is in turn if
it is the first of the channel's next epoch, or repeats the bytes that are stored. As long as no
other commit takes effect, the log is append-only; any other commit overwrites bytes under the name
of another sender, or leaves a gap.
-/
namespace GenChat.Auth
open Library
open Ledger (Bytes Table lookup_insert_cases)

inductive ChannelRequest where
  | grpcCreateChannel (token : Option Token) (req : CreateChannelRequest)
  | grpcJoinChannel (token : Option Token) (channelId : String)
  | grpcLeaveChannel (token : Option Token) (channelId : String)
  | grpcCommitEpoch (token : Option Token) (req : CommitEpochRequest)
  | httpCreateChannel (req : HttpRequest CreateChannelBody)
  | httpJoinChannel (req : HttpRequest ChannelBody)
  | httpLeaveChannel (req : HttpRequest ChannelBody)
  | httpCommitEpoch (req : HttpRequest CommitEpochBody)
  | httpAddMember (req : HttpRequest MemberBody)
  | httpRemoveMember (req : HttpRequest MemberBody)
  | httpSaveWelcome (req : HttpRequest MemberBody)

namespace ChannelRequest
variable (S : Platform)

/-- Run a handler and forget its response. -/
def run {α : Type} (p : Proc α) : Proc Unit := p.bind fun _ => pure ()

def handle : ChannelRequest → Proc Unit
  | .grpcCreateChannel token req => run <|
    unaryAuthInterceptor "/chat.v1.ChannelService/CreateChannel" token (createChannel S · req)
  | .grpcJoinChannel token channelId => run <|
    unaryAuthInterceptor "/chat.v1.ChannelService/JoinChannel" token (joinChannel S · channelId)
  | .grpcLeaveChannel token channelId => run <|
    unaryAuthInterceptor "/chat.v1.ChannelService/LeaveChannel" token (leaveChannel S · channelId)
  | .grpcCommitEpoch token req => run <|
    unaryAuthInterceptor "/chat.v1.ChannelService/CommitEpoch" token (commitEpoch S · req)
  | .httpCreateChannel req => run (Auth.httpCreateChannel S req)
  | .httpJoinChannel req => run (Auth.httpJoinChannel S req)
  | .httpLeaveChannel req => run (Auth.httpLeaveChannel S req)
  | .httpCommitEpoch req => run (Auth.httpCommitEpoch S req)
  | .httpAddMember req => run (Auth.httpAddMember S req)
  | .httpRemoveMember req => run (Auth.httpRemoveMember S req)
  | .httpSaveWelcome req => run (Auth.httpSaveWelcome S req)

/-- The token that the request presents. -/
def token : ChannelRequest → Option Token
  | .grpcCreateChannel token _ | .grpcJoinChannel token _ | .grpcLeaveChannel token _
  | .grpcCommitEpoch token _ => token
  | .httpCreateChannel req => req.token
  | .httpJoinChannel req | .httpLeaveChannel req => req.token
  | .httpCommitEpoch req => req.token
  | .httpAddMember req | .httpRemoveMember req | .httpSaveWelcome req => req.token

/-- The request comes from the user. -/
def From (req : ChannelRequest) (u : UUID) : Prop :=
  ∃ token ∈ req.token, token.signed ∧ S.parseUUID token.payload.sub = some u

/-- The epoch and the bytes of the commit in the request. -/
def commit : ChannelRequest → Option (Nat × Bytes)
  | .grpcCreateChannel _ req => some (0, req.initialCommit)
  | .grpcCommitEpoch _ req => some (req.epoch.toNat, req.commitData)
  | .httpCreateChannel req => some (0, req.body.request.initialCommit)
  | .httpCommitEpoch req => some (req.body.request.epoch.toNat, req.body.request.commitData)
  | .httpAddMember req | .httpRemoveMember req =>
    some (req.body.epoch.toNat, decodeOrRaw req.body.commit_data)
  | _ => none

/-- The user submits this commit by the request. -/
def Submitted (req : ChannelRequest) (u : UUID) (epoch : Nat) (data : Bytes) : Prop :=
  req.From S u ∧ req.commit = some (epoch, data)

end ChannelRequest

/-! ## What a request may save -/

/-- The operation saves only commits of this sender, epoch and contents. -/
def Op.SavesOnly (φ : UUID → Nat → Bytes → Prop) : Op → Prop
  | .saveMlsCommit _ u epoch data => φ u epoch data
  | _ => True

@[simp] theorem Op.savesOnly_save {φ : UUID → Nat → Bytes → Prop} {ch u : UUID} {epoch : Nat}
    {data : Bytes} : Op.SavesOnly φ (.saveMlsCommit ch u epoch data) ↔ φ u epoch data := Iff.rfl

section Footprints
variable {S : Platform} {φ : UUID → Nat → Bytes → Prop}

theorem saveWelcomes_all (channelID : UUID) (welcomes : List (String × Bytes)) :
    (saveWelcomes S channelID welcomes).All (Op.SavesOnly φ) := by
  induction welcomes with
  | nil => trivial
  | cons w rest ih =>
    unfold saveWelcomes
    cases S.parseUUID w.1 with
    | none => exact ih
    | some userID =>
      by_cases empty : w.2 = []
      · simpa [empty] using ih
      · simpa [empty, Op.SavesOnly] using ih

theorem createChannel_all {ctx : Context} {req : CreateChannelRequest}
    (h : ∀ u, S.parseUUID ctx.userID = some u → φ u 0 req.initialCommit) :
    (createChannel S ctx req).All (Op.SavesOnly φ) := by
  unfold createChannel
  split
  · trivial
  · rename_i creatorID caller
    split
    · trivial
    · dsimp only
      split
      · trivial
      · refine ⟨trivial, fun channelID => ⟨trivial, fun created => ?_⟩⟩
        cases created with
        | error => trivial
        | ok =>
          refine ⟨trivial, fun members => ?_⟩
          cases members with
          | error => trivial
          | ok members =>
            refine (saveWelcomes_all channelID req.memberWelcomes).bind fun _ => ?_
            by_cases empty : req.initialCommit = []
            · simp [empty]
            · simpa [empty] using h creatorID (getUserIDFromCtx_ok caller)

theorem joinChannel_all {ctx : Context} {channelId : String} :
    (joinChannel S ctx channelId).All (Op.SavesOnly φ) := by
  unfold joinChannel
  split
  · trivial
  · split
    · trivial
    · refine ⟨trivial, fun existing => ?_⟩
      refine Prog.all_ite.mpr ⟨fun _ => trivial, fun _ => ⟨trivial, fun joined => ?_⟩⟩
      cases joined with
      | error => trivial
      | ok => exact ⟨trivial, fun welcome => by cases welcome <;> trivial⟩

theorem leaveChannel_all {ctx : Context} {channelId : String} :
    (leaveChannel S ctx channelId).All (Op.SavesOnly φ) := by
  unfold leaveChannel
  split
  · trivial
  · split
    · trivial
    · exact ⟨trivial, fun left => by cases left <;> trivial⟩

theorem commitEpoch_all {ctx : Context} {req : CommitEpochRequest}
    (h : ∀ u, S.parseUUID ctx.userID = some u → φ u req.epoch.toNat req.commitData) :
    (commitEpoch S ctx req).All (Op.SavesOnly φ) := by
  unfold commitEpoch
  split
  · trivial
  · rename_i senderID caller
    split
    · trivial
    · split
      · trivial
      · split
        · trivial
        · refine ⟨trivial, fun member => ?_⟩
          rcases member with _ | _ | _
          · trivial
          · trivial
          · exact ⟨h senderID (getUserIDFromCtx_ok caller), fun saved => by cases saved <;> trivial⟩

theorem memberIDs_caller {claims : JWTPayload} {body : MemberBody} {ids : UUID × UUID × UUID}
    (h : memberIDs S claims body = .ok ids) : S.parseUUID claims.sub = some ids.2.2 := by
  unfold memberIDs at h
  split at h
  · cases h
  · split at h
    · cases h
    · split at h <;> cases h
      assumption

theorem asMember_all {α : Type} {req : HttpRequest MemberBody}
    {handler : UUID → UUID → UUID → Proc (HttpAnswer α)}
    (h : ∀ token ∈ req.token, token.signed → ∀ channelID targetID callerID,
      S.parseUUID token.payload.sub = some callerID →
      (handler channelID targetID callerID).All (Op.SavesOnly φ)) :
    (asMember S req handler).All (Op.SavesOnly φ) := by
  refine authenticated_all trivial fun token bearer signed => ?_
  split
  · trivial
  · rename_i channelID targetID callerID ids
    refine ⟨trivial, fun member => ?_⟩
    rcases member with _ | _ | _
    · trivial
    · trivial
    · exact h token bearer signed channelID targetID callerID (memberIDs_caller ids)

theorem saveCommit_all {channelID callerID : UUID} {body : MemberBody}
    (h : φ callerID body.epoch.toNat (decodeOrRaw body.commit_data)) :
    (saveCommit channelID callerID body).All (Op.SavesOnly φ) := by
  by_cases empty : body.commit_data = ""
  · simp [saveCommit, empty]
  · simpa [saveCommit, empty] using h

end Footprints

namespace ChannelRequest
variable {S : Platform}

theorem run_all {α : Type} {φ : Op → Prop} {p : Proc α} (h : p.All φ) : (run p).All φ :=
  h.bind fun _ => trivial

theorem methods_guarded : ∀ method ∈ ["/chat.v1.ChannelService/CreateChannel",
    "/chat.v1.ChannelService/JoinChannel", "/chat.v1.ChannelService/LeaveChannel",
    "/chat.v1.ChannelService/CommitEpoch"],
    isPublicMethod method = false ∧ isInternalServiceMethod method = false := by
  decide

/-- A request saves no commit but its own, under the name of its caller. -/
theorem handle_all (req : ChannelRequest) :
    (req.handle S).All (Op.SavesOnly (req.Submitted S)) := by
  cases req with
  | grpcCreateChannel token req =>
    refine run_all ?_
    apply interceptor_all
    · exact methods_guarded "/chat.v1.ChannelService/CreateChannel" (by simp)
    · trivial
    · intro token bearer signed
      exact createChannel_all fun u caller => ⟨⟨token, bearer, signed, caller⟩, rfl⟩
  | grpcJoinChannel token channelId =>
    refine run_all ?_
    apply interceptor_all
    · exact methods_guarded "/chat.v1.ChannelService/JoinChannel" (by simp)
    · trivial
    · intro token bearer signed
      exact joinChannel_all
  | grpcLeaveChannel token channelId =>
    refine run_all ?_
    apply interceptor_all
    · exact methods_guarded "/chat.v1.ChannelService/LeaveChannel" (by simp)
    · trivial
    · intro token bearer signed
      exact leaveChannel_all
  | grpcCommitEpoch token req =>
    refine run_all ?_
    apply interceptor_all
    · exact methods_guarded "/chat.v1.ChannelService/CommitEpoch" (by simp)
    · trivial
    · intro token bearer signed
      exact commitEpoch_all fun u caller => ⟨⟨token, bearer, signed, caller⟩, rfl⟩
  | httpCreateChannel req =>
    refine run_all (authenticated_all trivial fun token bearer signed => ?_)
    split
    · trivial
    · refine Prog.All.bind (createChannel_all fun u caller => ?_) fun r => by cases r <;> trivial
      exact ⟨⟨token, bearer, signed, caller⟩, rfl⟩
  | httpJoinChannel req =>
    refine run_all (authenticated_all trivial fun _ _ _ => ?_)
    exact Prog.All.bind joinChannel_all fun r => by cases r <;> trivial
  | httpLeaveChannel req =>
    refine run_all (authenticated_all trivial fun _ _ _ => ?_)
    exact Prog.All.bind leaveChannel_all fun r => by cases r <;> trivial
  | httpCommitEpoch req =>
    refine run_all (authenticated_all trivial fun token bearer signed => ?_)
    split
    · trivial
    · refine Prog.All.bind (commitEpoch_all fun u caller => ?_) fun r => ?_
      · exact ⟨⟨token, bearer, signed, caller⟩, rfl⟩
      · cases r with
        | error err =>
          dsimp only
          split <;> trivial
        | ok => trivial
  | httpAddMember req =>
    refine run_all (asMember_all fun token bearer signed ch target u caller => ?_)
    refine ⟨trivial, fun joined => ?_⟩
    cases joined with
    | error => trivial
    | ok =>
      have save : ((saveCommit ch u req.body).bind fun _ => .pure (.ok (ch, target)) :
          Proc (HttpAnswer (UUID × UUID))).All (Op.SavesOnly ((httpAddMember req).Submitted S)) :=
        (saveCommit_all ⟨⟨token, bearer, signed, caller⟩, rfl⟩).bind fun _ => trivial
      exact Prog.all_ite.mpr ⟨fun _ => ⟨trivial, fun _ => save⟩, fun _ => save⟩
  | httpRemoveMember req =>
    refine run_all (asMember_all fun token bearer signed ch target u caller => ?_)
    refine ⟨trivial, fun left => ?_⟩
    cases left with
    | error => trivial
    | ok =>
      have save : (saveCommit ch u req.body).All
          (Op.SavesOnly ((httpRemoveMember req).Submitted S)) :=
        saveCommit_all ⟨⟨token, bearer, signed, caller⟩, rfl⟩
      exact save.bind fun _ => trivial
  | httpSaveWelcome req =>
    refine run_all (asMember_all fun token bearer signed ch target u caller => ?_)
    exact ⟨trivial, fun saved => by cases saved <;> trivial⟩

end ChannelRequest

/-! ## Runs -/

/-- Any number of requests at a time, from a database without commits. -/
abbrev channelService (S : Platform) : Service Op Ret Unit ChannelRequest Change where
  system := system
  init s := s.db.commits = ∅
  env := Server.change
  body req := req.handle S

/-- The commit is the first of the channel's next epoch, or has the bytes of the stored one. -/
def Database.InTurn (db : Database) (channelID : UUID) (epoch : Nat) (data : Bytes) : Prop :=
  (db.commits.lookup (channelID, epoch)).map Commit.commitData = some data ∨
    (channelID, epoch) ∉ db.commits ∧ ∀ e < epoch, (channelID, e) ∈ db.commits

instance (db : Database) (channelID : UUID) (epoch : Nat) (data : Bytes) :
    Decidable (db.InTurn channelID epoch data) := inferInstanceAs (Decidable (_ ∨ _))

/-- The operation saves no commit, or one in turn, or its statement has no effect. -/
def Op.Orderly (s : Server) (op : Op) (c : Choice) : Prop :=
  match op with
  | .saveMlsCommit channelID u epoch data =>
    c = .fail ∨ s.db.upsertCommit channelID u epoch data = none ∨ s.db.InTurn channelID epoch data
  | _ => True

instance (s : Server) (op : Op) (c : Choice) : Decidable (op.Orderly s c) := by
  cases op <;> first | exact instDecidableTrue | exact inferInstanceAs (Decidable (_ ∨ _))

section Runs
variable {S : Platform}

/-- Commits are saved in turn. -/
def Orderly (p : Pool (channelService S)) : PoolLabel (channelService S) → Prop
  | .run i c => ∀ x ∈ p.next i, x.2.Orderly p.shared c
  | _ => True

instance : ∀ (p : Pool (channelService S)) l, Decidable (Orderly p l)
  | p, .run i c => inferInstanceAs (Decidable (∀ x ∈ p.next i, x.2.Orderly p.shared c))
  | _, .spawn _ => instDecidableTrue
  | _, .env _ => instDecidableTrue

/-- From `p` to `q` the log has only grown, and in `q` it is sound. -/
structure AppendOnly (p q : Pool (channelService S)) : Prop where
  kept : ∀ k row, p.shared.db.commits.lookup k = some row → q.shared.db.commits.lookup k = some row
  authored : ∀ ch epoch row, q.shared.db.commits.lookup (ch, epoch) = some row →
    ∃ req, (req, .saveMlsCommit ch row.senderID epoch row.commitData) ∈ q.log ∧
      req.Submitted S row.senderID epoch row.commitData
  gapFree : ∀ ch, ∃ n, ∀ epoch, (ch, epoch) ∈ q.shared.db.commits ↔ epoch < n

/-- A step saves a commit, or leaves the log alone. -/
theorem commits_step {p q : Pool (channelService S)} {l : PoolLabel (channelService S)}
    (h : Pool.step p l = some q) :
    (∃ i c req ch u epoch data, l = .run i c ∧ c ≠ .fail ∧
      p.next i = some (req, .saveMlsCommit ch u epoch data) ∧
      p.shared.db.upsertCommit ch u epoch data = some q.shared.db ∧
      q.log = p.log ++ [(req, .saveMlsCommit ch u epoch data)]) ∨
    q.shared.db.commits = p.shared.db.commits ∧ ∃ later, q.log = p.log ++ later := by
  cases l with
  | spawn req =>
    cases h
    exact .inr ⟨rfl, [], by simp⟩
  | env e =>
    obtain ⟨s, hs, rfl⟩ := Pool.env_cases h
    exact .inr ⟨Server.change_commits hs, [], by simp⟩
  | run i c =>
    obtain ⟨req, op, k, r, s, thread, hr, rfl⟩ := Pool.run_cases h
    rcases Server.exec_db hr with same | ⟨effect, hc⟩
    · exact .inr ⟨by rw [same], _, rfl⟩
    · by_cases save : op.part = some .commits
      · cases op with
        | saveMlsCommit ch u epoch data =>
          exact .inl ⟨i, c, req, ch, u, epoch, data, rfl, hc, Pool.next_call thread, effect, rfl⟩
        | _ => cases save
      · exact .inr ⟨Server.effect_same effect save, _, rfl⟩

/-- What the commits of a channel look like after a save. -/
theorem upsertCommit_lookup {db db' : Database} {ch u : UUID} {epoch : Nat} {data : Bytes}
    (h : db.upsertCommit ch u epoch data = some db') (k : UUID × Nat) :
    db'.commits.lookup k = if k = (ch, epoch) then
      some ⟨((db.commits.lookup k).map Commit.senderID).getD u, data⟩ else db.commits.lookup k := by
  obtain ⟨-, h⟩ := Option.ite_none_right_eq_some.mp h
  cases h
  by_cases same : k = (ch, epoch)
  · subst same
    simp only [Database.commitRows, AList.lookup_insert, if_true]
    cases db.commits.lookup (ch, epoch) <;> rfl
  · simp only [Database.commitRows, same, if_false, AList.lookup_insert_ne same]

/-- A commit in turn leaves the stored ones as they are. -/
theorem Database.InTurn.kept {db db' : Database} {ch u : UUID} {epoch : Nat} {data : Bytes}
    (turn : db.InTurn ch epoch data) (h : db.upsertCommit ch u epoch data = some db')
    {k : UUID × Nat} {row : Commit} (old : db.commits.lookup k = some row) :
    db'.commits.lookup k = some row := by
  rw [upsertCommit_lookup h]
  split
  · rename_i same
    subst same
    rcases turn with repeated | ⟨fresh, -⟩
    · rw [old] at repeated ⊢
      cases repeated
      rfl
    · rw [AList.lookup_eq_none.mpr fresh] at old
      cases old
  · exact old

/-- A commit in turn is the stored one, or the first of the next epoch. -/
theorem Database.InTurn.gapFree {db db' : Database} {ch u : UUID} {epoch : Nat} {data : Bytes}
    (turn : db.InTurn ch epoch data) (h : db.upsertCommit ch u epoch data = some db')
    {ch' : UUID} {n : Nat} (below : ∀ e, (ch', e) ∈ db.commits ↔ e < n) :
    ∃ n, ∀ e, (ch', e) ∈ db'.commits ↔ e < n := by
  have member (e : Nat) :
      (ch', e) ∈ db'.commits ↔ (ch', e) ∈ db.commits ∨ (ch', e) = (ch, epoch) := by
    rw [← AList.lookup_isSome, ← AList.lookup_isSome, upsertCommit_lookup h]
    by_cases same : (ch', e) = (ch, epoch) <;> simp [same]
  by_cases here : ch' = ch
  · subst here
    rcases turn with repeated | ⟨fresh, all⟩
    · obtain ⟨row, found, -⟩ := Option.map_eq_some_iff.mp repeated
      have stored : (ch', epoch) ∈ db.commits := AList.lookup_isSome.mp (by simp [found])
      refine ⟨n, fun e => ?_⟩
      rw [member, below, or_iff_left_of_imp]
      rintro same
      cases same
      exact (below epoch).mp stored
    · have last : epoch = n := by
        have ge : ¬ epoch < n := fun lt => fresh ((below epoch).mpr lt)
        have le : ¬ n < epoch := fun lt => Nat.lt_irrefl n ((below n).mp (all n lt))
        omega
      refine ⟨n + 1, fun e => ?_⟩
      simp only [member, below, Prod.mk.injEq, true_and]
      omega
  · refine ⟨n, fun e => ?_⟩
    rw [member, below]
    simp [here]

theorem AppendOnly.step {p q : Pool (channelService S)} {l : PoolLabel (channelService S)}
    (hp : (Pool.machine (channelService S)).Reach Orderly p) (hok : Orderly p l)
    (h : Pool.step p l = some q) (inv : AppendOnly p p) : AppendOnly p q := by
  have hq := hp.step hok h
  have own := Pool.log_all (fun req => Op.SavesOnly (req.Submitted S))
    (fun _ req _ => req.handle_all) hq
  rcases commits_step h with ⟨i, c, req, ch, u, epoch, data, rfl, hc, next, saved, log⟩ |
    ⟨same, later, log⟩
  · have turn : p.shared.db.InTurn ch epoch data := by
      rcases hok _ next with failed | none | turn
      · exact absurd failed hc
      · rw [none] at saved
        cases saved
      · exact turn
    refine ⟨fun k row old => turn.kept saved old, fun ch' e row found => ?_, fun ch' => ?_⟩
    · rw [upsertCommit_lookup saved] at found
      split at found
      · rename_i here
        cases here
        rcases turn with repeated | ⟨fresh, -⟩
        · obtain ⟨old, stored, bytes⟩ := Option.map_eq_some_iff.mp repeated
          rw [stored] at found
          cases found
          obtain ⟨req', mem, submitted⟩ := inv.authored ch epoch old stored
          rw [bytes] at mem submitted
          exact ⟨req', by simp [log, mem], submitted⟩
        · rw [AList.lookup_eq_none.mpr fresh] at found
          cases found
          have mem : (req, Op.saveMlsCommit ch u epoch data) ∈ q.log := by simp [log]
          exact ⟨req, mem, own _ mem⟩
      · obtain ⟨req', mem, submitted⟩ := inv.authored ch' e row found
        exact ⟨req', by simp [log, mem], submitted⟩
    · obtain ⟨n, below⟩ := inv.gapFree ch'
      exact turn.gapFree saved below
  · refine ⟨fun k row old => by rwa [same], fun ch epoch row found => ?_, fun ch => ?_⟩
    · rw [same] at found
      obtain ⟨req, mem, submitted⟩ := inv.authored ch epoch row found
      exact ⟨req, by simp [log, mem], submitted⟩
    · rw [same]
      exact inv.gapFree ch

/-- Every state of an orderly run has a sound log. -/
theorem Orderly.sound {p : Pool (channelService S)}
    (hp : (Pool.machine (channelService S)).Reach Orderly p) : AppendOnly p p := by
  induction hp with
  | start hs =>
    obtain ⟨s, hs, rfl⟩ := hs
    have empty : s.db.commits = ∅ := hs
    refine ⟨fun _ _ found => found, fun ch epoch row found => ?_, fun ch => ⟨0, fun epoch => ?_⟩⟩
    · simp [Pool.start, empty] at found
    · simp [Pool.start, empty]
  | step hp hok h ih =>
    have next := AppendOnly.step hp hok h ih
    exact ⟨fun _ _ found => found, next.authored, next.gapFree⟩

/-- Along an orderly run the log is append-only. -/
theorem commitLog_appendOnly {p q : Pool (channelService S)}
    (hp : (Pool.machine (channelService S)).Reach Orderly p)
    (hq : ((Pool.machine (channelService S)).resume p).Reach Orderly q) : AppendOnly p q := by
  have both : (Pool.machine (channelService S)).Reach Orderly q ∧ AppendOnly p q := by
    induction hq with
    | start same =>
      cases same
      exact ⟨hp, Orderly.sound hp⟩
    | step _ hok h ih =>
      obtain ⟨reach, grown⟩ := ih
      have next := AppendOnly.step reach hok h (Orderly.sound reach)
      exact ⟨reach.step hok h, fun k row old => next.kept k row (grown.kept k row old),
        next.authored, next.gapFree⟩
  exact both.2

/-- A save out of turn breaks the log. -/
theorem orderly_of_appendOnly {p q : Pool (channelService S)} {l : PoolLabel (channelService S)}
    (h : Pool.step p l = some q) (kept : AppendOnly p q) : Orderly p l := by
  cases l with
  | spawn => trivial
  | env => trivial
  | run i c =>
    rintro ⟨req, op⟩ next
    cases op with
    | saveMlsCommit ch u epoch data =>
      cases effect : p.shared.db.upsertCommit ch u epoch data with
      | none => exact .inr (.inl effect)
      | some db =>
        obtain ⟨k, thread⟩ := Pool.call_of_next next
        obtain ⟨_, _, _, r, s, thread', hr, rfl⟩ := Pool.run_cases h
        rw [thread] at thread'
        cases thread'
        have write : p.shared.write (some db) c = some (r, s) := effect ▸ hr
        rcases Server.write_cases write with ⟨-, none | fail⟩ | ⟨d, hd, rfl, -⟩
        · cases none
        · exact .inl fail
        · cases hd
          have found := upsertCommit_lookup effect (ch, epoch)
          refine .inr (.inr ?_)
          cases stored : p.shared.db.commits.lookup (ch, epoch) with
          | some old =>
            have same := kept.kept _ _ stored
            rw [if_pos rfl] at found
            cases found.symm.trans same
            exact .inl (by rw [stored]; rfl)
          | none =>
            obtain ⟨n, below⟩ := kept.gapFree ch
            have last : epoch < n := (below epoch).mp (AList.lookup_isSome.mp (by simp [found]))
            refine .inr ⟨AList.lookup_eq_none.mp stored, fun e lt => ?_⟩
            have mem := (below e).mpr (lt.trans last)
            rw [← AList.lookup_isSome, upsertCommit_lookup effect] at mem
            simpa [lt.ne, AList.lookup_isSome] using mem
    | _ => trivial

/-- The orderly runs are the runs along which the log is append-only. -/
theorem orderly_iff_appendOnly {p : Pool (channelService S)} :
    (Pool.machine (channelService S)).Reach Orderly p ↔ (Pool.machine (channelService S)).Reach
      (fun p l => ∀ q, Pool.step p l = some q → AppendOnly p q) p := by
  constructor
  · intro hp
    induction hp with
    | start hs => exact .start hs
    | step hp hok h ih =>
      refine ih.step (fun q h => ?_) h
      exact AppendOnly.step hp hok h (Orderly.sound hp)
  · intro hp
    induction hp with
    | start hs => exact .start hs
    | step _ kept h ih =>
      exact ih.step (orderly_of_appendOnly h (kept _ h)) h

end Runs

/-! ## Two members and one epoch -/

namespace Sample

/-- Alice and Bob are in a channel. -/
def twoMembers : Server where
  db := { Database.empty with
    users := [alice, bob]
    channels := (∅ : Table UUID Channel).insert channel ⟨"group", "team", alice⟩
    members := ((∅ : Table (UUID × UUID) Membership).insert (channel, alice)
      ⟨"owner", false⟩).insert (channel, bob) ⟨"member", false⟩ }
  clock := clock
  begun := 0
  locks := ∅

def commitOf (token : Token) (epoch : UInt64) (data : Bytes) : ChannelRequest :=
  .grpcCommitEpoch (some token) ⟨channel.text, epoch, data⟩

/-- Alice commits to epoch 0. -/
def aliceCommits : List (PoolLabel (channelService platform)) :=
  [.spawn (commitOf aliceToken 0 [1]), .run 0 .ok, .run 0 .ok, .run 0 .ok]

/-- Bob commits to epoch 0 too, and then to epoch 5. -/
def bobCommits : List (PoolLabel (channelService platform)) :=
  [.spawn (commitOf bobToken 0 [2]), .run 1 .ok, .run 1 .ok, .run 1 .ok,
    .spawn (commitOf bobToken 5 [3]), .run 2 .ok, .run 2 .ok, .run 2 .ok]

abbrev service : Machine (Pool (channelService platform)) (PoolLabel (channelService platform)) :=
  Pool.machine (channelService platform)

def noCommits : Pool (channelService platform) := Pool.start _ twoMembers

theorem noCommits_reach : service.Reach Orderly noCommits := .start ⟨twoMembers, rfl, rfl⟩

theorem aliceCommits_isSome :
    ((service.resume noCommits).follow Orderly noCommits aliceCommits).isSome := by
  rfl

def afterAlice : Pool (channelService platform) :=
  ((service.resume noCommits).follow Orderly noCommits aliceCommits).get aliceCommits_isSome

theorem afterAlice_reach : (service.resume noCommits).Reach Orderly afterAlice :=
  (Machine.Reach.start rfl).follow (Option.some_get aliceCommits_isSome).symm

theorem bobCommits_isSome :
    ((service.resume afterAlice).follow (fun _ _ => True) afterAlice bobCommits).isSome := by
  rfl

def afterBob : Pool (channelService platform) :=
  ((service.resume afterAlice).follow (fun _ _ => True) afterAlice bobCommits).get
    bobCommits_isSome

theorem commitLog_appendOnly_sample : AppendOnly noCommits afterAlice :=
  commitLog_appendOnly noCommits_reach afterAlice_reach

/-- Bob's bytes replace Alice's under her name, and epoch 5 follows upon epoch 0. -/
theorem commit_overwritten : ∃ p q, service.Reachable p ∧ (service.resume p).Reachable q ∧
    p.shared.db.commits.lookup (channel, 0) = some ⟨alice, [1]⟩ ∧
    q.shared.db.commits.lookup (channel, 0) = some ⟨alice, [2]⟩ ∧
    (channel, 5) ∈ q.shared.db.commits ∧ (channel, 1) ∉ q.shared.db.commits ∧
    ¬ AppendOnly p q := by
  have before : afterAlice.shared.db.commits.lookup (channel, 0) = some ⟨alice, [1]⟩ := by
    rfl
  have after : afterBob.shared.db.commits.lookup (channel, 0) = some ⟨alice, [2]⟩ := by
    rfl
  refine ⟨afterAlice, afterBob, ?_, ?_, before, after, ?_, ?_, ?_⟩
  · exact noCommits_reach.reachable.of_resume afterAlice_reach
  · exact (Machine.Reach.start rfl).follow (Option.some_get bobCommits_isSome).symm
  · decide
  · decide
  · intro log
    have kept := log.kept _ _ before
    rw [after] at kept
    cases kept

end Sample
end GenChat.Auth
