import GenChat.Auth.CommitLog

/-!
# The members of the channels

`CreateChannel` checks the number of members it is given, `JoinChannel` counts before it inserts,
and `AddMember` does not count at all. No channel ever has more than the allowed number of active
members exactly as long as every insert of a new member finds a place that is still free.
-/
namespace GenChat.Auth
open Library
open Ledger (Bytes Table lookup_insert_cases)

namespace Database
variable {db db' : Database} {ch ch' u v : UUID}

/-! ## Active members -/

theorem isChannelMember_iff : db.isChannelMember ch u = true ↔
    ∃ row, db.members.lookup (ch, u) = some row ∧ row.left = false := by
  unfold isChannelMember
  cases db.members.lookup (ch, u) <;> simp

/-- The users that `GetChannelMembers` lists. -/
def activeMembers (db : Database) (ch : UUID) : Finset UUID :=
  ((db.channelMembers ch).map Prod.fst).toFinset

@[simp] theorem mem_activeMembers : u ∈ db.activeMembers ch ↔ db.isChannelMember ch u = true := by
  simp only [activeMembers, channelMembers, List.map_map, List.mem_toFinset, List.mem_map,
    List.mem_filter, isChannelMember_iff]
  constructor
  · rintro ⟨⟨⟨_, _⟩, row⟩, ⟨entry, active⟩, rfl⟩
    obtain ⟨rfl, present⟩ : _ = ch ∧ row.left = false := by simpa using active
    exact ⟨row, AList.mem_lookup_iff.mpr entry, present⟩
  · rintro ⟨row, found, present⟩
    exact ⟨⟨(ch, u), row⟩, ⟨AList.mem_lookup_iff.mp found, by simp [present]⟩, rfl⟩

/-- Nobody is listed twice. -/
theorem card_activeMembers : (db.activeMembers ch).card = (db.channelMembers ch).length := by
  have keys : (db.members.entries.map Sigma.fst).Nodup := db.members.nodupKeys
  have nodup : ((db.channelMembers ch).map Prod.fst).Nodup := by
    simp only [channelMembers, List.map_map]
    refine List.Nodup.map_on ?_ ((List.Nodup.of_map _ keys).filter _)
    rintro ⟨⟨c, a⟩, row⟩ he ⟨⟨c', a'⟩, row'⟩ he' same
    obtain ⟨entry, active⟩ := List.mem_filter.mp he
    obtain ⟨entry', active'⟩ := List.mem_filter.mp he'
    obtain ⟨rfl, -⟩ : c = ch ∧ row.left = false := by simpa using active
    obtain ⟨rfl, -⟩ : c' = c ∧ row'.left = false := by simpa using active'
    cases (show a = a' from same)
    have found := AList.mem_lookup_iff.mpr entry
    rw [AList.mem_lookup_iff.mpr entry'] at found
    cases found
    rfl
  rw [activeMembers, List.toFinset_card_of_nodup nodup, List.length_map]

/-! ## Statements -/

/-- A member row belongs to a channel. -/
def Sound (db : Database) : Prop := ∀ k ∈ db.members, k.1 ∈ db.channels

theorem Sound.channel (sound : db.Sound) (member : db.isChannelMember ch u = true) :
    ch ∈ db.channels := by
  obtain ⟨row, found, -⟩ := isChannelMember_iff.mp member
  exact sound (ch, u) (AList.lookup_isSome.mp (by simp [found]))

theorem joinChannel_members (h : db.joinChannel ch u = some db') : ∃ role,
    db' = { db with members := db.members.insert (ch, u) ⟨role, false⟩ } ∧ ch ∈ db.channels := by
  obtain ⟨given, h⟩ := Option.ite_none_right_eq_some.mp h
  cases h
  exact ⟨_, rfl, given.1⟩

theorem joinChannel_active (h : db.joinChannel ch u = some db') (ch' : UUID) :
    db'.activeMembers ch' =
      if ch' = ch then insert u (db.activeMembers ch') else db.activeMembers ch' := by
  obtain ⟨role, rfl, -⟩ := joinChannel_members h
  ext v
  by_cases here : ch' = ch
  · subst here
    by_cases same : v = u
    · subst same
      simp [isChannelMember]
    · simp [isChannelMember, same]
  · simp [isChannelMember, here]

theorem leaveChannel_active (ch u ch' : UUID) : (db.leaveChannel ch u).activeMembers ch' =
    if ch' = ch then (db.activeMembers ch').erase u else db.activeMembers ch' := by
  ext v
  by_cases here : ch' = ch
  · subst here
    rw [if_pos rfl, Finset.mem_erase, mem_activeMembers, mem_activeMembers]
    by_cases same : v = u
    · subst same
      cases row : db.members.lookup (ch', v) <;> simp [leaveChannel, isChannelMember, row]
    · cases row : db.members.lookup (ch', u) <;> simp [leaveChannel, isChannelMember, row, same]
  · cases row : db.members.lookup (ch, u) <;> simp [leaveChannel, isChannelMember, row, here]

/-- Members are inserted unless they have a row. -/
theorem memberRows_lookup (rows : Table (UUID × UUID) Membership) (ch creator : UUID)
    (us : List UUID) (k : UUID × UUID) : (memberRows rows ch creator us).lookup k =
      (rows.lookup k).or (if k.1 = ch ∧ k.2 ∈ us then
        some ⟨if k.2 = creator then "owner" else "member", false⟩ else none) := by
  induction us generalizing rows with
  | nil => simp [memberRows]
  | cons u us ih =>
    refine (ih _).trans ?_
    obtain ⟨c, v⟩ := k
    have step : (if (ch, u) ∈ rows then rows else rows.insert (ch, u)
        ⟨if u = creator then "owner" else "member", false⟩).lookup (c, v) =
          (rows.lookup (c, v)).or (if c = ch ∧ v = u then
            some ⟨if v = creator then "owner" else "member", false⟩ else none) := by
      by_cases same : (c, v) = (ch, u)
      · cases same
        by_cases present : (ch, u) ∈ rows
        · obtain ⟨row, found⟩ := Option.isSome_iff_exists.mp (AList.lookup_isSome.mpr present)
          simp [present, found]
        · simp [present, AList.lookup_eq_none.mpr present]
      · have other : ¬ (c = ch ∧ v = u) := fun h => same (Prod.ext h.1 h.2)
        rw [if_neg other, Option.or_none]
        split
        · rfl
        · exact AList.lookup_insert_ne same
    rw [step, Option.or_assoc]
    congr 1
    by_cases here : c = ch <;> by_cases first : v = u <;> simp [here, first]

theorem createChannel_active {type name : String} {creator : UUID} {us : List UUID}
    (sound : db.Sound) (h : db.createChannel ch type name creator us = some db') (ch' : UUID) :
    db'.activeMembers ch' = if ch' = ch then us.toFinset else db.activeMembers ch' := by
  obtain ⟨⟨fresh, -⟩, h⟩ := Option.ite_none_right_eq_some.mp h
  cases h
  ext v
  by_cases here : ch' = ch
  · subst here
    have none : db.members.lookup (ch', v) = none :=
      AList.lookup_eq_none.mpr fun mem => fresh (sound _ mem)
    simp only [mem_activeMembers, isChannelMember, memberRows_lookup, none]
    by_cases given : v ∈ us <;> simp [given]
  · simp [isChannelMember, memberRows_lookup, here]

end Database

/-! ## What a request does to the members -/

/-- The request asks to join a channel. -/
def ChannelRequest.joins : ChannelRequest → Bool
  | .grpcJoinChannel _ _ | .httpJoinChannel _ => true
  | _ => false

/-- The request asks to add a member. -/
def ChannelRequest.adds : ChannelRequest → Bool
  | .httpAddMember _ => true
  | _ => false

/-- How a request lets users in: it creates a channel of the allowed size, it joins a channel
itself, or it adds somebody. -/
def Op.Admits (S : Platform) (req : ChannelRequest) : Op → Prop
  | .createChannel _ _ _ _ memberIDs => memberIDs.Nodup ∧ memberIDs.length ≤ S.maxChannelMembers
  | .joinChannel _ u => req.joins ∧ req.From S u ∨ req.adds ∧ ∃ v, req.From S v
  | _ => True

section Footprints
variable {S : Platform} {request : ChannelRequest}

theorem saveWelcomes_admits (channelID : UUID) (welcomes : List (String × Bytes)) :
    (saveWelcomes S channelID welcomes).All (Op.Admits S request) := by
  induction welcomes with
  | nil => trivial
  | cons w rest ih =>
    unfold saveWelcomes
    cases S.parseUUID w.1 with
    | none => exact ih
    | some userID => by_cases empty : w.2 = [] <;> simpa [empty, Op.Admits] using ih

theorem createChannel_admits {ctx : Context} {req : CreateChannelRequest} :
    (createChannel S ctx req).All (Op.Admits S request) := by
  unfold createChannel
  split
  · trivial
  · split
    · trivial
    · dsimp only
      split
      · trivial
      · rename_i fits
        refine ⟨trivial, fun channelID => ⟨⟨List.nodup_dedup _, not_lt.mp fits⟩, fun created => ?_⟩⟩
        cases created with
        | error => trivial
        | ok =>
          refine ⟨trivial, fun members => ?_⟩
          cases members with
          | error => trivial
          | ok members =>
            refine (saveWelcomes_admits channelID req.memberWelcomes).bind fun _ => ?_
            by_cases empty : req.initialCommit = [] <;> simp [empty, Op.Admits]

theorem joinChannel_admits {ctx : Context} {channelId : String} (joins : request.joins)
    (h : ∀ u, S.parseUUID ctx.userID = some u → request.From S u) :
    (joinChannel S ctx channelId).All (Op.Admits S request) := by
  unfold joinChannel
  split
  · trivial
  · rename_i userID caller
    split
    · trivial
    · refine ⟨trivial, fun existing => Prog.all_ite.mpr ⟨fun _ => trivial, fun _ => ?_⟩⟩
      refine ⟨.inl ⟨joins, h userID (getUserIDFromCtx_ok caller)⟩, fun joined => ?_⟩
      cases joined with
      | error => trivial
      | ok => exact ⟨trivial, fun welcome => by cases welcome <;> trivial⟩

theorem leaveChannel_admits {ctx : Context} {channelId : String} :
    (leaveChannel S ctx channelId).All (Op.Admits S request) := by
  unfold leaveChannel
  split
  · trivial
  · split
    · trivial
    · exact ⟨trivial, fun left => by cases left <;> trivial⟩

theorem commitEpoch_admits {ctx : Context} {req : CommitEpochRequest} :
    (commitEpoch S ctx req).All (Op.Admits S request) := by
  unfold commitEpoch
  repeat' split
  any_goals trivial
  refine ⟨trivial, fun member => ?_⟩
  rcases member with _ | _ | _
  · trivial
  · trivial
  · exact ⟨trivial, fun saved => by cases saved <;> trivial⟩

theorem saveCommit_admits {channelID callerID : UUID} {body : MemberBody} :
    (saveCommit channelID callerID body).All (Op.Admits S request) := by
  by_cases empty : body.commit_data = "" <;> simp [saveCommit, empty, Op.Admits]

/-- A request of a member acts in the name of its caller. -/
theorem asMember_admits {α : Type} {req : HttpRequest MemberBody}
    {handler : UUID → UUID → UUID → Proc (HttpAnswer α)}
    (h : ∀ token ∈ req.token, token.signed → ∀ channelID targetID callerID,
      S.parseUUID token.payload.sub = some callerID →
      (handler channelID targetID callerID).All (Op.Admits S request)) :
    (asMember S req handler).All (Op.Admits S request) := by
  refine authenticated_all trivial fun token bearer signed => ?_
  split
  · trivial
  · rename_i channelID targetID callerID ids
    refine ⟨trivial, fun member => ?_⟩
    rcases member with _ | _ | _
    · trivial
    · trivial
    · exact h token bearer signed channelID targetID callerID (memberIDs_caller ids)

end Footprints

/-- A request lets in only whom it may let in. -/
theorem ChannelRequest.handle_admits {S : Platform} (req : ChannelRequest) :
    (req.handle S).All (Op.Admits S req) := by
  cases req with
  | grpcCreateChannel token body =>
    refine run_all ?_
    apply interceptor_all
    · exact methods_guarded "/chat.v1.ChannelService/CreateChannel" (by simp)
    · trivial
    · exact fun _ _ _ => createChannel_admits
  | grpcJoinChannel token channelId =>
    refine run_all ?_
    apply interceptor_all
    · exact methods_guarded "/chat.v1.ChannelService/JoinChannel" (by simp)
    · trivial
    · intro token' bearer signed
      exact joinChannel_admits rfl fun u caller => ⟨token', bearer, signed, caller⟩
  | grpcLeaveChannel token channelId =>
    refine run_all ?_
    apply interceptor_all
    · exact methods_guarded "/chat.v1.ChannelService/LeaveChannel" (by simp)
    · trivial
    · exact fun _ _ _ => leaveChannel_admits
  | grpcCommitEpoch token body =>
    refine run_all ?_
    apply interceptor_all
    · exact methods_guarded "/chat.v1.ChannelService/CommitEpoch" (by simp)
    · trivial
    · exact fun _ _ _ => commitEpoch_admits
  | httpCreateChannel body =>
    refine run_all (authenticated_all trivial fun _ _ _ => ?_)
    split
    · trivial
    · exact Prog.All.bind createChannel_admits fun r => by cases r <;> trivial
  | httpJoinChannel body =>
    refine run_all (authenticated_all trivial fun token bearer signed => ?_)
    refine Prog.All.bind (joinChannel_admits rfl fun u caller => ?_) fun r => by cases r <;> trivial
    exact ⟨token, bearer, signed, caller⟩
  | httpLeaveChannel body =>
    refine run_all (authenticated_all trivial fun _ _ _ => ?_)
    exact Prog.All.bind leaveChannel_admits fun r => by cases r <;> trivial
  | httpCommitEpoch body =>
    refine run_all (authenticated_all trivial fun _ _ _ => ?_)
    split
    · trivial
    · refine Prog.All.bind commitEpoch_admits fun r => ?_
      cases r with
      | error err =>
        dsimp only
        split <;> trivial
      | ok => trivial
  | httpAddMember body =>
    refine run_all (asMember_admits fun token bearer signed ch target u caller => ?_)
    refine ⟨.inr ⟨rfl, u, token, bearer, signed, caller⟩, fun joined => ?_⟩
    cases joined with
    | error => trivial
    | ok =>
      have save : ((saveCommit ch u body.body).bind fun _ => .pure (.ok (ch, target)) :
          Proc (HttpAnswer (UUID × UUID))).All (Op.Admits S (httpAddMember body)) :=
        saveCommit_admits.bind fun _ => trivial
      exact Prog.all_ite.mpr ⟨fun _ => ⟨trivial, fun _ => save⟩, fun _ => save⟩
  | httpRemoveMember body =>
    refine run_all (asMember_admits fun _ _ _ ch target u _ => ⟨trivial, fun left => ?_⟩)
    cases left with
    | error => trivial
    | ok =>
      have save : (saveCommit ch u body.body).All (Op.Admits S (httpRemoveMember body)) :=
        saveCommit_admits
      exact save.bind fun _ => trivial
  | httpSaveWelcome body =>
    refine run_all (asMember_admits fun _ _ _ ch target u _ => ⟨trivial, fun saved => ?_⟩)
    cases saved <;> trivial

/-! ## What an operation does to the members -/

/-- An operation creates a channel, lets a user join or leave, or keeps all members. -/
inductive Op.Moves (db db' : Database) (c : Choice) : Op → Prop where
  | create {ch type name creator us} : c ≠ .fail →
    db.createChannel ch type name creator us = some db' →
    Moves db db' c (.createChannel ch type name creator us)
  | join {ch u} : c ≠ .fail → db.joinChannel ch u = some db' → Moves db db' c (.joinChannel ch u)
  | leave {ch u} : c ≠ .fail → db' = db.leaveChannel ch u → Moves db db' c (.leaveChannel ch u)
  | keep {op} : db'.members = db.members → db'.channels = db.channels → Moves db db' c op

theorem exec_moves {s s' : Server} {op : Op} {c : Choice} {r : Ret op}
    (h : s.exec op c = some (r, s')) : op.Moves s.db s'.db c := by
  rcases Server.exec_db h with same | ⟨effect, applied⟩
  · exact .keep (by rw [same]) (by rw [same])
  · by_cases part : op.part = some .channels
    · cases op with
      | createChannel => exact .create applied effect
      | joinChannel => exact .join applied effect
      | leaveChannel => exact .leave applied (Option.some.inj effect).symm
      | saveMlsWelcome =>
        obtain ⟨_, shape⟩ := Database.upsertWelcome_shape effect
        exact .keep (by rw [shape]) (by rw [shape])
      | _ => cases part
    · obtain ⟨channels, members, -⟩ := Server.effect_same effect part
      exact .keep members channels

theorem change_members {s s' : Server} {e : Change} (h : s.change e = some s') :
    s'.db.members = s.db.members ∧ s'.db.channels = s.db.channels := by
  cases e with
  | addDevice =>
    obtain ⟨-, h⟩ := Option.ite_none_right_eq_some.mp h
    cases h
    exact ⟨rfl, rfl⟩
  | _ =>
    cases h
    exact ⟨rfl, rfl⟩

section Moves
variable {db db' : Database} {op : Op} {c : Choice}

/-- Channels stay. -/
theorem Op.Moves.channels (h : op.Moves db db' c) {ch : UUID} (mem : ch ∈ db.channels) :
    ch ∈ db'.channels := by
  cases h with
  | create applied effect =>
    obtain ⟨-, created⟩ := Option.ite_none_right_eq_some.mp effect
    rw [← Option.some.inj created]
    exact (AList.mem_insert _).mpr (.inr mem)
  | join applied effect =>
    obtain ⟨role, joined, -⟩ := Database.joinChannel_members effect
    rwa [joined]
  | @leave ch u applied effect =>
    obtain ⟨members, left⟩ := @Database.leaveChannel_shape db ch u
    rwa [effect, left]
  | keep members channels => rwa [channels]

/-- Member rows belong to channels. -/
theorem Op.Moves.sound (h : op.Moves db db' c) (sound : db.Sound) : db'.Sound := by
  intro k mem
  cases h with
  | @create ch type name creator us applied effect =>
    obtain ⟨-, created⟩ := Option.ite_none_right_eq_some.mp effect
    rw [← Option.some.inj created] at mem ⊢
    rw [← AList.lookup_isSome, Database.memberRows_lookup] at mem
    rw [AList.mem_insert]
    by_cases here : k.1 = ch
    · exact .inl here
    · simp only [here, false_and, if_false, Option.or_none] at mem
      exact .inr (sound k (AList.lookup_isSome.mp mem))
  | join applied effect =>
    obtain ⟨role, joined, channel⟩ := Database.joinChannel_members effect
    rw [joined] at mem ⊢
    rcases (AList.mem_insert _).mp mem with rfl | old
    · exact channel
    · exact sound k old
  | @leave ch u applied effect =>
    rw [effect] at mem ⊢
    cases row : db.members.lookup (ch, u) with
    | none =>
      simp only [Database.leaveChannel, row] at mem ⊢
      exact sound k mem
    | some old =>
      simp only [Database.leaveChannel, row, AList.mem_insert] at mem ⊢
      rcases mem with rfl | mem
      · exact sound (ch, u) (AList.lookup_isSome.mp (by simp [row]))
      · exact sound k mem
  | keep members channels =>
    rw [channels]
    rw [members] at mem
    exact sound k mem

end Moves

/-! ## Runs -/

/-- Any number of requests at a time, from a database without channels. -/
abbrev memberService (S : Platform) : Service Op Ret Unit ChannelRequest Change where
  system := system
  init s := s.db.channels = ∅ ∧ s.db.members = ∅
  env := Server.change
  body req := req.handle S

section Runs
variable {S : Platform}

/-- A step moves members by the operation that a request issues, or keeps them all. -/
theorem member_step {p q : Pool (memberService S)} {l : PoolLabel (memberService S)}
    (h : Pool.step p l = some q) :
    (∃ i c req op, l = .run i c ∧ p.next i = some (req, op) ∧
      op.Moves p.shared.db q.shared.db c) ∨
    q.shared.db.members = p.shared.db.members ∧ q.shared.db.channels = p.shared.db.channels := by
  cases l with
  | spawn req =>
    cases h
    exact .inr ⟨rfl, rfl⟩
  | env e =>
    obtain ⟨s, hs, rfl⟩ := Pool.env_cases h
    exact .inr (change_members hs)
  | run i c =>
    obtain ⟨req, op, k, r, s, thread, hr, rfl⟩ := Pool.run_cases h
    exact .inl ⟨i, c, req, op, rfl, Pool.next_call thread, exec_moves hr⟩

theorem sound_empty {s : Server} (h : (memberService S).init s) : s.db.Sound := by
  intro k mem
  rw [h.2] at mem
  simp at mem

theorem sound_reach {ok : Pool (memberService S) → PoolLabel (memberService S) → Prop}
    {p : Pool (memberService S)} (hp : (Pool.machine (memberService S)).Reach ok p) :
    p.shared.db.Sound := by
  refine hp.invariant (I := fun p => p.shared.db.Sound) ?_ fun p l q sound _ h => ?_
  · rintro _ ⟨s, hs, rfl⟩
    exact sound_empty hs
  · rcases member_step h with ⟨i, c, req, op, -, -, moves⟩ | ⟨members, channels⟩
    · exact moves.sound sound
    · have kept : Op.now.Moves p.shared.db q.shared.db .ok := .keep members channels
      exact kept.sound sound

/-! ## Capacity -/

/-- No channel has more active members than `getMaxChannelMembers` allows. -/
def WithinCapacity (p : Pool (memberService S)) : Prop :=
  ∀ ch, (p.shared.db.channelMembers ch).length ≤ S.maxChannelMembers

/-- The operation lets nobody in, or somebody who is in already, or there is a place left. -/
def Op.FindsRoom (S : Platform) (s : Server) (op : Op) (c : Choice) : Prop :=
  match op with
  | .joinChannel ch u => c = .fail ∨ s.db.joinChannel ch u = none ∨
    s.db.isChannelMember ch u = true ∨ (s.db.channelMembers ch).length < S.maxChannelMembers
  | _ => True

instance (s : Server) (op : Op) (c : Choice) : Decidable (op.FindsRoom S s c) :=
  match op with
  | .joinChannel _ _ => inferInstanceAs (Decidable (_ ∨ _))
  | .now | .newUUID | .allow | .begin | .createChannel .. | .getChannelMembers ..
  | .leaveChannel .. | .isChannelMember .. | .saveMlsWelcome .. | .getMlsWelcome ..
  | .saveMlsCommit .. | .getDeviceByID .. | .getDevicesByUser .. | .updateDeviceIdentityKey ..
  | .uploadPreKeyBundle .. | .uploadOneTimeKeys .. | .getRemainingOneTimeKeyCount ..
  | .selectIdentityKey .. | .selectPreKeys .. | .takeOneTimeKey .. | .commit .. | .rollback ..
  | .saveMlsKeyPackage .. | .getActiveMlsKeyPackage .. | .registerPushToken ..
  | .getPushTokensForUser .. | .unregisterPushToken .. | .createAuthSession ..
  | .getAuthSession .. | .revokeAuthSession .. => instDecidableTrue

/-- Whoever is let in finds a place. -/
def FindsRoom (p : Pool (memberService S)) : PoolLabel (memberService S) → Prop
  | .run i c => ∀ x ∈ p.next i, x.2.FindsRoom S p.shared c
  | _ => True

instance : ∀ (p : Pool (memberService S)) l, Decidable (FindsRoom p l)
  | p, .run i c => inferInstanceAs (Decidable (∀ x ∈ p.next i, x.2.FindsRoom S p.shared c))
  | _, .spawn _ => instDecidableTrue
  | _, .env _ => instDecidableTrue

theorem withinCapacity_iff {p : Pool (memberService S)} : WithinCapacity p ↔
    ∀ ch, (p.shared.db.activeMembers ch).card ≤ S.maxChannelMembers := by
  simp only [WithinCapacity, Database.card_activeMembers]

theorem withinCapacity_step {p q : Pool (memberService S)} {l : PoolLabel (memberService S)}
    (hp : (Pool.machine (memberService S)).Reachable p) (room : FindsRoom p l)
    (h : Pool.step p l = some q) (within : WithinCapacity p) : WithinCapacity q := by
  rw [withinCapacity_iff] at within ⊢
  intro ch'
  have kept (members : q.shared.db.members = p.shared.db.members) :
      (q.shared.db.activeMembers ch').card ≤ S.maxChannelMembers := by
    have same : q.shared.db.activeMembers ch' = p.shared.db.activeMembers ch' := by
      simp only [Database.activeMembers, Database.channelMembers, members]
    rw [same]
    exact within ch'
  rcases member_step h with ⟨i, c, req, op, rfl, next, moves⟩ | ⟨members, -⟩
  · cases moves with
    | @create ch type name creator us applied effect =>
      obtain ⟨k, thread⟩ := Pool.call_of_next next
      have footprint := (Pool.threads_all (Op.Admits S) (fun _ req _ => req.handle_admits) hp).1
      obtain ⟨-, fits⟩ : us.Nodup ∧ us.length ≤ S.maxChannelMembers :=
        (footprint _ (List.mem_of_getElem? thread)).1
      rw [Database.createChannel_active (sound_reach hp) effect]
      split
      · exact (List.toFinset_card_le us).trans fits
      · exact within ch'
    | @join ch u applied effect =>
      rw [Database.joinChannel_active effect]
      split
      · rename_i here
        subst here
        rcases room _ next with failed | refused | member | free
        · exact absurd failed applied
        · rw [refused] at effect
          cases effect
        · rw [Finset.insert_eq_of_mem (Database.mem_activeMembers.mpr member)]
          exact within ch'
        · rw [← Database.card_activeMembers] at free
          exact (Finset.card_insert_le _ _).trans free
      · exact within ch'
    | leave applied effect =>
      rw [effect, Database.leaveChannel_active]
      split
      · exact (Finset.card_erase_le).trans (within ch')
      · exact within ch'
    | keep members channels => exact kept members
  · exact kept members

/-- As long as whoever is let in finds a place, no channel exceeds its capacity. -/
theorem members_within_capacity {p : Pool (memberService S)}
    (hp : (Pool.machine (memberService S)).Reach FindsRoom p) : WithinCapacity p := by
  induction hp with
  | start hs =>
    obtain ⟨s, ⟨-, empty⟩, rfl⟩ := hs
    intro ch
    simp [Pool.start, Database.channelMembers, empty]
  | step hp room h ih => exact withinCapacity_step hp.reachable room h ih

/-- A join without a place exceeds the capacity, if the channel was full. -/
theorem findsRoom_of_within {p q : Pool (memberService S)} {l : PoolLabel (memberService S)}
    (h : Pool.step p l = some q) (within : WithinCapacity q) : FindsRoom p l := by
  cases l with
  | spawn => trivial
  | env => trivial
  | run i c =>
    rintro ⟨req, op⟩ next
    cases op with
    | joinChannel ch u =>
      cases effect : p.shared.db.joinChannel ch u with
      | none => exact .inr (.inl effect)
      | some db =>
        obtain ⟨k, thread⟩ := Pool.call_of_next next
        obtain ⟨_, _, _, r, s, thread', hr, rfl⟩ := Pool.run_cases h
        rw [thread] at thread'
        cases thread'
        have write : p.shared.write (some db) c = some (r, s) := effect ▸ hr
        rcases Server.write_cases write with ⟨-, none | failed⟩ | ⟨d, hd, rfl, -⟩
        · cases none
        · exact .inl failed
        · cases hd
          by_cases member : p.shared.db.isChannelMember ch u = true
          · exact .inr (.inr (.inl member))
          · refine .inr (.inr (.inr ?_))
            have count := withinCapacity_iff.mp within ch
            rw [Database.joinChannel_active effect, if_pos rfl, Finset.card_insert_of_notMem
              (Database.mem_activeMembers.not.mpr member), Database.card_activeMembers] at count
            exact count
    | _ => trivial

/-- The runs in which everybody finds a place are the runs within the capacity. -/
theorem findsRoom_iff_withinCapacity {p : Pool (memberService S)} :
    (Pool.machine (memberService S)).Reach FindsRoom p ↔
      (Pool.machine (memberService S)).Reach
        (fun p l => ∀ q, Pool.step p l = some q → WithinCapacity q) p := by
  constructor
  · intro hp
    induction hp with
    | start hs => exact .start hs
    | step hp room h ih =>
      exact ih.step (fun q h => withinCapacity_step hp.reachable room h
        (members_within_capacity hp)) h
  · intro hp
    induction hp with
    | start hs => exact .start hs
    | step _ within h ih => exact ih.step (findsRoom_of_within h (within _ h)) h

end Runs

/-! ## A channel of two -/

namespace Sample

def carol : UUID := ⟨"b7a9e2d4-5f13-4c86-9d0e-2a4c6e8f1b06"⟩

/-- A platform with room for two. -/
def smallPlatform : Platform :=
  { platform with
    parseUUID := fun text =>
      [alice, alicePhone, bob, bobPhone, channel, carol].find? (·.text = text)
    parseUUID_empty := by rfl
    maxChannelMembers := 2 }

def threeUsers : Server where
  db := { Database.empty with users := [alice, bob, carol] }
  clock := clock
  begun := 0
  locks := ∅

/-- Alice creates a channel with Bob. -/
def createPair : List (PoolLabel (memberService smallPlatform)) :=
  [.spawn (.grpcCreateChannel (some aliceToken) ⟨"pair", .group, [bob.text], [], []⟩),
    .run 0 .ok, .run 0 (.uuid channel), .run 0 .ok, .run 0 .ok]

/-- She adds Carol. -/
def addCarol : List (PoolLabel (memberService smallPlatform)) :=
  [.spawn (.httpAddMember ⟨.post, some aliceToken,
      ⟨channel.text, "", carol.text, "", 0, "", ""⟩, true⟩), .run 1 .ok, .run 1 .ok, .run 1 .ok]

abbrev memberships : Machine (Pool (memberService smallPlatform))
    (PoolLabel (memberService smallPlatform)) := Pool.machine (memberService smallPlatform)

def noChannels : Pool (memberService smallPlatform) := Pool.start _ threeUsers

theorem noChannels_reach {ok} : memberships.Reach ok noChannels :=
  .start ⟨threeUsers, ⟨rfl, rfl⟩, rfl⟩

theorem createPair_isSome : (memberships.follow FindsRoom noChannels createPair).isSome := by
  rfl

def pairCreated : Pool (memberService smallPlatform) :=
  (memberships.follow FindsRoom noChannels createPair).get createPair_isSome

theorem pairCreated_reach : memberships.Reach FindsRoom pairCreated :=
  noChannels_reach.follow (Option.some_get createPair_isSome).symm

theorem addCarol_isSome :
    (memberships.follow (fun _ _ => True) pairCreated addCarol).isSome := by
  rfl

theorem members_within_capacity_sample : WithinCapacity pairCreated :=
  members_within_capacity pairCreated_reach

/-- A full channel takes in another member. -/
theorem capacity_exceeded : ∃ p, memberships.Reachable p ∧
    (p.shared.db.channelMembers channel).length = 3 ∧ ¬ WithinCapacity p := by
  have count : (((memberships.follow (fun _ _ => True) pairCreated addCarol).get
      addCarol_isSome).shared.db.channelMembers channel).length = 3 := by rfl
  refine ⟨_, pairCreated_reach.reachable.follow (Option.some_get addCarol_isSome).symm, count, ?_⟩
  intro within
  have le := within channel
  rw [count] at le
  exact absurd le (by decide)

end Sample

end GenChat.Auth
