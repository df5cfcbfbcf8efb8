import GenChat.Auth.Membership

/-!
# Removed members

`RemoveMember` marks the row of a member as left, and whatever joins the user again clears the mark.
`AddMember` asks first whether its caller is a member; `JoinChannel` asks nothing. A removed member
stays out until another member adds him exactly as long as nobody is let in on behalf of a caller
who is not a member himself.
-/
namespace GenChat.Auth
open Library

/-! ## Removals happen in channels -/

/-- The request asks to remove a member. -/
def ChannelRequest.removes : ChannelRequest → Bool
  | .httpRemoveMember _ => true
  | _ => false

/-- Channels stay, and members are removed from channels that exist. -/
def removalContract (req : ChannelRequest) : Contract system where
  inv s := s.db.Sound
  rely s s' := ∀ ch ∈ s.db.channels, ch ∈ s'.db.channels
  rely_refl _ _ := id
  rely_trans h h' ch mem := h' ch (h ch mem)
  admits _ _ _ := True
  req s op := ∀ ch u, req.removes → op = .leaveChannel ch u → ch ∈ s.db.channels

section Contract
variable {S : Platform} {C : Contract system}

theorem meets_authenticated {α β : Type} {methods : List Method} {req : HttpRequest β}
    {handler : JWTPayload → Proc (HttpAnswer α)} (now : ∀ s, C.req s .now)
    (h : ∀ claims s, Meets C (fun _ _ => True) (handler claims) s) (s : Server) :
    Meets C (fun _ _ => True) (authenticated methods req handler) s := by
  unfold authenticated
  split
  · exact Meets.pure fun _ _ _ => trivial
  · split
    · exact Meets.pure fun _ _ _ => trivial
    · refine fun t _ _ => ⟨now t, fun c time u _ _ => ?_⟩
      dsimp only [Prog.pure_bind]
      split
      · exact Meets.pure fun _ _ _ => trivial
      · exact h _ u

theorem httpRemoveMember_meets (body : HttpRequest MemberBody) (s : Server) :
    Meets (removalContract (.httpRemoveMember body)) (fun _ _ => True)
      (httpRemoveMember S body) s := by
  refine meets_authenticated (fun _ _ _ _ h => (by cases h)) (fun claims s => ?_) s
  split
  · exact Meets.pure fun _ _ _ => trivial
  · rename_i channelID targetID callerID ids
    refine fun t _ sound => ⟨fun _ _ _ h => (by cases h), fun c answer u _ hr => ?_⟩
    obtain ⟨rfl, ⟨-, rfl⟩ | ⟨-, rfl⟩⟩ := Server.query_eq_some.mp hr
    · cases member : u.db.isChannelMember channelID callerID with
      | false => exact Meets.pure fun _ _ _ => trivial
      | true =>
        -- The caller has a row, so there is a channel, which stays until the statement is issued.
        have channel := sound.channel member
        refine fun v kept _ => ⟨fun ch u _ h => ?_, fun c left w _ _ => ?_⟩
        · cases h
          exact kept _ channel
        · refine Meets.of_free ?_
          cases left with
          | error => trivial
          | ok =>
            by_cases empty : body.body.commit_data = "" <;>
              simp [saveCommit, empty, removalContract]
    · exact Meets.pure fun _ _ _ => trivial

theorem handle_meets (req : ChannelRequest) (s : Server) :
    Meets (removalContract req) (fun _ _ => True) (req.handle S) s := by
  cases req with
  | httpRemoveMember body =>
    refine Meets.bind ((httpRemoveMember_meets body s).mono fun _ t _ => ?_)
    exact Meets.pure fun _ _ _ => trivial
  | _ => exact Meets.of_free ((Prog.all_true _).mono fun op _ _ _ _ removes => by cases removes)

variable (S) in
def removalProtocol (ok) : Pool.Protocol (memberService S) ok where
  contract := removalContract
  inv s := s.db.Sound
  rely s s' := ∀ ch ∈ s.db.channels, ch ∈ s'.db.channels
  contract_inv _ := rfl
  contract_rely _ := rfl
  admitted _ _ _ _ _ _ _ _ := trivial
  init _ := sound_empty
  exec _ _ _ _ _ _ sound _ _ hr := ⟨(exec_moves hr).sound sound, fun _ => (exec_moves hr).channels⟩
  env p e s' _ sound he := by
    have moves : Op.now.Moves p.shared.db s'.db .ok :=
      .keep (change_members he).1 (change_members he).2
    exact ⟨moves.sound sound, fun _ => moves.channels⟩
  body p req _ _ := handle_meets req p.shared

theorem removal_channel {ok : Pool (memberService S) → PoolLabel (memberService S) → Prop}
    {p : Pool (memberService S)} (hp : (Pool.machine (memberService S)).Reach ok p) {i : Nat}
    {req : ChannelRequest} {ch u : UUID} (removes : req.removes)
    (next : p.next i = some (req, .leaveChannel ch u)) : ch ∈ p.shared.db.channels := by
  obtain ⟨k, thread⟩ := Pool.call_of_next next
  exact Pool.safe_next (removalProtocol S ok) hp thread ch u removes rfl

end Contract

/-! ## After a removal -/

section Removal
variable {S : Platform} (ch u : UUID) (p : Pool (memberService S))

/-- The user is not an active member of the channel. -/
def Absent : Prop := p.shared.db.isChannelMember ch u = false ∧
  ∀ role, (u, role) ∉ p.shared.db.channelMembers ch

/-- By the step, a request of another user removes `u` from the channel. -/
def Removes : PoolLabel (memberService S) → Prop
  | .run i c => c ≠ .fail ∧ ∃ req v, p.next i = some (req, .leaveChannel ch u) ∧ req.removes ∧
    req.From S v ∧ v ≠ u
  | _ => False

/-- By the step, another active member adds `u` to the channel. -/
def AddsBack : PoolLabel (memberService S) → Prop
  | .run i c => c ≠ .fail ∧ (p.shared.db.joinChannel ch u).isSome ∧ ∃ req v,
    p.next i = some (req, .joinChannel ch u) ∧ req.adds ∧ req.From S v ∧ v ≠ u ∧
      p.shared.db.isChannelMember ch v = true
  | _ => False

/-- Nobody lets `u` into the channel, unless a caller adds him who is a member at that moment. -/
def Vouched : PoolLabel (memberService S) → Prop
  | .run i c => ∀ req, p.next i = some (req, .joinChannel ch u) →
    c = .fail ∨ p.shared.db.joinChannel ch u = none ∨
      req.adds ∧ ∃ v, req.From S v ∧ p.shared.db.isChannelMember ch v = true
  | _ => True

variable {ch u p} {q r : Pool (memberService S)} {l : PoolLabel (memberService S)}

theorem absent_iff : Absent ch u p ↔ u ∉ p.shared.db.activeMembers ch := by
  rw [Absent, Database.mem_activeMembers, Bool.not_eq_true, and_iff_left_iff_imp]
  intro absent role mem
  have listed : u ∈ p.shared.db.activeMembers ch :=
    List.mem_toFinset.mpr (List.mem_map.mpr ⟨_, mem, rfl⟩)
  rw [Database.mem_activeMembers, absent] at listed
  cases listed

theorem absent_of_removes (removal : Removes ch u p l) (h : Pool.step p l = some q) :
    Absent ch u q := by
  cases l with
  | run i c =>
    obtain ⟨applied, req, v, next, -⟩ := removal
    obtain ⟨k, thread⟩ := Pool.call_of_next next
    obtain ⟨_, _, _, x, s, thread', hr, rfl⟩ := Pool.run_cases h
    rw [thread] at thread'
    cases thread'
    have write : p.shared.write (some (p.shared.db.leaveChannel ch u)) c = some (x, s) := hr
    rcases Server.write_cases write with ⟨-, none | failed⟩ | ⟨d, hd, rfl, -⟩
    · cases none
    · exact absurd failed applied
    · cases hd
      rw [absent_iff, Database.leaveChannel_active, if_pos rfl]
      exact Finset.notMem_erase _ _
  | spawn => exact removal.elim
  | env => exact removal.elim

/-- Where nobody adds him back, a step that is vouched for keeps a user out. -/
theorem absent_step (absent : Absent ch u p) (channel : ch ∈ p.shared.db.channels)
    (alone : ¬ AddsBack ch u p l) (vouched : Vouched ch u p l) (h : Pool.step p l = some q) :
    Absent ch u q := by
  have kept (members : q.shared.db.members = p.shared.db.members) : Absent ch u q := by
    simpa only [Absent, Database.isChannelMember, Database.channelMembers, members] using absent
  rcases member_step h with ⟨i, c, req, op, rfl, next, moves⟩ | ⟨members, -⟩
  · cases moves with
    | @create ch' type name creator us applied effect =>
      obtain ⟨⟨fresh, -⟩, created⟩ := Option.ite_none_right_eq_some.mp effect
      have other : ch ≠ ch' := by
        rintro rfl
        exact fresh channel
      rw [absent_iff, Database.mem_activeMembers] at absent ⊢
      rw [← Option.some.inj created]
      simpa [Database.isChannelMember, Database.memberRows_lookup, other] using absent
    | @join ch' u' applied effect =>
      rw [absent_iff] at absent ⊢
      rw [Database.joinChannel_active effect]
      split
      · rename_i here
        subst here
        rw [Finset.mem_insert, not_or]
        refine ⟨?_, absent⟩
        rintro rfl
        rcases vouched req next with failed | refused | ⟨adds, v, caller, member⟩
        · exact applied failed
        · rw [refused] at effect
          cases effect
        · refine alone ⟨applied, by simp [effect], req, v, next, adds, caller, ?_, member⟩
          rintro rfl
          exact absent (Database.mem_activeMembers.mpr member)
      · exact absent
    | @leave ch' u' applied effect =>
      rw [absent_iff] at absent ⊢
      rw [effect, Database.leaveChannel_active]
      split
      · exact fun mem => absent (Finset.mem_of_mem_erase mem)
      · exact absent
    | keep members channels => exact kept members
  · exact kept members

theorem channel_step (channel : ch ∈ p.shared.db.channels) (h : Pool.step p l = some q) :
    ch ∈ q.shared.db.channels := by
  rcases member_step h with ⟨i, c, req, op, -, -, moves⟩ | ⟨-, channels⟩
  · exact moves.channels channel
  · rwa [channels]

/-- After a removal, the user stays out until another member adds him, in every run whose steps
are vouched for. -/
theorem removed_stays_removed (hp : (Pool.machine (memberService S)).Reachable p)
    (removal : Removes ch u p l) (h : Pool.step p l = some q)
    (hr : ((Pool.machine (memberService S)).resume q).Reach
      (fun p l => ¬ AddsBack ch u p l ∧ Vouched ch u p l) r) : Absent ch u r := by
  have channel : ch ∈ p.shared.db.channels := by
    cases l with
    | run i c =>
      obtain ⟨-, req, v, next, removes, -⟩ := removal
      exact removal_channel hp removes next
    | spawn => exact removal.elim
    | env => exact removal.elim
  have both : Absent ch u r ∧ ch ∈ r.shared.db.channels := by
    induction hr with
    | start same =>
      subst same
      exact ⟨absent_of_removes removal h, channel_step channel h⟩
    | step _ ok h ih =>
      exact ⟨absent_step ih.1 ih.2 ok.1 ok.2 h, channel_step ih.2 h⟩
  exact both.1

/-- A step that is not vouched for lets the user in. -/
theorem vouched_of_absent (h : Pool.step p l = some q) (absent : Absent ch u q) :
    Vouched ch u p l := by
  cases l with
  | spawn => trivial
  | env => trivial
  | run i c =>
    intro req next
    by_contra unvouched
    simp only [not_or] at unvouched
    obtain ⟨applied, effective, -⟩ := unvouched
    obtain ⟨db, effect⟩ := Option.ne_none_iff_exists'.mp effective
    obtain ⟨k, thread⟩ := Pool.call_of_next next
    obtain ⟨_, _, _, x, s, thread', hr, rfl⟩ := Pool.run_cases h
    rw [thread] at thread'
    cases thread'
    have write : p.shared.write (some db) c = some (x, s) := effect ▸ hr
    rcases Server.write_cases write with ⟨-, none | failed⟩ | ⟨d, hd, rfl, -⟩
    · cases none
    · exact applied failed
    · cases hd
      rw [absent_iff, Database.joinChannel_active effect, if_pos rfl] at absent
      exact absent (Finset.mem_insert_self _ _)

/-- The runs vouched for are the runs in which the user stays out until he is added back. -/
theorem vouched_iff_absent (hp : (Pool.machine (memberService S)).Reachable p)
    (removal : Removes ch u p l) (h : Pool.step p l = some q) :
    ((Pool.machine (memberService S)).resume q).Reach
      (fun p l => ¬ AddsBack ch u p l ∧ Vouched ch u p l) r ↔
    ((Pool.machine (memberService S)).resume q).Reach
      (fun p l => ¬ AddsBack ch u p l ∧ ∀ q, Pool.step p l = some q → Absent ch u q) r := by
  constructor
  · intro hr
    induction hr with
    | start same => exact .start same
    | step before ok step ih =>
      refine ih.step ⟨ok.1, fun q' step' => ?_⟩ step
      exact removed_stays_removed hp removal h (before.step ok step')
  · intro hr
    induction hr with
    | start same => exact .start same
    | step _ ok step ih => exact ih.step ⟨ok.1, vouched_of_absent step (ok.2 _ step)⟩ step

end Removal

/-! ## Alice removes Bob -/

namespace Sample

/-- No request is about to join. -/
def noJoin (p : Pool (memberService platform)) : PoolLabel (memberService platform) → Bool
  | .run i _ => match p.next i with
    | some (_, .joinChannel _ _) => false
    | _ => true
  | _ => true

theorem noJoin_vouched {p : Pool (memberService platform)} {l : PoolLabel (memberService platform)}
    (h : noJoin p l = true) (ch u : UUID) : ¬ AddsBack ch u p l ∧ Vouched ch u p l := by
  cases l with
  | run i c =>
    have none (req : ChannelRequest) : p.next i ≠ some (req, .joinChannel ch u) := by
      intro next
      simp [noJoin, next] at h
    exact ⟨fun ⟨_, _, req, _, next, _⟩ => none req next, fun req next => absurd next (none req)⟩
  | spawn => exact ⟨id, trivial⟩
  | env => exact ⟨id, trivial⟩

/-- No request is about to add somebody. -/
def noAdd (p : Pool (memberService platform)) : PoolLabel (memberService platform) → Bool
  | .run i _ => match p.next i with
    | some (req, .joinChannel _ _) => !req.adds
    | _ => true
  | _ => true

theorem noAdd_addsBack {p : Pool (memberService platform)} {l : PoolLabel (memberService platform)}
    (h : noAdd p l = true) (ch u : UUID) : ¬ AddsBack ch u p l := by
  cases l with
  | run i c =>
    rintro ⟨-, -, req, v, next, adds, -⟩
    simp [noAdd, next, adds] at h
  | spawn => exact id
  | env => exact id

abbrev removals : Machine (Pool (memberService platform)) (PoolLabel (memberService platform)) :=
  Pool.machine (memberService platform)

def twoUsers : Server := { threeUsers with db := { Database.empty with users := [alice, bob] } }

/-- Alice creates a channel with Bob, and is about to remove him. -/
def removalPrepared : List (PoolLabel (memberService platform)) :=
  [.spawn (.grpcCreateChannel (some aliceToken) ⟨"pair", .group, [bob.text], [], []⟩),
    .run 0 .ok, .run 0 (.uuid channel), .run 0 .ok, .run 0 .ok,
    .spawn (.httpRemoveMember ⟨.post, some aliceToken,
      ⟨channel.text, "", bob.text, "", 0, "", ""⟩, true⟩), .run 1 .ok, .run 1 .ok]

theorem prepared_isSome : (removals.follow (fun _ _ => True)
    (Pool.start (memberService platform) twoUsers) removalPrepared).isSome := by rfl

def prepared : Pool (memberService platform) :=
  (removals.follow (fun _ _ => True) (Pool.start (memberService platform) twoUsers)
    removalPrepared).get prepared_isSome

theorem prepared_reach : removals.Reachable prepared := by
  have start : removals.Reachable (Pool.start (memberService platform) twoUsers) :=
    .start ⟨twoUsers, ⟨rfl, rfl⟩, rfl⟩
  exact start.follow (Option.some_get prepared_isSome).symm

theorem removed_isSome : (Pool.step prepared (.run 1 .ok)).isSome := by rfl

def removed : Pool (memberService platform) :=
  (Pool.step prepared (.run 1 .ok)).get removed_isSome

theorem removed_step : Pool.step prepared (.run 1 .ok) = some removed :=
  (Option.some_get removed_isSome).symm

theorem bob_removed : Removes channel bob prepared (.run 1 .ok) := by
  refine ⟨nofun, .httpRemoveMember ⟨.post, some aliceToken,
    ⟨channel.text, "", bob.text, "", 0, "", ""⟩, true⟩, alice, ?_, rfl, ⟨aliceToken, rfl, rfl, ?_⟩,
    by decide⟩
  · rfl
  · decide

/-- Bob tries to add himself. -/
def bobAdds : List (PoolLabel (memberService platform)) :=
  [.spawn (.httpAddMember ⟨.post, some bobToken,
    ⟨channel.text, "", bob.text, "", 0, "", ""⟩, true⟩), .run 2 .ok, .run 2 .ok]

/-- He joins the channel. -/
def bobJoins : List (PoolLabel (memberService platform)) :=
  [.spawn (.grpcJoinChannel (some bobToken) channel.text), .run 2 .ok, .run 2 .ok, .run 2 .ok]

theorem removed_continues :
    ((removals.resume removed).follow (noJoin · ·) removed bobAdds).isSome ∧
    ((removals.resume removed).follow (noAdd · ·) removed bobJoins).isSome := by
  decide

theorem bobAdds_isSome :
    ((removals.resume removed).follow (noJoin · ·) removed bobAdds).isSome :=
  removed_continues.1

theorem bobJoins_isSome :
    ((removals.resume removed).follow (noAdd · ·) removed bobJoins).isSome :=
  removed_continues.2

/-- He is refused, and stays out. -/
theorem removed_stays_removed_sample : Absent channel bob
    (((removals.resume removed).follow (noJoin · ·) removed bobAdds).get bobAdds_isSome) := by
  have run : (removals.resume removed).Reach (noJoin · ·)
      (((removals.resume removed).follow (noJoin · ·) removed bobAdds).get bobAdds_isSome) :=
    (Machine.Reach.start rfl).follow (Option.some_get bobAdds_isSome).symm
  exact removed_stays_removed prepared_reach bob_removed removed_step
    (run.mono fun _ _ h => noJoin_vouched h channel bob)

/-- A user who was removed joins the channel again by himself. -/
theorem removed_member_joins : ∃ p l q r, removals.Reachable p ∧ Removes channel bob p l ∧
    Pool.step p l = some q ∧ (removals.resume q).Reach (fun p l => ¬ AddsBack channel bob p l) r ∧
    r.shared.db.isChannelMember channel bob = true ∧ ¬ Absent channel bob r := by
  have run : (removals.resume removed).Reach (noAdd · ·)
      (((removals.resume removed).follow (noAdd · ·) removed bobJoins).get bobJoins_isSome) :=
    (Machine.Reach.start rfl).follow (Option.some_get bobJoins_isSome).symm
  have joined : (((removals.resume removed).follow (noAdd · ·) removed bobJoins).get
      bobJoins_isSome).shared.db.isChannelMember channel bob = true := by rfl
  refine ⟨prepared, _, removed, _, prepared_reach, bob_removed, removed_step,
    run.mono fun _ _ h => noAdd_addsBack h channel bob, joined, ?_⟩
  rintro ⟨absent, -⟩
  rw [joined] at absent
  cases absent

end Sample
end GenChat.Auth
