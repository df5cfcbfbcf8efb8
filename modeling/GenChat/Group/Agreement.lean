import GenChat.Group.Commits
import GenChat.Group.Welcome

/-!
# Agreement of the clients of a group

Clients that hold one state go on by themselves: each commits from the state that it has, and
applies what it receives to the state that it has then. They stay in agreement as long as commits
of one epoch come to the same state and no client skips an epoch.
-/
namespace GenChat.Group
open Library BrowserText
open Call (Kdf Member MlsLocalGroupState GroupOp)

/-! ## The clients of a group -/

/-- A commit with the state of its committer right after it. -/
structure SentCommit where
  commit : MlsCommitEnvelope
  state : MlsLocalGroupState
  deriving DecidableEq

/-- A method on its way: the client, the state that it has read and the one that it is about to
save, and the commit that it is about to send or that it applies. -/
structure Transition where
  client : Nat
  read : MlsLocalGroupState
  next : MlsLocalGroupState
  commit : MlsCommitEnvelope ⊕ SentCommit
  deriving DecidableEq

structure Clients where
  states : List MlsLocalGroupState
  transitions : List Transition
  sent : List SentCommit
  /-- The states that `applyIncomingCommit` has saved, each with its commit. -/
  applied : List (MlsLocalGroupState × SentCommit)
  deriving DecidableEq

/-- `advanceEpoch` and `addMember` start with `commit`, `applyIncomingCommit` with `deliver`, for
any commit that has been sent. -/
inductive Clients.Event where
  | commit (client : Nat) (committerUserId : String) (op : GroupOp)
  | deliver (client : Nat) (n : Nat)
  | finish (n : Nat)
  deriving DecidableEq

section
variable {Private Public : Type} (W : WebCrypto Private Public) (channelId : String)

def Clients.step (w : Clients) : Clients.Event → Option Clients
  | .commit client committerUserId op => w.states[client]?.map fun read =>
    match (nextState W read channelId op).bind fun next =>
      (commitEnvelope channelId committerUserId next op).map fun commit =>
        (⟨client, read, next, .inl commit⟩ : Transition) with
    | some transition => { w with transitions := w.transitions ++ [transition] }
    | none => w
  | .deliver client n => w.states[client]?.bind fun read => w.sent[n]?.map fun sent =>
    match applyIncomingCommit W read channelId sent.commit sent.commit.epoch with
    | some next =>
      { w with transitions := w.transitions ++ [⟨client, read, next, .inr sent⟩] }
    | none => w
  | .finish n => w.transitions[n]?.map fun transition =>
    { states := w.states.set transition.client transition.next
      transitions := w.transitions.eraseIdx n
      sent := match transition.commit with
        | .inl commit => w.sent ++ [⟨commit, transition.next⟩]
        | .inr _ => w.sent
      applied := match transition.commit with
        | .inl _ => w.applied
        | .inr sent => w.applied ++ [(transition.next, sent)] }

/-- Clients with equal states of one group. -/
def clients : Machine Clients Clients.Event where
  start w := (∀ a ∈ w.states, ∀ b ∈ w.states, Agree a b) ∧ w.transitions = [] ∧ w.sent = [] ∧
    w.applied = []
  step := Clients.step W channelId

end

/-- States of one epoch agree, and whatever was applied led to the state of the committer. -/
structure Clients.Agreement (w : Clients) : Prop where
  states : ∀ a ∈ w.states, ∀ b ∈ w.states, a.epoch = b.epoch → Agree a b
  applied : ∀ x ∈ w.applied, Agree x.1 x.2.state

/-- A commit comes to the same state as the others of its epoch, and one that is applied follows
the state that it is applied to. -/
def Clients.InOrder (w : Clients) : Clients.Event → Prop
  | .finish n => ∀ transition ∈ w.transitions[n]?,
    match transition.commit with
    | .inl _ => ∀ sent ∈ w.sent, sent.commit.epoch = transition.next.epoch →
        Agree sent.state transition.next
    | .inr sent => sent.commit.epoch = transition.read.epoch + 1
  | _ => True

/-! ## One commit -/

variable {Private Public : Type} {W : WebCrypto Private Public} {channelId : String}
  {a b c mine next state : MlsLocalGroupState}

theorem Agree.refl (a : MlsLocalGroupState) : Agree a a := ⟨rfl, rfl, rfl⟩

theorem Agree.symm (h : Agree a b) : Agree b a := ⟨h.1.symm, h.2.1.symm, h.2.2.symm⟩

theorem Agree.trans (h : Agree a b) (h' : Agree b c) : Agree a c :=
  ⟨h.1.trans h'.1, h.2.1.trans h'.2.1, h.2.2.trans h'.2.2⟩

theorem nextState_eq {op : GroupOp} (h : nextState W state channelId op = some next) :
    state.next W.kdf channelId op = some next :=
  (Option.ite_none_right_eq_some.mp h).2

/-- A commit moves its committer on by one epoch. -/
theorem commit_epoch {op : GroupOp} {committer : String} {commit : MlsCommitEnvelope}
    (moved : nextState W state channelId op = some next)
    (told : commitEnvelope channelId committer next op = some commit) :
    next.epoch = state.epoch + 1 ∧ commit.epoch = next.epoch := by
  have moved := nextState_eq moved
  cases op with
  | advanceEpoch removed =>
    cases moved
    cases told
    exact ⟨rfl, rfl⟩
  | addMember user key =>
    obtain ⟨-, moved⟩ := Option.ite_none_left_eq_some.mp moved
    cases moved
    cases told
    exact ⟨rfl, rfl⟩
  | applyIncomingCommit commit epoch => cases told

/-- Whoever agrees with the committer before the commit agrees with him after it. -/
theorem Agree.apply {op : GroupOp} {committer : String} {commit : MlsCommitEnvelope}
    (moved : nextState W state channelId op = some next)
    (told : commitEnvelope channelId committer next op = some commit) (agree : Agree mine state)
    {after : MlsLocalGroupState}
    (applied : applyIncomingCommit W mine channelId commit commit.epoch = some after) :
    Agree after next := by
  obtain ⟨epoch, secret, members⟩ := agree
  have moved := nextState_eq moved
  have applied := nextState_eq applied
  obtain ⟨later, applied⟩ := Option.ite_none_left_eq_some.mp applied
  have done := Option.some.inj applied
  cases op with
  | advanceEpoch removed =>
    cases moved
    cases told
    rw [← done]
    by_cases nobody : removed = ""
    · simp [Agree, MlsLocalGroupState.advanced, MlsLocalGroupState.nextSecret,
        MlsLocalGroupState.without, nobody, secret, members]
    · simp [Agree, MlsLocalGroupState.advanced, MlsLocalGroupState.nextSecret,
        MlsLocalGroupState.without, nobody, secret, members]
  | addMember user key =>
    obtain ⟨new, moved⟩ := Option.ite_none_left_eq_some.mp moved
    cases moved
    cases told
    rw [← done]
    have others : ∀ m ∈ state.members, ¬ m.userId = user :=
      fun m hm same => new (List.mem_map.mpr ⟨m, hm, same⟩)
    simpa [Agree, MlsLocalGroupState.advanced, MlsLocalGroupState.nextSecret,
      MlsLocalGroupState.without, secret, members] using fun _ => others
  | applyIncomingCommit commit epoch => cases told

/-! ## Runs -/

namespace Clients
variable {w w' : Clients}

/-- The states that some client of the group has come to. -/
def Line (start : MlsLocalGroupState) (w : Clients) (s : MlsLocalGroupState) : Prop :=
  Agree s start ∨ ∃ x ∈ w.sent, Agree s x.state

/-- What a run keeps: whatever happens is on the line, and a line has one state for an epoch. -/
structure Sound (W : WebCrypto Private Public) (channelId : String) (start : MlsLocalGroupState)
    (w : Clients) : Prop where
  states : ∀ s ∈ w.states, w.Line start s
  transitions : ∀ t ∈ w.transitions, w.Line start t.read ∧
    match t.commit with
    | .inl commit => ∃ op committer, nextState W t.read channelId op = some t.next ∧
        commitEnvelope channelId committer t.next op = some commit
    | .inr sent => sent ∈ w.sent ∧
        applyIncomingCommit W t.read channelId sent.commit sent.commit.epoch = some t.next
  sent : ∀ x ∈ w.sent, ∃ before op committer, w.Line start before ∧
    nextState W before channelId op = some x.state ∧
    commitEnvelope channelId committer x.state op = some x.commit
  unique : ∀ x ∈ w.sent, start.epoch < x.state.epoch ∧ ∀ y ∈ w.sent,
    x.state.epoch = y.state.epoch → Agree x.state y.state
  applied : ∀ x ∈ w.applied, Agree x.1 x.2.state

theorem Line.epoch_le {start s : MlsLocalGroupState} (sound : w.Sound W channelId start)
    (h : w.Line start s) : start.epoch ≤ s.epoch := by
  rcases h with same | ⟨x, hx, same⟩
  · exact same.1.ge
  · exact (same.1 ▸ (sound.unique x hx).1).le

/-- States of one epoch on the line agree. -/
theorem Sound.agree {start a b : MlsLocalGroupState} (sound : w.Sound W channelId start)
    (ha : w.Line start a) (hb : w.Line start b) (epoch : a.epoch = b.epoch) : Agree a b := by
  have later {s : MlsLocalGroupState} {x : SentCommit} (hx : x ∈ w.sent) (hs : Agree s x.state)
      (same : s.epoch = start.epoch) : False := by
    have := (sound.unique x hx).1
    rw [← hs.1, same] at this
    exact lt_irrefl _ this
  rcases ha with ha | ⟨x, hx, ha⟩ <;> rcases hb with hb | ⟨y, hy, hb⟩
  · exact ha.trans hb.symm
  · exact (later hy hb (epoch.symm.trans ha.1)).elim
  · exact (later hx ha (epoch.trans hb.1)).elim
  · have same : x.state.epoch = y.state.epoch := by rw [← ha.1, ← hb.1, epoch]
    exact ha.trans (((sound.unique x hx).2 y hy same).trans hb.symm)

theorem Line.mono {start s : MlsLocalGroupState} (sub : w.sent ⊆ w'.sent) (h : w.Line start s) :
    w'.Line start s :=
  h.imp id fun ⟨x, hx, same⟩ => ⟨x, sub hx, same⟩

/-- A commit that follows the state that it is applied to leads to the state of its committer. -/
theorem Sound.follow {start : MlsLocalGroupState} (sound : w.Sound W channelId start)
    {sent : SentCommit} {read next : MlsLocalGroupState} (hx : sent ∈ w.sent)
    (onLine : w.Line start read) (follows : sent.commit.epoch = read.epoch + 1)
    (applied : applyIncomingCommit W read channelId sent.commit sent.commit.epoch = some next) :
    Agree next sent.state := by
  obtain ⟨before, op, committer, hb, moved, told⟩ := sound.sent sent hx
  obtain ⟨up, same⟩ := commit_epoch moved told
  have epoch : read.epoch = before.epoch := by omega
  exact Agree.apply moved told (sound.agree onLine hb epoch) applied

theorem Sound.step {start : MlsLocalGroupState} {event : Event} (sound : w.Sound W channelId start)
    (ok : w.InOrder event) (h : w.step W channelId event = some w') :
    w'.Sound W channelId start := by
  cases event with
  | commit client committer op =>
    obtain ⟨read, known, rfl⟩ := Option.map_eq_some_iff.mp h
    split
    · rename_i transition begun
      obtain ⟨next, moved, rest⟩ := Option.bind_eq_some_iff.mp begun
      obtain ⟨commit, told, rfl⟩ := Option.map_eq_some_iff.mp rest
      refine { sound with transitions := fun t ht => ?_ }
      rcases List.mem_append.mp ht with old | new
      · exact sound.transitions t old
      · rw [List.mem_singleton.mp new]
        exact ⟨sound.states read (List.mem_of_getElem? known), op, committer, moved, told⟩
    · exact sound
  | deliver client n =>
    obtain ⟨read, known, h⟩ := Option.bind_eq_some_iff.mp h
    obtain ⟨sent, found, rfl⟩ := Option.map_eq_some_iff.mp h
    split
    · rename_i next applied
      refine { sound with transitions := fun t ht => ?_ }
      rcases List.mem_append.mp ht with old | new
      · exact sound.transitions t old
      · rw [List.mem_singleton.mp new]
        exact ⟨sound.states read (List.mem_of_getElem? known), List.mem_of_getElem? found, applied⟩
    · exact sound
  | finish n =>
    obtain ⟨t, begun, rfl⟩ := Option.map_eq_some_iff.mp h
    obtain ⟨onLine, source⟩ := sound.transitions t (List.mem_of_getElem? begun)
    have ok := ok t begun
    have rest : ∀ u ∈ w.transitions.eraseIdx n, u ∈ w.transitions :=
      fun u hu => List.mem_of_mem_eraseIdx hu
    cases source' : t.commit with
    | inr sent =>
      rw [source'] at source ok
      obtain ⟨hx, applied⟩ := source
      have agree := sound.follow hx onLine ok applied
      refine ⟨fun s hs => ?_, fun u hu => sound.transitions u (rest u hu), sound.sent,
        sound.unique, fun x hx' => ?_⟩
      · rcases List.mem_or_eq_of_mem_set hs with old | rfl
        · exact sound.states s old
        · exact .inr ⟨sent, hx, agree⟩
      · rcases List.mem_append.mp hx' with old | new
        · exact sound.applied x old
        · rw [List.mem_singleton.mp new]
          exact agree
    | inl commit =>
      rw [source'] at source ok
      obtain ⟨op, committer, moved, told⟩ := source
      obtain ⟨up, same⟩ := commit_epoch moved told
      have grow : w.sent ⊆ w.sent ++ [⟨commit, t.next⟩] := fun x hx => List.mem_append_left _ hx
      have own : (⟨commit, t.next⟩ : SentCommit) ∈ w.sent ++ [⟨commit, t.next⟩] :=
        List.mem_append_right _ (List.mem_singleton_self _)
      -- An old commit of the epoch has come to the same state.
      have alike (x : SentCommit) (hx : x ∈ w.sent) (epoch : x.state.epoch = t.next.epoch) :
          Agree x.state t.next := by
        obtain ⟨before, op', committer', -, moved', told'⟩ := sound.sent x hx
        exact ok x hx ((commit_epoch moved' told').2.trans epoch)
      have later : start.epoch < t.next.epoch := by
        have := Line.epoch_le sound onLine
        omega
      refine ⟨fun s hs => ?_, fun u hu => ?_, fun x hx => ?_, fun x hx => ?_, sound.applied⟩
      · rcases List.mem_or_eq_of_mem_set hs with old | rfl
        · exact (sound.states s old).mono grow
        · exact .inr ⟨_, own, .refl _⟩
      · obtain ⟨line, source⟩ := sound.transitions u (rest u hu)
        refine ⟨line.mono grow, ?_⟩
        cases which : u.commit with
        | inl c => simpa [which] using source
        | inr sent =>
          rw [which] at source
          exact ⟨grow source.1, source.2⟩
      · rcases List.mem_append.mp hx with old | new
        · obtain ⟨before, op', committer', line, rest⟩ := sound.sent x old
          exact ⟨before, op', committer', line.mono grow, rest⟩
        · rw [List.mem_singleton.mp new]
          exact ⟨t.read, op, committer, onLine.mono grow, moved, told⟩
      · rcases List.mem_append.mp hx with old | new
        · refine ⟨(sound.unique x old).1, fun y hy epoch => ?_⟩
          rcases List.mem_append.mp hy with old' | new'
          · exact (sound.unique x old).2 y old' epoch
          · rw [List.mem_singleton.mp new'] at epoch ⊢
            exact alike x old epoch
        · rw [List.mem_singleton.mp new]
          refine ⟨later, fun y hy epoch => ?_⟩
          rcases List.mem_append.mp hy with old' | new'
          · exact (alike y old' epoch.symm).symm
          · rw [List.mem_singleton.mp new']
            exact .refl _

end Clients

/-- In every run, states of one epoch agree, and whatever was applied led to the state of the
committer. -/
theorem clients_agree {w : Clients} (h : (clients W channelId).Reach Clients.InOrder w) :
    w.Agreement := by
  have sound : ∃ start, w.Sound W channelId start := by
    refine h.invariant (I := fun w => ∃ start, w.Sound W channelId start) ?_ ?_
    · rintro w ⟨equal, begun, sent, applied⟩
      have init (start : MlsLocalGroupState) (same : ∀ s ∈ w.states, Agree s start) :
          w.Sound W channelId start := by
        refine ⟨fun s hs => .inl (same s hs), ?_, ?_, ?_, ?_⟩ <;> simp [begun, sent, applied]
      cases states : w.states with
      | nil => exact ⟨⟨"", 0, 0, "", []⟩, init _ (by simp [states])⟩
      | cons s rest => exact ⟨s, init s fun a ha => equal a ha s (by simp [states])⟩
    · rintro w event w' ⟨start, sound⟩ ok step
      exact ⟨start, sound.step ok step⟩
  obtain ⟨start, sound⟩ := sound
  exact ⟨fun a ha b hb => sound.agree (sound.states a ha) (sound.states b hb), sound.applied⟩

/-! ## Alice and Bob add somebody each -/

namespace Sample

instance (a b : MlsLocalGroupState) : Decidable (Agree a b) := inferInstanceAs (Decidable (_ ∧ _))

instance (w : Clients) (event : Clients.Event) : Decidable (w.InOrder event) := by
  have own (t : Transition) : Decidable (match t.commit with
      | .inl _ => ∀ sent ∈ w.sent, sent.commit.epoch = t.next.epoch → Agree sent.state t.next
      | .inr sent => sent.commit.epoch = t.read.epoch + 1) := by
    cases t.commit <;> infer_instance
  cases event with
  | finish n => exact Option.decidableForallMem _
  | _ => exact .isTrue trivial

/-- The browsers of Alice and of Bob. -/
def together : Clients := ⟨[aliceState, { aliceState with myLeafIndex := 1 }], [], [], []⟩

theorem together_start : (clients crypto "chan_g").start together := by
  have same : ∀ s ∈ together.states, Agree s aliceState := by simp [together, Agree]
  exact ⟨fun a ha b hb => (same a ha).trans (same b hb).symm, rfl, rfl, rfl⟩

/-- Both commit before either has received the commit of the other. -/
def bothAdd : Option Clients :=
  (clients crypto "chan_g").follow (fun _ _ => True) together
    [.commit 0 "alice" (.addMember "carol" "0c"), .commit 1 "bob" (.addMember "dave" "0d"),
      .finish 0, .finish 0]

theorem bothAdd_isSome : bothAdd.isSome := by rfl

set_option maxRecDepth 20000

/-- Both are in epoch 1 then, with different members. -/
theorem concurrent_additions_disagree :
    ∃ w, (clients crypto "chan_g").Reachable w ∧ ¬ w.Agreement := by
  refine ⟨_, (Machine.Reach.start together_start).follow (Option.some_get bothAdd_isSome).symm,
    fun agreement => absurd agreement.states ?_⟩
  decide

/-- Alice adds Carol, Bob applies the commit, and then removes her. -/
def inTurn : Option Clients :=
  (clients crypto "chan_g").follow Clients.InOrder together
    [.commit 0 "alice" (.addMember "carol" "0c"), .finish 0, .deliver 1 0, .finish 0,
      .commit 1 "bob" (.advanceEpoch "carol"), .finish 0, .deliver 0 1, .finish 0]

theorem inTurn_isSome : inTurn.isSome := by rfl

theorem clients_agree_sample : ∃ w, (clients crypto "chan_g").Reach Clients.InOrder w ∧
    w.sent.length = 2 ∧ w.Agreement := by
  have start : (clients crypto "chan_g").Reach Clients.InOrder together := .start together_start
  have reach := start.follow (Option.some_get inTurn_isSome).symm
  exact ⟨_, reach, by rfl, clients_agree reach⟩

end Sample

end GenChat.Group
