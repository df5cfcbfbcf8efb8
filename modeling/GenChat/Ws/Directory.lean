import GenChat.Ws.Cluster

/-!
# The directory follows the hubs

What the goroutines of a user on a pod have still to send is the sequence of their commands in the
order of launch. With it the directory is ahead of the hub by no transition: run to the end, the
pod is among the gateways of the user exactly if its hub holds a connection. A pod that drains
leaves the directory before its connections leave the hub.
-/
namespace GenChat.Ws
open Library Ledger

namespace Hub
variable {h : Hub} {c : Conn} {u : String}

theorem isOnline_register :
    (h.register c).isOnline u = (h.isOnline u || decide (c.userID = u)) := by
  rw [Bool.eq_iff_iff, Bool.or_eq_true, decide_eq_true_eq, isOnline_iff, isOnline_iff]
  constructor
  · rintro ⟨c', held, user⟩
    rcases holds_register.mp held with rfl | ⟨-, old⟩
    · exact .inr user
    · exact .inl ⟨c', old, user⟩
  · rintro (⟨c', held, user⟩ | user)
    · by_cases same : c'.key = c.key
      · exact ⟨c, holds_register.mpr (.inl rfl), (congrArg Prod.fst same).symm.trans user⟩
      · exact ⟨c', holds_register.mpr (.inr ⟨same, held⟩), user⟩
    · exact ⟨c, holds_register.mpr (.inl rfl), user⟩

theorem isOnline_unregister_of_ne (other : c.userID ≠ u) :
    (h.unregister c).isOnline u = h.isOnline u := by
  rw [Bool.eq_iff_iff, isOnline_iff, isOnline_iff]
  constructor
  · rintro ⟨c', held, user⟩
    exact ⟨c', (holds_unregister.mp held).2, user⟩
  · rintro ⟨c', held, user⟩
    have ne : c'.key ≠ c.key := fun eq => other ((congrArg Prod.fst eq).symm.trans user)
    exact ⟨c', holds_unregister.mpr ⟨ne, held⟩, user⟩

theorem isOnline_of_unregister (online : (h.unregister c).isOnline u = true) :
    h.isOnline u = true := by
  obtain ⟨c', held, user⟩ := isOnline_iff.mp online
  exact isOnline_iff.mpr ⟨c', (holds_unregister.mp held).2, user⟩

theorem isFirst_eq : h.isFirst c = !h.isOnline c.userID := by
  simp [isFirst, isOnline]

theorem isLast_eq : h.isLast c = (h.has c && !(h.unregister c).isOnline c.userID) := by
  simp [isLast, isOnline]

end Hub

namespace Hub
variable {h : Hub} {c : Conn} {u : String}

theorem isOnline_unregister_of_isLast (last : h.isLast c = true) :
    (h.unregister c).isOnline c.userID = false := by
  rw [isLast_eq, Bool.and_eq_true, Bool.not_eq_true'] at last
  exact last.2

theorem isOnline_unregister (stays : ¬ (h.isLast c = true ∧ c.userID = u)) :
    (h.unregister c).isOnline u = h.isOnline u := by
  by_cases user : c.userID = u
  · subst user
    have notLast : ¬ h.isLast c = true := fun last => stays ⟨last, rfl⟩
    rw [isLast_eq] at notLast
    cases found : h.has c with
    | false => rw [unregister_of_not_has found]
    | true =>
      have online : (h.unregister c).isOnline c.userID = true := by simpa [found] using notLast
      rw [online, isOnline_of_unregister online]
  · exact isOnline_unregister_of_ne user

end Hub

/-! ## Commands -/

/-- Whether the pod of a command is listed after it. -/
def Command.lists (listed : Bool) : Command → Bool
  | .sAdd => true
  | .sRem => false
  | _ => listed

/-- Whether the single key names the pod of a command after it. -/
def Command.names (named : Bool) : Command → Bool
  | .set => true
  | .del => false
  | _ => named

theorem foldl_mono {f : Bool → Command → Bool} (mono : ∀ c, Monotone (f · c))
    (commands : List Command) : Monotone (commands.foldl f ·) := by
  induction commands with
  | nil => exact monotone_id
  | cons c rest ih => exact fun _ _ le => ih (mono c le)

theorem Command.lists_mono (c : Command) : Monotone (lists · c) := by
  cases c <;> first | exact monotone_id | exact monotone_const

theorem Command.names_mono (c : Command) : Monotone (names · c) := by
  cases c <;> first | exact monotone_id | exact monotone_const

namespace Directory

def listed (d : Directory) (userID : String) (pod : PodID) : Bool := pod ∈ d.gateways userID

def named (d : Directory) (userID : String) (pod : PodID) : Bool := d.fallback userID = some pod

variable {d : Directory} {now : Nat} {u u' : String} {pod pod' : PodID} {c : Command}

theorem listed_exec : (d.exec now u pod c).listed u pod = Command.lists (d.listed u pod) c := by
  cases c with
  | set | del => rfl
  | expire =>
    simp only [exec]
    split <;> rfl
  | sAdd => simp [exec, listed, Command.lists]
  | sRem => simp [exec, listed, Command.lists]

theorem listed_exec_of_ne (other : u' = u → pod' ≠ pod) :
    (d.exec now u pod c).listed u' pod' = d.listed u' pod' := by
  cases c with
  | set | del => rfl
  | expire =>
    simp only [exec]
    split <;> rfl
  | sAdd =>
    by_cases same : u' = u
    · subst same
      simp [exec, listed, other rfl]
    · simp [exec, listed, same]
  | sRem =>
    by_cases same : u' = u
    · subst same
      simp [exec, listed, other rfl]
    · simp [exec, listed, same]

theorem named_exec : (d.exec now u pod c).named u pod = Command.names (d.named u pod) c := by
  cases c with
  | sAdd | sRem => rfl
  | expire =>
    simp only [exec]
    split <;> rfl
  | set => simp [exec, named, fallback, Command.names]
  | del => simp [exec, named, fallback, Command.names]

theorem fallback_exec_of_ne (other : u' ≠ u) :
    (d.exec now u pod c).fallback u' = d.fallback u' := by
  cases c with
  | sAdd | sRem => rfl
  | expire =>
    simp only [exec]
    split <;> rfl
  | set => simp [exec, fallback, Function.update_of_ne other]
  | del => simp [exec, fallback, Function.update_of_ne other]

theorem named_exec_le (other : u' = u → pod' ≠ pod) :
    (d.exec now u pod c).named u' pod' ≤ d.named u' pod' := by
  by_cases same : u' = u
  · subst same
    have ne := (other rfl).symm
    cases c with
    | sAdd | sRem => exact le_rfl
    | expire =>
      simp only [exec]
      split <;> exact le_rfl
    | set => simp [exec, named, fallback, ne]
    | del => simp [exec, named, fallback]
  · exact le_of_eq (congrArg (fun pod => decide (pod = some pod')) (fallback_exec_of_ne same))

theorem listed_elapse :
    (d.elapse now).listed u pod = if d.due now u then false else d.listed u pod := by
  unfold elapse listed
  split <;> simp_all

theorem named_elapse_le : (d.elapse now).named u pod ≤ d.named u pod := by
  rw [Bool.le_iff_imp]
  simp only [elapse, named, fallback, decide_eq_true_eq, Option.map_eq_some_iff]
  rintro ⟨key, found, same⟩
  exact ⟨key, (Option.filter_eq_some_iff.mp found).1, same⟩

end Directory

/-! ## Goroutines of a user on a pod -/

def pending (updates : List Update) (userID : String) (pod : PodID) : List Command :=
  updates.flatMap fun g => if g.userID = userID ∧ g.pod = pod then g.commands else []

section Pending
variable {updates : List Update} {u u' : String} {pod pod' : PodID} {c : Command}
  {commands rest : List Command} {i : Nat}

theorem pending_concat : pending (updates ++ [⟨u, pod, commands⟩]) u' pod' =
    pending updates u' pod' ++ if u = u' ∧ pod = pod' then commands else [] := by
  simp [pending]

theorem pending_launch {p : Presence} {transition : Bool} :
    pending (p.launch transition u pod commands) u' pod' =
      pending p.updates u' pod' ++
        if transition ∧ u = u' ∧ pod = pod' then commands else [] := by
  cases transition with
  | false => simp [Presence.launch]
  | true => simpa [Presence.launch] using pending_concat

theorem pending_set_of_ne (here : updates[i]? = some ⟨u, pod, commands⟩)
    (other : ¬ (u = u' ∧ pod = pod')) :
    pending (updates.set i ⟨u, pod, rest⟩) u' pod' = pending updates u' pod' := by
  induction updates generalizing i with
  | nil => rfl
  | cons g updates ih =>
    cases i with
    | zero =>
      cases here
      simp [pending, other]
    | succ i =>
      have tail := ih (i := i) here
      simp only [pending] at tail
      simp [pending, tail]

/-- The oldest goroutine with commands left is the one whose command is next. -/
theorem pending_next (here : updates[i]? = some ⟨u, pod, c :: rest⟩)
    (oldest : ∀ g ∈ updates.take i, g.userID = u → g.pod = pod → g.commands = []) :
    pending updates u pod = c :: pending (updates.set i ⟨u, pod, rest⟩) u pod := by
  induction updates generalizing i with
  | nil => cases here
  | cons g updates ih =>
    cases i with
    | zero =>
      cases here
      simp [pending]
    | succ i =>
      have tail := ih (i := i) here fun g' mem => oldest g' (by simp [mem])
      have done : (if g.userID = u ∧ g.pod = pod then g.commands else []) = [] := by
        split
        next same => exact oldest g (by simp) same.1 same.2
        · rfl
      simp only [pending] at tail
      simp [pending, done, tail]

theorem pending_eq_nil (done : ∀ g ∈ updates, g.commands = []) : pending updates u pod = [] := by
  simp only [pending, List.flatMap_eq_nil_iff]
  intro g mem
  split
  · exact done g mem
  · rfl

end Pending

namespace Presence

/-- Goroutines of a user on a pod run in the order of their launch and do not fail, a pod that
drains takes no new connection of a user it is about to lose, and no set of gateways is dropped
while it lists a pod where the user is online. -/
def Orderly (p : Presence) : PresenceEvent → Prop
  | .register pod conn => ∀ c ∈ p.drained pod, c.userID ≠ conn.userID
  | .update i => ∀ g ∈ p.updates[i]?, ∀ g' ∈ p.updates.take i,
      g'.userID = g.userID → g'.pod = g.pod → g'.commands = []
  | .updateFail _ => False
  | .tick elapsed => ∀ u, p.directory.due (p.clock + elapsed) u →
      ∀ pod ∈ p.directory.gateways u, (p.hubs pod).isOnline u = false
  | _ => True

/-- No goroutine has a command left, no `Drain` runs, and the connections that a `Drain` has asked
to reconnect have gone. -/
structure Quiescent (p : Presence) : Prop where
  updates : ∀ g ∈ p.updates, g.commands = []
  drains : ∀ pod, p.drains pod = none
  drained : ∀ pod, p.drained pod = []

/-- Whether a `Drain` has taken the user from the directory. -/
def leaves (p : Presence) (u : String) (pod : PodID) : Prop := ∃ c ∈ p.drained pod, c.userID = u

structure Tracked (p : Presence) : Prop where
  listed : ∀ u pod, ¬ p.leaves u pod →
    (pending p.updates u pod).foldl Command.lists (p.directory.listed u pod) =
      (p.hubs pod).isOnline u
  named : ∀ u pod, (pending p.updates u pod).foldl Command.names (p.directory.named u pod) ≤
    (p.hubs pod).isOnline u
  drained : ∀ pod, ∀ c ∈ p.drained pod, (p.hubs pod).holds c
  together : ∀ pod, ∀ c ∈ p.drained pod, ∀ c', (p.hubs pod).holds c' → c'.userID = c.userID →
    c' ∈ p.drained pod
  draining : ∀ pod d, p.drains pod = some d → ∀ x ∈ d.commands,
    p.leaves x.1 pod ∧ x.2 ∈ deregisterUserGateway

namespace Tracked
variable {p p' : Presence} {u : String} {pod : PodID} {conn : Conn} {i : Nat}

theorem start (clock : Nat) : Tracked (.start clock) where
  listed _ _ _ := rfl
  named _ _ := le_rfl
  drained _ _ mem := absurd mem List.not_mem_nil
  together _ _ mem := absurd mem List.not_mem_nil
  draining _ _ none := nomatch none

theorem isOnline_of_leaves (t : Tracked p) (h : p.leaves u pod) :
    (p.hubs pod).isOnline u = true := by
  obtain ⟨c, mem, user⟩ := h
  exact Hub.isOnline_iff.mpr ⟨c, t.drained pod c mem, user⟩

theorem register (t : Tracked p) (stays : p.Orderly (.register pod conn)) :
    Tracked (p.register pod conn) := by
  have newcomer : ∀ c ∈ p.drained pod, c.key ≠ conn.key ∧ c ≠ conn := by
    intro c mem
    have ne : c.key ≠ conn.key := fun eq => stays c mem (congrArg Prod.fst eq)
    exact ⟨ne, fun eq => ne (congrArg Conn.key eq)⟩
  have hubs : ∀ pod', (p.register pod conn).hubs pod' =
      if pod' = pod then (p.hubs pod).register conn else p.hubs pod' :=
    fun pod' => Function.update_apply ..
  refine ⟨fun u pod' stay => ?_, fun u pod' => ?_, fun pod' c mem => ?_,
    fun pod' c mem c' held user => ?_, t.draining⟩
  · have old := t.listed u pod' stay
    rw [hubs]
    simp only [Presence.register, pending_launch, List.foldl_append, old, Hub.isFirst_eq]
    by_cases here : pod' = pod
    · subst here
      rw [if_pos rfl, Hub.isOnline_register]
      by_cases same : conn.userID = u
      · subst same
        cases (p.hubs pod').isOnline conn.userID <;>
          simp [registerUserGateway, Command.lists]
      · simp [same]
    · simp [here, Ne.symm here]
  · have old := t.named u pod'
    rw [hubs]
    simp only [Presence.register, pending_launch, List.foldl_append, Hub.isFirst_eq]
    by_cases here : pod' = pod
    · subst here
      rw [if_pos rfl, Hub.isOnline_register]
      by_cases same : conn.userID = u
      · simp [same]
      · simpa [same] using old
    · simpa [here, Ne.symm here] using old
  · rw [hubs]
    split
    next here =>
      subst here
      exact Hub.holds_register.mpr (.inr ⟨(newcomer c mem).1, t.drained pod' c mem⟩)
    · exact t.drained pod' c mem
  · rw [hubs] at held
    split at held
    next here =>
      subst here
      rcases Hub.holds_register.mp held with rfl | ⟨-, old⟩
      · exact absurd user.symm (stays c mem)
      · exact t.together pod' c mem c' old user
    · exact t.together pod' c mem c' held user

theorem unregister (t : Tracked p) (unlocked : p.unlocked pod = true) :
    Tracked (p.unregister pod conn) := by
  have hubs : ∀ pod', (p.unregister pod conn).hubs pod' =
      if pod' = pod then (p.hubs pod).unregister conn else p.hubs pod' :=
    fun pod' => Function.update_apply ..
  have drained : ∀ pod', (p.unregister pod conn).drained pod' =
      if pod' = pod then (p.drained pod).filter fun c => c.key ≠ conn.key else p.drained pod' :=
    fun pod' => Function.update_apply ..
  -- A user who leaves with more connections on the pod than this one goes on leaving.
  have goes : ∀ u pod', p.leaves u pod' →
      ((p.unregister pod conn).hubs pod').isOnline u = true →
      (p.unregister pod conn).leaves u pod' := by
    rintro u pod' ⟨c, mem, user⟩ online
    unfold leaves
    rw [drained]
    rw [hubs] at online
    by_cases here : pod' = pod
    · subst here
      rw [if_pos rfl] at online ⊢
      obtain ⟨c', held, user'⟩ := Hub.isOnline_iff.mp online
      obtain ⟨ne, old⟩ := Hub.holds_unregister.mp held
      have mem' := t.together pod' c mem c' old (user'.trans user.symm)
      exact ⟨c', List.mem_filter.mpr ⟨mem', by simpa using ne⟩, user'⟩
    · rw [if_neg here]
      exact ⟨c, mem, user⟩
  have subset : ∀ pod' c, c ∈ (p.unregister pod conn).drained pod' →
      c ∈ p.drained pod' ∧ (pod' = pod → c.key ≠ conn.key) := by
    intro pod' c mem
    rw [drained] at mem
    split at mem
    next here =>
      subst here
      obtain ⟨old, ne⟩ := List.mem_filter.mp mem
      exact ⟨old, fun _ => by simpa using ne⟩
    next other => exact ⟨mem, fun here => absurd here other⟩
  have keeps : ∀ pod' c, (p.hubs pod').holds c → (pod' = pod → c.key ≠ conn.key) →
      ((p.unregister pod conn).hubs pod').holds c := by
    intro pod' c held ne
    rw [hubs]
    split
    next here =>
      subst here
      exact Hub.holds_unregister.mpr ⟨ne rfl, held⟩
    · exact held
  have held_of : ∀ pod' c, ((p.unregister pod conn).hubs pod').holds c →
      (p.hubs pod').holds c ∧ (pod' = pod → c.key ≠ conn.key) := by
    intro pod' c held
    rw [hubs] at held
    split at held
    next here =>
      subst here
      obtain ⟨ne, old⟩ := Hub.holds_unregister.mp held
      exact ⟨old, fun _ => ne⟩
    next other => exact ⟨held, fun here => absurd here other⟩
  have transition : ∀ u pod', ¬ ((p.hubs pod).isLast conn = true ∧ conn.userID = u ∧ pod = pod') →
      ((p.unregister pod conn).hubs pod').isOnline u = (p.hubs pod').isOnline u := by
    intro u pod' stays
    rw [hubs]
    split
    next here =>
      subst here
      exact Hub.isOnline_unregister fun last => stays ⟨last.1, last.2, rfl⟩
    · rfl
  refine ⟨fun u pod' stay => ?_, fun u pod' => ?_, fun pod' c mem => ?_,
    fun pod' c mem c' held user => ?_, fun pod' d running x mem => ?_⟩
  · have updates : pending (p.unregister pod conn).updates u pod' = _ := pending_launch
    rw [updates]
    by_cases last : (p.hubs pod).isLast conn = true ∧ conn.userID = u ∧ pod = pod'
    · obtain ⟨isLast, rfl, rfl⟩ := last
      rw [hubs, if_pos rfl, Hub.isOnline_unregister_of_isLast isLast]
      simp [isLast, deregisterUserGateway, Command.lists]
    · rw [if_neg last, List.append_nil, transition u pod' last]
      refine t.listed u pod' fun old => stay (goes u pod' old ?_)
      rw [transition u pod' last]
      exact t.isOnline_of_leaves old
  · have updates : pending (p.unregister pod conn).updates u pod' = _ := pending_launch
    rw [updates]
    by_cases last : (p.hubs pod).isLast conn = true ∧ conn.userID = u ∧ pod = pod'
    · rw [if_pos last, List.foldl_append]
      exact Bool.false_le _
    · rw [if_neg last, List.append_nil, transition u pod' last]
      exact t.named u pod'
  · obtain ⟨old, ne⟩ := subset pod' c mem
    exact keeps pod' c (t.drained pod' c old) ne
  · obtain ⟨old, -⟩ := subset pod' c mem
    obtain ⟨oldHeld, ne⟩ := held_of pod' c' held
    have mem' := t.together pod' c old c' oldHeld user
    rw [drained]
    split
    next here => exact List.mem_filter.mpr ⟨here ▸ mem', by simpa using ne here⟩
    · exact mem'
  · -- The pod whose `Drain` runs is another one.
    have other : pod' ≠ pod := by
      rintro rfl
      have idle : p.drains pod' = none := Option.isNone_iff_eq_none.mp unlocked
      rw [show (p.unregister pod' conn).drains pod' = p.drains pod' from rfl, idle] at running
      cases running
    obtain ⟨⟨c, old, user⟩, command⟩ := t.draining pod' d running x mem
    refine ⟨⟨c, ?_, user⟩, command⟩
    rw [drained, if_neg other]
    exact old

/-- A command of a user and a pod, sent by the goroutine whose turn it is or by a `Drain`. -/
theorem exec (t : Tracked p) {d : Directory} {updates : List Update} {drains : PodID → Option Drain}
    (listed : ∀ u pod, ¬ p.leaves u pod →
      (pending updates u pod).foldl Command.lists (d.listed u pod) =
        (pending p.updates u pod).foldl Command.lists (p.directory.listed u pod))
    (named : ∀ u pod, (pending updates u pod).foldl Command.names (d.named u pod) ≤
      (pending p.updates u pod).foldl Command.names (p.directory.named u pod))
    (draining : ∀ pod d', drains pod = some d' → ∀ x ∈ d'.commands,
      p.leaves x.1 pod ∧ x.2 ∈ deregisterUserGateway) :
    Tracked { p with directory := d, updates := updates, drains := drains } where
  listed u pod stay := (listed u pod stay).trans (t.listed u pod stay)
  named u pod := (named u pod).trans (t.named u pod)
  drained := t.drained
  together := t.together
  draining := draining

theorem update (t : Tracked p) (turn : p.Orderly (.update i)) (step : p.update i = some p') :
    Tracked p' := by
  unfold Presence.update at step
  split at step <;> cases step
  rename_i u pod c rest here
  have oldest : ∀ g ∈ p.updates.take i, g.userID = u → g.pod = pod → g.commands = [] :=
    turn _ here
  refine t.exec (fun u' pod' _ => ?_) (fun u' pod' => ?_) t.draining
  · by_cases same : u = u' ∧ pod = pod'
    · obtain ⟨rfl, rfl⟩ := same
      rw [pending_next here oldest, List.foldl_cons, Directory.listed_exec]
    · rw [pending_set_of_ne here same, Directory.listed_exec_of_ne]
      rintro rfl rfl
      exact same ⟨rfl, rfl⟩
  · by_cases same : u = u' ∧ pod = pod'
    · obtain ⟨rfl, rfl⟩ := same
      rw [pending_next here oldest, List.foldl_cons, Directory.named_exec]
    · rw [pending_set_of_ne here same]
      refine foldl_mono Command.names_mono _ (Directory.named_exec_le ?_)
      rintro rfl rfl
      exact same ⟨rfl, rfl⟩

theorem drain (t : Tracked p) {userIDs : List String} {notice : Bytes}
    (perm : userIDs.Perm (p.hubs pod).users) : Tracked (p.drain pod userIDs notice) := by
  have drained : ∀ pod', (p.drain pod userIDs notice).drained pod' =
      if pod' = pod then Store.rows (p.hubs pod).connections else p.drained pod' :=
    fun pod' => Function.update_apply ..
  have drains : ∀ pod', (p.drain pod userIDs notice).drains pod' =
      if pod' = pod then some
        ⟨userIDs.flatMap fun userID => deregisterUserGateway.map (userID, ·), notice⟩
      else p.drains pod' :=
    fun pod' => Function.update_apply ..
  have goes : ∀ u pod', p.leaves u pod' → (p.drain pod userIDs notice).leaves u pod' := by
    rintro u pod' ⟨c, mem, user⟩
    refine ⟨c, ?_, user⟩
    rw [drained]
    split
    next here =>
      subst here
      exact Hub.mem_rows.mpr (t.drained pod' c mem)
    · exact mem
  refine ⟨fun u pod' stay => t.listed u pod' fun old => stay (goes u pod' old), t.named,
    fun pod' c mem => ?_, fun pod' c mem c' held user => ?_, fun pod' d running x mem => ?_⟩
  · rw [drained] at mem
    split at mem
    next here =>
      subst here
      exact Hub.mem_rows.mp mem
    · exact t.drained pod' c mem
  · rw [drained] at mem ⊢
    split
    next here =>
      subst here
      exact Hub.mem_rows.mpr held
    next other =>
      rw [if_neg other] at mem
      exact t.together pod' c mem c' held user
  · by_cases here : pod' = pod
    · subst here
      rw [drains, if_pos rfl] at running
      cases running
      obtain ⟨u, listed, mem⟩ := List.mem_flatMap.mp mem
      obtain ⟨command, known, rfl⟩ := List.mem_map.mp mem
      obtain ⟨c, held, user⟩ := Hub.mem_users.mp (perm.mem_iff.mp listed)
      refine ⟨⟨c, ?_, user⟩, known⟩
      rw [drained, if_pos rfl]
      exact Hub.mem_rows.mpr held
    · rw [drains, if_neg here] at running
      obtain ⟨leaves, known⟩ := t.draining pod' d running x mem
      exact ⟨goes x.1 pod' leaves, known⟩

theorem draining_update (t : Tracked p) {drain : Drain} {next : Option Drain}
    (running : p.drains pod = some drain)
    (fewer : ∀ d', next = some d' → d'.commands.Sublist drain.commands) :
    ∀ pod' d', Function.update p.drains pod next pod' = some d' →
      ∀ x ∈ d'.commands, p.leaves x.1 pod' ∧ x.2 ∈ deregisterUserGateway := by
  intro pod' d' running' x mem
  rw [Function.update_apply] at running'
  split at running'
  next here =>
    subst here
    exact t.draining pod' drain running x ((fewer d' running').subset mem)
  · exact t.draining pod' d' running' x mem

theorem drainNext (t : Tracked p) (step : p.drainNext pod = some p') : Tracked p' := by
  unfold Presence.drainNext at step
  split at step <;> cases step
  next u c rest notice running =>
    obtain ⟨leaves, known⟩ := t.draining pod _ running (u, c) (by simp)
    refine t.exec (fun u' pod' stay => ?_) (fun u' pod' => ?_)
      (t.draining_update running (by rintro _ ⟨⟩; exact List.sublist_cons_self ..))
    · rw [Directory.listed_exec_of_ne]
      rintro rfl rfl
      exact stay leaves
    · refine foldl_mono Command.names_mono _ ?_
      by_cases same : u' = u ∧ pod' = pod
      · obtain ⟨rfl, rfl⟩ := same
        rw [Directory.named_exec]
        rcases List.mem_pair.mp known with rfl | rfl
        · exact le_rfl
        · exact Bool.false_le _
      · exact Directory.named_exec_le fun user here => same ⟨user, here⟩
  next notice running =>
    exact t.exec (fun _ _ _ => rfl) (fun _ _ => le_rfl)
      (t.draining_update running nofun)

theorem drainFail (t : Tracked p) (step : p.drainFail pod = some p') : Tracked p' := by
  unfold Presence.drainFail at step
  split at step <;> cases step
  next u c rest notice running =>
    refine t.exec (fun _ _ _ => rfl) (fun _ _ => le_rfl) (t.draining_update running ?_)
    rintro _ ⟨⟩
    exact (List.dropWhile_sublist _).trans (List.sublist_cons_self ..)

theorem tick (t : Tracked p) {elapsed : Nat} (lasts : p.Orderly (.tick elapsed))
    (step : p.step (.tick elapsed) = some p') : Tracked p' := by
  cases step
  refine ⟨fun u pod stay => ?_, fun u pod => ?_, t.drained, t.together, t.draining⟩
  · have old := t.listed u pod stay
    rw [Directory.listed_elapse]
    split
    next due =>
      cases listed : p.directory.listed u pod with
      | false => rwa [listed] at old
      | true =>
        have offline := lasts u due pod (by simpa [Directory.listed] using listed)
        rw [listed, offline] at old
        rw [offline]
        refine Bool.eq_false_of_not_eq_true fun still => ?_
        refine absurd (Bool.le_iff_imp.mp ?_ still) (Bool.eq_false_iff.mp old)
        exact foldl_mono Command.lists_mono _ (Bool.false_le true)
    · exact old
  · exact (foldl_mono Command.names_mono _ Directory.named_elapse_le).trans (t.named u pod)

theorem step (t : Tracked p) {e : PresenceEvent} (ok : p.Orderly e) (step : p.step e = some p') :
    Tracked p' := by
  cases e with
  | register pod conn =>
    simp only [Presence.step] at step
    split at step <;> cases step
    exact t.register ok
  | unregister pod conn =>
    simp only [Presence.step] at step
    split at step <;> cases step
    rename_i unlocked
    exact t.unregister unlocked
  | update i => exact t.update ok step
  | updateFail i => cases ok
  | drain pod userIDs notice =>
    simp only [Presence.step] at step
    split at step <;> cases step
    rename_i can
    exact t.drain can.2
  | drainNext pod => exact t.drainNext step
  | drainFail pod => exact t.drainFail step
  | tick elapsed => exact t.tick ok step

end Tracked

theorem Tracked.mem_getUserGateways {p : Presence} (t : Tracked p) (quiet : p.Quiescent)
    {u : String} {pod : PodID} :
    pod ∈ p.directory.getUserGateways u ↔ ∃ c, (p.hubs pod).holds c ∧ c.userID = u := by
  have listed : ∀ pod', p.directory.listed u pod' = (p.hubs pod').isOnline u := by
    intro pod'
    have stays : ¬ p.leaves u pod' := by
      rintro ⟨c, mem, -⟩
      simp [quiet.drained] at mem
    simpa [pending_eq_nil quiet.updates] using t.listed u pod' stays
  have named : p.directory.named u pod ≤ (p.hubs pod).isOnline u := by
    simpa [pending_eq_nil quiet.updates] using t.named u pod
  rw [← Hub.isOnline_iff, ← listed, Directory.getUserGateways]
  split
  · simp [Directory.listed]
  next none =>
    have empty : p.directory.gateways u = ∅ := not_not.mp none
    constructor
    · intro mem
      rw [listed]
      exact Bool.le_iff_imp.mp named (by simpa [Directory.named] using mem)
    · intro mem
      simp [Directory.listed, empty] at mem

end Presence

/-! ## Runs of the cluster -/

namespace Cluster

def Orderly (s : Cluster) : ClusterLabel → Prop
  | .presence event => s.presence.Orderly event
  | .traffic _ => True

theorem tracked {s : Cluster} (h : machine.Reach Orderly s) : s.presence.Tracked := by
  refine h.invariant (I := fun s => s.presence.Tracked) ?_ ?_
  · rintro _ ⟨clock, rfl⟩
    exact Presence.Tracked.start clock
  · intro s l s' t ok step
    cases l with
    | presence event =>
      obtain ⟨p, next, rfl⟩ := Option.map_eq_some_iff.mp step
      exact t.step ok next
    | traffic event =>
      obtain ⟨_, -, rfl⟩ := Option.map_eq_some_iff.mp step
      exact t

theorem directory_matches {s : Cluster} (h : machine.Reach Orderly s)
    (quiet : s.presence.Quiescent) (u : String) :
    (∀ pod, pod ∈ s.presence.directory.getUserGateways u ↔
      ∃ c, (s.presence.hubs pod).holds c ∧ c.userID = u) ∧
    ∀ pod, s.presence.isUserOnlineCluster pod u = true ↔
      ∃ pod' c, (s.presence.hubs pod').holds c ∧ c.userID = u := by
  have gateways : ∀ pod, pod ∈ s.presence.directory.getUserGateways u ↔
      ∃ c, (s.presence.hubs pod).holds c ∧ c.userID = u :=
    fun _ => (tracked h).mem_getUserGateways quiet
  refine ⟨gateways, fun pod => ?_⟩
  rw [Presence.isUserOnlineCluster, Bool.or_eq_true, decide_eq_true_eq, Hub.isOnline_iff,
    ← Finset.nonempty_iff_ne_empty]
  constructor
  · rintro (held | ⟨pod', mem⟩)
    · exact ⟨pod, held⟩
    · exact ⟨pod', (gateways pod').mp mem⟩
  · rintro ⟨pod', held⟩
    exact .inr ⟨pod', (gateways pod').mpr held⟩

/-! ## Samples -/

def isDrain : ClusterLabel → Bool
  | .presence (.drain ..) => true
  | _ => false

theorem undrained {s : Cluster} (h : machine.Reach (fun _ l => isDrain l = false) s) :
    (∀ pod, s.presence.drains pod = none) ∧ ∀ pod, s.presence.drained pod = [] := by
  refine h.invariant (I := fun s => (∀ pod, s.presence.drains pod = none) ∧
    ∀ pod, s.presence.drained pod = []) ?_ ?_
  · rintro _ ⟨clock, rfl⟩
    exact ⟨fun _ => rfl, fun _ => rfl⟩
  · rintro s l s' ⟨drains, drained⟩ noDrain step
    cases l with
    | traffic event =>
      obtain ⟨_, -, rfl⟩ := Option.map_eq_some_iff.mp step
      exact ⟨drains, drained⟩
    | presence event =>
      obtain ⟨p, next, rfl⟩ := Option.map_eq_some_iff.mp step
      cases event with
      | register pod conn =>
        simp only [Presence.step] at next
        split at next <;> cases next
        exact ⟨drains, drained⟩
      | unregister pod conn =>
        simp only [Presence.step] at next
        split at next <;> cases next
        refine ⟨drains, fun pod' => ?_⟩
        simp only [Presence.unregister, Function.update_apply]
        split <;> simp [drained]
      | update i =>
        simp only [Presence.step, Presence.update] at next
        split at next <;> cases next
        exact ⟨drains, drained⟩
      | updateFail i =>
        simp only [Presence.step, Presence.updateFail] at next
        split at next <;> cases next
        exact ⟨drains, drained⟩
      | drain pod userIDs notice => cases noDrain
      | drainNext pod => simp [Presence.step, Presence.drainNext, drains] at next
      | drainFail pod => simp [Presence.step, Presence.drainFail, drains] at next
      | tick elapsed =>
        cases next
        exact ⟨drains, drained⟩

/-- `Orderly` as a test, for runs in which no time passes. -/
def orderly (s : Cluster) : ClusterLabel → Bool
  | .presence (.register pod conn) =>
    (s.presence.drained pod).all fun c => c.userID ≠ conn.userID
  | .presence (.update i) => (s.presence.updates[i]?).all fun g =>
    (s.presence.updates.take i).all fun g' =>
      g'.userID ≠ g.userID || g'.pod ≠ g.pod || g'.commands = []
  | .presence (.updateFail _) | .presence (.tick _) => false
  | _ => true

theorem orderly_of {s : Cluster} {l : ClusterLabel} (ok : orderly s l = true) : Orderly s l := by
  cases l with
  | traffic event => trivial
  | presence event =>
    cases event with
    | register pod conn => simpa [orderly, Orderly, Presence.Orderly] using ok
    | update i =>
      intro g mem g' mem' user pod
      simp only [orderly, Option.all_eq_true, List.all_eq_true] at ok
      simpa [user, pod] using ok g mem g' mem'
    | updateFail i => cases ok
    | tick elapsed => cases ok
    | _ => trivial

def quiet (s : Cluster) : Bool := s.presence.updates.all fun g => g.commands = []

theorem quiescent_of {s : Cluster} (h : machine.Reach (fun _ l => isDrain l = false) s)
    (done : s.quiet = true) : s.presence.Quiescent where
  updates := by simpa [quiet] using done
  drains := (undrained h).1
  drained := (undrained h).2

theorem phone_id_ne : "c1" ≠ "" := by decide

def phone : Conn := sampleConn "c1" "alice" phone_id_ne

def reconnected : Conn := sampleConn "c2" "alice" (by decide)

/-- The goroutine at the given place sends all its commands. -/
def finish (i commands : Nat) : List ClusterLabel :=
  List.replicate commands (.presence (.update i))

/-- Alice connects to two pods, reconnects to the one and leaves the other. -/
def twoPods : Option Cluster :=
  runFrom (fun s l => orderly s l && !isDrain l) <| List.flatten [
    [.presence (.register gateway0 phone)], finish 0 3,
    [.presence (.register gateway1 phone)], finish 1 3,
    [.presence (.unregister gateway0 phone), .presence (.register gateway0 reconnected)],
    finish 2 2, finish 3 3, [.presence (.unregister gateway1 phone)], finish 4 2]

theorem twoPods_isSome : twoPods.isSome := by rfl

theorem twoPods_reach : machine.Reach (fun s l => orderly s l && !isDrain l)
    (twoPods.get twoPods_isSome) :=
  runFrom_reach (Option.some_get twoPods_isSome).symm

theorem directory_matches_sample :
    gateway0 ∈ (twoPods.get twoPods_isSome).presence.directory.getUserGateways "alice" ∧
    gateway1 ∉ (twoPods.get twoPods_isSome).presence.directory.getUserGateways "alice" ∧
    (twoPods.get twoPods_isSome).presence.isUserOnlineCluster gateway1 "alice" = true := by
  have quiet : (twoPods.get twoPods_isSome).quiet = true := by rfl
  obtain ⟨gateways, online⟩ := directory_matches
    (twoPods_reach.mono fun _ _ ok => orderly_of (Bool.and_eq_true_iff.mp ok).1)
    (quiescent_of (twoPods_reach.mono fun _ _ ok => by simpa using (Bool.and_eq_true_iff.mp ok).2)
      quiet) "alice"
  have here : ((twoPods.get twoPods_isSome).presence.hubs gateway0).holds reconnected := by
    rfl
  have gone : ((twoPods.get twoPods_isSome).presence.hubs gateway1).isOnline "alice" = false := by
    rfl
  refine ⟨(gateways _).mpr ⟨_, here, rfl⟩, fun listed => ?_, (online _).mpr ⟨_, _, here, rfl⟩⟩
  rw [Hub.isOnline_iff.mpr ((gateways _).mp listed)] at gone
  cases gone

/-- Alice reconnects, and the goroutine of her first connection's end is the last to run. -/
def quickReconnect : Option Cluster :=
  runFrom (fun _ l => !isDrain l) <| List.flatten [
    [.presence (.register gateway0 phone)], finish 0 3,
    [.presence (.unregister gateway0 phone), .presence (.register gateway0 reconnected)],
    finish 2 3, finish 1 2]

theorem quickReconnect_isSome : quickReconnect.isSome := by rfl

theorem directory_misses : ∃ s : Cluster, machine.Reachable s ∧ s.presence.Quiescent ∧
    (s.presence.hubs gateway0).holds reconnected ∧
    gateway0 ∉ s.presence.directory.getUserGateways reconnected.userID ∧
    s.presence.isUserOnlineCluster gateway1 reconnected.userID = false := by
  have reach := runFrom_reach (Option.some_get quickReconnect_isSome).symm
  refine ⟨_, reach.reachable, quiescent_of (reach.mono fun _ _ ok => by simpa using ok) ?_, ?_, ?_,
    ?_⟩ <;> decide

end Cluster
end GenChat.Ws
