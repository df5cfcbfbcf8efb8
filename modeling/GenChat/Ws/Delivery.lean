import GenChat.Library.Phases
import GenChat.Ws.Directory

/-!
# A cluster delivers like one hub

Over hubs and a directory that stay as they are, what a connection was offered of a call and what
is still under way to it add up to one exactly if the call names its user: a `SendToUser` names one
user, a `BroadcastAll` names the users its own pod holds.
-/
namespace GenChat.Ws
open Library Ledger

/-- The payload of a request. -/
def SendRequest.payload : SendRequest → Bytes
  | .sendToUser _ payload | .broadcastAll _ payload | .reconnect payload => payload

/-- The users a request is for, on a hub that holds all connections. -/
def SendRequest.audience : SendRequest → String → Bool
  | .sendToUser userID _, u => u = userID
  | .broadcastAll excludeUserID _, u => u ≠ excludeUserID
  | .reconnect _, _ => true

/-- The connections that a single hub offers the payload of a request. -/
def Hub.recipients (h : Hub) : SendRequest → List Conn
  | .sendToUser userID _ => h.conns userID
  | .broadcastAll excludeUserID _ => (h.users.filter (· ≠ excludeUserID)).flatMap h.conns
  | .reconnect _ => Store.rows h.connections

namespace Presence

/-- The directory lists for every user the pods that hold a connection of theirs. -/
def Accurate (p : Presence) : Prop :=
  ∀ u pod, pod ∈ p.directory.getUserGateways u ↔ ∃ c, (p.hubs pod).holds c ∧ c.userID = u

/-- The users a request is for have connections on the pod of the call. -/
def Covers (p : Presence) (call : Call) : Prop :=
  match call.request with
  | .broadcastAll excludeUserID _ => ∀ pod c, (p.hubs pod).holds c → c.userID ≠ excludeUserID →
      ∃ c', (p.hubs call.pod).holds c' ∧ c'.userID = c.userID
  | _ => True

end Presence

/-- How often a goroutine will publish to a pod if nothing fails. -/
def Forward.copies (d : Directory) (pod : PodID) (f : Forward) : Nat :=
  match f.stage with
  | .publish pods => pods.count pod
  | _ => if pod ≠ f.message.pod ∧ pod ∈ d.getUserGateways f.userID then 1 else 0

theorem Forward.copies_publish {d : Directory} {pod : PodID} {userID : String} {m : Message}
    {pods : List PodID} :
    (⟨userID, m, .publish pods⟩ : Forward).copies d pod = pods.count pod := rfl

/-- Messages of a call that carry a payload. -/
def Message.of (call : Nat) (payload : Bytes) (m : Message) : Bool :=
  m.call = call && m.payload = payload

/-- What a connection had or had no space for. -/
def Outbox.offered (o : Outbox) : List Message := o.received ++ o.dropped

namespace Traffic

/-- Messages of a call that a connection was offered or that are under way to it. -/
def total (t : Traffic) (d : Directory) (call : Nat) (payload : Bytes) (pod : PodID)
    (key : String × String) : Nat :=
  (t.outboxes pod key).offered.countP (Message.of call payload) +
  t.published.countP (fun e => e.1 = pod && e.2.targetUserID = key.1 &&
    e.2.message.of call payload) +
  (t.forwards.map fun f =>
    if f.userID = key.1 ∧ f.message.of call payload then f.copies d pod else 0).sum +
  (t.fanouts.map fun g =>
    if g.call = call ∧ g.payload = payload then g.userIDs.count key.1 else 0).sum

/-- The messages that a connection of a user is due of a call. -/
def owes (p : Presence) (payload : Bytes) (u : String) : Option Call → Nat
  | some ⟨_, _, .sendToUser userID payload'⟩ => if u = userID ∧ payload' = payload then 1 else 0
  | some ⟨pod, _, .broadcastAll excludeUserID payload'⟩ =>
    if (u ≠ excludeUserID ∧ (p.hubs pod).isOnline u = true) ∧ payload' = payload then 1 else 0
  | _ => 0

structure Accounts (p : Presence) (t : Traffic) : Prop where
  total : ∀ call payload pod c, (p.hubs pod).holds c →
    t.total p.directory call payload pod c.key = owes p payload c.userID t.calls[call]?
  fallback : ∀ f ∈ t.forwards, f.stage = .fallback → p.directory.gateways f.userID = ∅
  requests : ∀ call ∈ t.calls, ∀ payload, call.request ≠ .reconnect payload

/-- Nothing is under way. -/
structure Idle (t : Traffic) : Prop where
  published : t.published = []
  forwards : ∀ f ∈ t.forwards, f.stage = .publish []
  fanouts : ∀ g ∈ t.fanouts, g.userIDs = []

end Traffic

namespace Hub
variable {h : Hub} {c : Conn}

theorem nodup_rows : (Store.rows h.connections).Nodup := by
  have keys : ((Store.rows h.connections).map Conn.key) = h.connections.keys := by
    rw [Store.rows, List.map_map]
    refine List.map_congr_left fun entry mem => ?_
    exact h.keyed _ _ (AList.mem_lookup_iff.mpr mem)
  have nodup := h.connections.keys_nodup
  rw [← keys] at nodup
  exact nodup.of_map _

/-- One hub offers the payload once to every connection of the audience. -/
theorem count_recipients (held : h.holds c) (r : SendRequest) :
    (h.recipients r).count c = if r.audience c.userID then 1 else 0 := by
  have conns : ∀ u, (h.conns u).count c = if c.userID = u then 1 else 0 := by
    intro u
    have nodup : (h.conns u).Nodup := nodup_rows.filter _
    rw [nodup.count]
    simp [mem_conns, held]
  cases r with
  | sendToUser userID payload => simpa [recipients, SendRequest.audience] using conns userID
  | broadcastAll excludeUserID payload =>
    have users : (h.users.filter (· ≠ excludeUserID)).Nodup := (List.nodup_dedup _).filter _
    have sum : ∀ us : List String, (us.flatMap h.conns).count c = us.count c.userID := by
      intro us
      induction us with
      | nil => rfl
      | cons u us ih =>
        rw [List.flatMap_cons, List.count_append, conns, ih, List.count_cons]
        by_cases same : c.userID = u
        · simp [same, Nat.add_comm]
        · simp [same, Ne.symm same]
    have online : c.userID ∈ h.users := mem_users.mpr ⟨c, held, rfl⟩
    rw [recipients, sum, users.count]
    simp [SendRequest.audience, online]
  | reconnect payload =>
    rw [recipients, nodup_rows.count]
    simp [mem_rows, held, SendRequest.audience]

end Hub

/-! ## Steps -/

theorem Outbox.countP_offer {o : Outbox} {m : Message} {q : Message → Bool} :
    (o.offer m).offered.countP q = o.offered.countP q + if q m then 1 else 0 := by
  unfold offer
  split <;> simp only [offered, received, List.countP_append, List.countP_singleton] <;> omega

namespace Traffic
variable {t t' : Traffic} {p : Presence} {call : Nat} {payload : Bytes} {pod : PodID} {c : Conn}
  {i : Nat}

/-- A hub takes a message: local connections are offered it, the others will get it from the
goroutine. -/
theorem total_broadcast (accurate : p.Accurate) (held : (p.hubs pod).holds c) {k : Nat}
    {home : PodID} {caller u : String} {payload' : Bytes} :
    (t.broadcast p k home caller u payload').total p.directory call payload pod c.key =
      t.total p.directory call payload pod c.key +
        if c.userID = u ∧ k = call ∧ payload' = payload then 1 else 0 := by
  have found : ((p.hubs pod).connections.lookup c.key).isSome = true := Hub.has_of_holds held
  have listed : pod ∈ p.directory.getUserGateways c.userID := (accurate _ _).mpr ⟨c, held, rfl⟩
  have outbox : (t.broadcast p k home caller u payload').outboxes pod c.key = _ := outboxes_offer
  have forwards : (t.broadcast p k home caller u payload').forwards =
    t.forwards ++ [⟨u, ⟨k, t.sent, home, caller, payload'⟩, .members⟩] := rfl
  have published : (t.broadcast p k home caller u payload').published = t.published := rfl
  have fanouts : (t.broadcast p k home caller u payload').fanouts = t.fanouts := rfl
  have user : c.key.1 = c.userID := rfl
  unfold total
  rw [outbox, forwards, published, fanouts, user]
  simp only [List.map_append, List.sum_append, List.map_singleton, List.sum_singleton]
  by_cases mine : c.userID = u
  · subst mine
    by_cases here : pod = home
    · subst here
      rw [if_pos ⟨rfl, by simp, found⟩, Outbox.countP_offer]
      simp only [Forward.copies, Message.of, ne_eq, not_true_eq_false, false_and, if_false,
        ite_self, true_and, Bool.and_eq_true, decide_eq_true_eq]
      omega
    · rw [if_neg fun h => here h.1]
      simp only [Forward.copies, Message.of, here, listed, ne_eq, not_false_eq_true, and_self,
        if_true, true_and, Bool.and_eq_true, decide_eq_true_eq]
      omega
  · rw [if_neg fun h => mine (by simpa [user] using h.2.1), if_neg fun h => mine h.1.symm,
      if_neg fun h => mine h.1]
    omega

/-- A goroutine moves on. -/
theorem total_moveForward {f : Forward} {stage : Stage} (here : t.forwards[i]? = some f)
    {d : Directory} {key : String × String}
    (same : ({ f with stage } : Forward).copies d pod = f.copies d pod) :
    (t.moveForward i f stage).total d call payload pod key = t.total d call payload pod key := by
  have sum := sum_map_set (y := ({ f with stage } : Forward)) (g := fun f : Forward =>
    if f.userID = key.1 ∧ f.message.of call payload then f.copies d pod else 0) here
  simp only [same] at sum
  unfold total
  simp only [moveForward]
  omega

theorem total_publish {u : String} {m : Message} {dest : PodID} {rest : List PodID}
    (here : t.forwards[i]? = some ⟨u, m, .publish (dest :: rest)⟩) {d : Directory}
    {key : String × String} :
    ({ t.moveForward i ⟨u, m, .publish (dest :: rest)⟩ (.publish rest) with
        published := t.published ++ [(dest, ⟨u, m⟩)] } : Traffic).total d call payload pod key =
      t.total d call payload pod key := by
  have sum := sum_map_set (y := (⟨u, m, .publish rest⟩ : Forward)) (g := fun f : Forward =>
    if f.userID = key.1 ∧ f.message.of call payload then f.copies d pod else 0) here
  unfold total
  simp only [moveForward, List.countP_append, List.countP_singleton]
  simp only [Forward.copies_publish, List.count_cons] at sum
  by_cases mine : u = key.1 ∧ m.of call payload = true
  · obtain ⟨rfl, mine⟩ := mine
    simp only [mine, and_self, if_true, decide_true, Bool.and_true, decide_eq_true_eq,
      beq_iff_eq] at sum ⊢
    omega
  · have skipped : (decide (dest = pod) && decide (u = key.1) && m.of call payload) = false := by
      rw [Bool.and_assoc, Bool.and_eq_false_iff]
      exact .inr (by simpa using mine)
    simp only [mine, if_false] at sum
    simp only [skipped, Bool.false_eq_true, if_false]
    omega

theorem total_deliver (held : (p.hubs pod).holds c) {dest : PodID}
    (step : t.deliver p dest = some t') {d : Directory} :
    t'.total d call payload pod c.key = t.total d call payload pod c.key := by
  have found : ((p.hubs pod).connections.lookup c.key).isSome = true := Hub.has_of_holds held
  unfold Traffic.deliver at step
  split at step
  case h_2 => cases step
  split at step <;> cases step
  rename_i dest' env first _
  obtain ⟨here, before, behind, eq, others⟩ := List.find?_eq_some_iff_append.mp first
  have here : dest' = dest := by simpa using here
  subst here
  have erased : t.published.eraseP (·.1 = dest') = before ++ behind := by
    rw [eq, List.eraseP_append_right _ (by simpa using others)]
    simp
  have outbox : (t.deliverLocal p dest' env.targetUserID env.message).outboxes pod c.key = _ :=
    outboxes_offer
  have forwards : (t.deliverLocal p dest' env.targetUserID env.message).forwards = t.forwards := rfl
  have fanouts : (t.deliverLocal p dest' env.targetUserID env.message).fanouts = t.fanouts := rfl
  unfold total
  simp only [outbox, erased, forwards, fanouts]
  rw [eq]
  simp only [List.countP_append, List.countP_cons]
  by_cases mine : pod = dest' ∧ c.key.1 = env.targetUserID
  · obtain ⟨rfl, user⟩ := mine
    rw [if_pos ⟨rfl, by simpa using user, found⟩, Outbox.countP_offer]
    simp only [user, decide_true, Bool.true_and]
    omega
  · have skipped : (decide (dest' = pod) && decide (env.targetUserID = c.key.1) &&
        env.message.of call payload) = false := by
      rw [Bool.and_eq_false_iff, ← Bool.decide_and]
      exact .inl (decide_eq_false fun same => mine ⟨same.1.symm, same.2.symm⟩)
    rw [if_neg fun h => mine ⟨h.1, by simpa using h.2.1⟩]
    simp only [skipped, Bool.false_eq_true, if_false]
    omega

theorem total_write {dest : PodID} {key : String × String} (step : t.write dest key = some t')
    {d : Directory} {key' : String × String} :
    t'.total d call payload pod key' = t.total d call payload pod key' := by
  unfold Traffic.write at step
  split at step <;> cases step
  rename_i m rest written dropped here
  have same : ((Function.update t.outboxes dest (Function.update (t.outboxes dest) key
      ⟨rest, written ++ [m], dropped⟩)) pod key').offered = (t.outboxes pod key').offered := by
    by_cases samePod : pod = dest
    · subst samePod
      by_cases same : key' = key
      · subst same
        simp [Outbox.offered, Outbox.received, here]
      · simp [same]
    · simp [samePod]
  unfold total
  simp only [same]

/-! ## Accounts -/

namespace Accounts

theorem start : Accounts p .start where
  total _ _ _ _ _ := rfl
  fallback _ mem := absurd mem List.not_mem_nil
  requests _ mem := absurd mem List.not_mem_nil

/-- A new call, of which every connection is offered or will get what it is due. -/
theorem called (a : Accounts p t) {call' : Call} (calls : t'.calls = t.calls ++ [call'])
    (total : ∀ call payload pod c, (p.hubs pod).holds c →
      t'.total p.directory call payload pod c.key = t.total p.directory call payload pod c.key +
        if t.calls.length = call then owes p payload c.userID (some call') else 0)
    (fallback : ∀ f ∈ t'.forwards, f.stage = .fallback → f ∈ t.forwards)
    (request : ∀ payload, call'.request ≠ .reconnect payload) : Accounts p t' where
  total call payload pod c held := by
    rw [total call payload pod c held, a.total call payload pod c held, calls]
    split
    next new =>
      subst new
      simp [owes]
    next other =>
      have same : (t.calls ++ [call'])[call]? = t.calls[call]? := by
        rcases Nat.lt_or_ge call t.calls.length with old | new
        · exact List.getElem?_append_left old
        · rw [List.getElem?_eq_none new, List.getElem?_eq_none]
          simp only [List.length_append, List.length_singleton]
          omega
      rw [same, Nat.add_zero]
  fallback f mem eq := a.fallback f (fallback f mem eq) eq
  requests call mem := by
    rw [calls] at mem
    rcases List.mem_append.mp mem with old | new
    · exact a.requests call old
    · exact List.mem_singleton.mp new ▸ request

theorem sendToUser (a : Accounts p t) (accurate : p.Accurate) {home : PodID} {caller u : String}
    {payload' : Bytes} :
    Accounts p ((t.broadcast p t.calls.length home caller u payload').called
      ⟨home, caller, .sendToUser u payload'⟩) := by
  refine a.called rfl (fun call payload pod c held => ?_) (fun f mem eq => ?_) nofun
  · refine (total_broadcast accurate held).trans ?_
    by_cases new : t.calls.length = call
    · simp [new, owes]
    · simp [new]
  · rcases List.mem_append.mp mem with old | new
    · exact old
    · cases List.mem_singleton.mp new
      cases eq

theorem broadcastAll (a : Accounts p t) {home : PodID} {caller x : String} {payload' : Bytes}
    {userIDs : List String} (perm : userIDs.Perm ((p.hubs home).users.filter (· ≠ x))) :
    Accounts p { t.called ⟨home, caller, .broadcastAll x payload'⟩ with
      fanouts := t.fanouts ++ [⟨t.calls.length, home, caller, userIDs, payload'⟩] } := by
  refine a.called rfl (fun call payload pod c held => ?_) (fun f mem _ => mem) nofun
  have count : userIDs.count c.key.1 =
      if c.userID ≠ x ∧ (p.hubs home).isOnline c.userID = true then 1 else 0 := by
    have nodup : ((p.hubs home).users.filter (· ≠ x)).Nodup := (List.nodup_dedup _).filter _
    have mem : c.key.1 ∈ (p.hubs home).users.filter (· ≠ x) ↔
        c.userID ≠ x ∧ (p.hubs home).isOnline c.userID = true := by
      rw [List.mem_filter, Hub.mem_users, Hub.isOnline_iff, and_comm, decide_eq_true_eq]
      rfl
    rw [perm.count_eq, nodup.count]
    simp only [mem]
  unfold Traffic.total
  simp only [Traffic.called, List.map_append, List.sum_append, List.map_singleton,
    List.sum_singleton, count, owes, ← Nat.add_assoc]
  by_cases new : t.calls.length = call <;> by_cases same : payload' = payload <;> simp [new, same]

theorem fanout (a : Accounts p t) (accurate : p.Accurate) (step : t.fanout p i = some t') :
    Accounts p t' := by
  unfold Traffic.fanout at step
  split at step
  case h_2 => cases step
  split at step <;> cases step
  rename_i k home caller u rest payload' here _
  refine ⟨fun call payload pod c held => ?_, fun f mem eq => ?_, a.requests⟩
  · have total : (t.broadcast p k home caller u payload').total p.directory call payload pod c.key =
        _ := total_broadcast accurate held
    have sum := sum_map_set (y := (⟨k, home, caller, rest, payload'⟩ : Fanout))
      (g := fun g : Fanout => if g.call = call ∧ g.payload = payload then g.userIDs.count c.key.1
        else 0) here
    rw [a.total call payload pod c held] at total
    have fanouts : (t.broadcast p k home caller u payload').fanouts = t.fanouts := rfl
    have calls : (t.broadcast p k home caller u payload').calls = t.calls := rfl
    unfold Traffic.total at total ⊢
    rw [fanouts] at total
    simp only [List.count_cons, beq_iff_eq] at sum
    have user : c.key.1 = c.userID := rfl
    rw [calls]
    by_cases mine : k = call ∧ payload' = payload
    · by_cases same : c.userID = u
      · simp only [mine, same, user, and_self, if_true] at total sum ⊢
        omega
      · simp only [mine, same, Ne.symm same, user, and_self, if_true, if_false,
          false_and] at total sum ⊢
        omega
    · simp only [mine, and_false, if_false] at total sum ⊢
      omega
  · rcases List.mem_append.mp mem with old | new
    · exact a.fallback f old eq
    · cases List.mem_singleton.mp new
      cases eq

/-- A goroutine goes on with the directory as it is. -/
theorem moveForward (a : Accounts p t) {f : Forward} {stage : Stage}
    (here : t.forwards[i]? = some f)
    (same : ∀ pod, ({ f with stage } : Forward).copies p.directory pod = f.copies p.directory pod)
    (fallback : stage = .fallback → p.directory.gateways f.userID = ∅) :
    Accounts p (t.moveForward i f stage) where
  total call payload pod c held :=
    (total_moveForward here (same pod)).trans (a.total call payload pod c held)
  fallback g mem eq := by
    rcases List.mem_or_eq_of_mem_set mem with old | rfl
    · exact a.fallback g old eq
    · exact fallback eq
  requests := a.requests

theorem count_remote {m : Message} {pods : List PodID} {d : Directory} {u : String} {pod : PodID}
    (nodup : pods.Nodup) :
    (⟨u, m, remote m pods⟩ : Forward).copies d pod = if pod ≠ m.pod ∧ pod ∈ pods then 1 else 0 := by
  rw [remote, Forward.copies_publish, (nodup.filter _).count]
  simp [and_comm]

theorem sMembers (a : Accounts p t) {pods : List PodID}
    (step : t.step p (.sMembers i pods) = some t') : Accounts p t' := by
  obtain ⟨f, stage, here, move, rfl⟩ := forward_eq step
  unfold Traffic.sMembers at move
  split at move
  case h_2 => cases move
  rename_i before
  split at move <;> cases move
  rename_i members
  obtain ⟨nodup, members⟩ := members
  refine a.moveForward here (fun pod => ?_) fun eq => ?_
  · have copies : f.copies p.directory pod =
        if pod ≠ f.message.pod ∧ pod ∈ p.directory.getUserGateways f.userID then 1 else 0 := by
      simp only [Forward.copies, before]
    rw [copies]
    split
    next some =>
      rw [count_remote nodup]
      have nonempty : p.directory.gateways f.userID ≠ ∅ := by
        rw [← members]
        simpa using some
      have mem : pod ∈ pods ↔ pod ∈ p.directory.getUserGateways f.userID := by
        rw [Directory.getUserGateways, if_pos nonempty, ← members, List.mem_toFinset]
      simp only [mem]
    · rfl
  · rw [← members]
    split at eq
    · cases eq
    next none => simpa using none

theorem get (a : Accounts p t) (step : t.step p (.get i) = some t') : Accounts p t' := by
  obtain ⟨f, stage, here, move, rfl⟩ := forward_eq step
  unfold Traffic.get at move
  split at move <;> cases move
  rename_i before
  refine a.moveForward here (fun pod => ?_) nofun
  have copies : f.copies p.directory pod =
      if pod ≠ f.message.pod ∧ pod ∈ p.directory.getUserGateways f.userID then 1 else 0 := by
    simp only [Forward.copies, before]
  have none := a.fallback f (List.mem_of_getElem? here) before
  have mem : pod ∈ (p.directory.fallback f.userID).toList ↔
      pod ∈ p.directory.getUserGateways f.userID := by
    rw [Directory.getUserGateways, if_neg (by simpa using none)]
    simp
  rw [copies, count_remote (by cases p.directory.fallback f.userID <;> simp)]
  simp only [mem]

theorem publish (a : Accounts p t) (step : t.publish i = some t') : Accounts p t' := by
  unfold Traffic.publish at step
  split at step <;> cases step
  rename_i u m dest rest here
  refine ⟨fun call payload pod c held => ?_, fun f mem eq => ?_, a.requests⟩
  · exact (total_publish here).trans (a.total call payload pod c held)
  · rcases List.mem_or_eq_of_mem_set mem with old | rfl
    · exact a.fallback f old eq
    · cases eq

theorem deliver (a : Accounts p t) {dest : PodID} (step : t.deliver p dest = some t') :
    Accounts p t' := by
  have rest : t'.calls = t.calls ∧ t'.forwards = t.forwards := by
    unfold Traffic.deliver at step
    split at step
    · split at step <;> cases step
      exact ⟨rfl, rfl⟩
    · cases step
  refine ⟨fun call payload pod c held => ?_, fun f mem => a.fallback f (rest.2 ▸ mem),
    fun call mem => a.requests call (rest.1 ▸ mem)⟩
  rw [total_deliver held step, a.total call payload pod c held, rest.1]

theorem write (a : Accounts p t) {dest : PodID} {key : String × String}
    (step : t.write dest key = some t') : Accounts p t' := by
  have rest : t'.calls = t.calls ∧ t'.forwards = t.forwards := by
    unfold Traffic.write at step
    split at step <;> cases step
    exact ⟨rfl, rfl⟩
  refine ⟨fun call payload pod c held => ?_, fun f mem => a.fallback f (rest.2 ▸ mem),
    fun call mem => a.requests call (rest.1 ▸ mem)⟩
  rw [total_write step, a.total call payload pod c held, rest.1]

end Accounts

end Traffic

/-! ## Work -/

/-- A bound on the steps that a goroutine may still cause. -/
def Forward.work (d : Directory) (f : Forward) : Nat :=
  match f.stage with
  | .members => 4 + 2 * (d.gateways f.userID).card
  | .fallback => 3
  | .publish pods => 2 * pods.length

/-- An event that moves what is under way on. -/
def TrafficEvent.moves : TrafficEvent → Bool
  | .fanout _ | .sMembers .. | .get _ | .publish _ | .deliver _ => true
  | _ => false

/-- A read or publication that fails, or an envelope that is lost. -/
def TrafficEvent.fails : TrafficEvent → Bool
  | .sMembersFail _ | .getFail _ | .publishFail _ | .lose _ => true
  | _ => false

namespace Traffic

def work (t : Traffic) (d : Directory) : Nat :=
  t.published.length + (t.forwards.map fun f => f.work d).sum +
    (t.fanouts.map fun g => (g.userIDs.map fun u => 5 + 2 * (d.gateways u).card).sum).sum

section Work
variable {t t' : Traffic} {p : Presence} {i : Nat}

theorem work_moveForward {d : Directory} {f : Forward} {stage : Stage}
    (here : t.forwards[i]? = some f) (less : ({ f with stage } : Forward).work d < f.work d) :
    (t.moveForward i f stage).work d < t.work d := by
  have sum := sum_map_set (y := ({ f with stage } : Forward)) (g := fun f => f.work d) here
  unfold work
  simp only [moveForward]
  omega

theorem exists_fanout (unlocked : ∀ pod, p.unlocked pod = true) {g : Fanout}
    (mem : g ∈ t.fanouts) (busy : g.userIDs ≠ []) :
    ∃ e t', e.moves = true ∧ t.step p e = some t' ∧
      t'.work p.directory < t.work p.directory ∧ t'.calls = t.calls := by
  obtain ⟨i, here⟩ := List.mem_iff_getElem?.mp mem
  obtain ⟨call, pod, caller, _ | ⟨u, rest⟩, payload⟩ := g
  · exact absurd rfl busy
  refine ⟨.fanout i, { t.broadcast p call pod caller u payload with
    fanouts := t.fanouts.set i ⟨call, pod, caller, rest, payload⟩ }, rfl,
    by simp only [step, fanout, here, unlocked, if_true], ?_, rfl⟩
  have sum := sum_map_set (y := (⟨call, pod, caller, rest, payload⟩ : Fanout))
    (g := fun g => (g.userIDs.map fun u => 5 + 2 * (p.directory.gateways u).card).sum) here
  have forwards : (t.broadcast p call pod caller u payload).forwards =
    t.forwards ++ [⟨u, ⟨call, t.sent, pod, caller, payload⟩, .members⟩] := rfl
  have published : (t.broadcast p call pod caller u payload).published = t.published := rfl
  unfold work
  simp only [forwards, published, List.map_append, List.sum_append, List.map_singleton,
    List.sum_singleton, Forward.work]
  simp only [List.map_cons, List.sum_cons] at sum
  omega

theorem exists_forward {f : Forward} (mem : f ∈ t.forwards) (busy : f.stage ≠ .publish []) :
    ∃ e t', e.moves = true ∧ t.step p e = some t' ∧
      t'.work p.directory < t.work p.directory ∧ t'.calls = t.calls := by
  obtain ⟨i, here⟩ := List.mem_iff_getElem?.mp mem
  have filtered : ∀ pods : List PodID, (pods.filter (· ≠ f.message.pod)).length ≤ pods.length :=
    fun pods => List.length_filter_le ..
  cases stage : f.stage with
  | members =>
    obtain ⟨pods, nodup, members⟩ : ∃ pods : List PodID, pods.Nodup ∧
        pods.toFinset = p.directory.gateways f.userID :=
      ⟨_, Finset.nodup_toList _, Finset.toList_toFinset _⟩
    refine ⟨.sMembers i pods,
      t.moveForward i f (if pods ≠ [] then remote f.message pods else .fallback), rfl, ?_,
      work_moveForward here ?_, rfl⟩
    · simp [step, forward, here, sMembers, stage, nodup, members]
    · have card : (p.directory.gateways f.userID).card = pods.length := by
        rw [← members, List.toFinset_card_of_nodup nodup]
      simp only [Forward.work, stage, card]
      split
      next shape =>
        split at shape <;> cases shape
      next shape => omega
      next pods' shape =>
        split at shape <;> cases shape
        have le := filtered pods
        omega
  | fallback =>
    refine ⟨.get i, t.moveForward i f (remote f.message (p.directory.fallback f.userID).toList),
      rfl, ?_, work_moveForward here ?_, rfl⟩
    · simp [step, forward, here, get, stage]
    · have le := filtered (p.directory.fallback f.userID).toList
      have one : (p.directory.fallback f.userID).toList.length ≤ 1 := by
        cases p.directory.fallback f.userID <;> simp
      simp only [Forward.work, stage, remote]
      omega
  | publish pods =>
    cases pods with
    | nil => exact absurd stage busy
    | cons pod rest =>
      obtain ⟨u, m, _⟩ := f
      cases stage
      refine ⟨.publish i, { t.moveForward i ⟨u, m, .publish (pod :: rest)⟩ (.publish rest) with
        published := t.published ++ [(pod, ⟨u, m⟩)] }, rfl,
        by simp only [step, publish, here], ?_, rfl⟩
      have sum := sum_map_set (y := (⟨u, m, .publish rest⟩ : Forward))
        (g := fun f => f.work p.directory) here
      unfold work
      simp only [Forward.work, List.length_cons] at sum
      simp only [moveForward, List.length_append, List.length_singleton]
      simp only [Forward.work]
      omega

theorem exists_deliver (unlocked : ∀ pod, p.unlocked pod = true) (busy : t.published ≠ []) :
    ∃ e t', e.moves = true ∧ t.step p e = some t' ∧
      t'.work p.directory < t.work p.directory ∧ t'.calls = t.calls := by
  obtain ⟨⟨pod, env⟩, rest, eq⟩ := List.exists_cons_of_ne_nil busy
  refine ⟨.deliver pod, { t.deliverLocal p pod env.targetUserID env.message with
    published := rest }, rfl, ?_, ?_, rfl⟩
  · simp [step, deliver, eq, unlocked]
  · have forwards : (t.deliverLocal p pod env.targetUserID env.message).forwards = t.forwards := rfl
    have fanouts : (t.deliverLocal p pod env.targetUserID env.message).fanouts = t.fanouts := rfl
    unfold work
    simp only [forwards, fanouts, eq, List.length_cons]
    omega

/-- Nothing that is under way gets stuck. -/
theorem exists_move (unlocked : ∀ pod, p.unlocked pod = true) (busy : ¬ t.Idle) :
    ∃ e t', e.moves = true ∧ t.step p e = some t' ∧
      t'.work p.directory < t.work p.directory ∧ t'.calls = t.calls := by
  by_cases fanouts : ∃ g ∈ t.fanouts, g.userIDs ≠ []
  · obtain ⟨g, mem, left⟩ := fanouts
    exact exists_fanout unlocked mem left
  by_cases forwards : ∃ f ∈ t.forwards, f.stage ≠ .publish []
  · obtain ⟨f, mem, left⟩ := forwards
    exact exists_forward mem left
  by_cases published : t.published = []
  · push Not at fanouts forwards
    exact absurd ⟨published, forwards, fanouts⟩ busy
  · exact exists_deliver unlocked published

end Work

theorem Idle.total {t : Traffic} (idle : t.Idle) {d : Directory} {call : Nat} {payload : Bytes}
    {pod : PodID} {key : String × String} : t.total d call payload pod key =
      (t.outboxes pod key).offered.countP (Message.of call payload) := by
  have forwards : (t.forwards.map fun f =>
      if f.userID = key.1 ∧ f.message.of call payload then f.copies d pod else 0).sum = 0 := by
    refine List.sum_eq_zero fun n mem => ?_
    obtain ⟨f, listed, rfl⟩ := List.mem_map.mp mem
    simp [Forward.copies, idle.forwards f listed]
  have fanouts : (t.fanouts.map fun g =>
      if g.call = call ∧ g.payload = payload then g.userIDs.count key.1 else 0).sum = 0 := by
    refine List.sum_eq_zero fun n mem => ?_
    obtain ⟨g, listed, rfl⟩ := List.mem_map.mp mem
    simp [idle.fanouts g listed]
  rw [Traffic.total, forwards, fanouts, idle.published]
  rfl

namespace Accounts

theorem step {t t' : Traffic} {p : Presence} (a : Accounts p t) (accurate : p.Accurate)
    {e : TrafficEvent} (steady : e.fails = false) (step : t.step p e = some t') :
    Accounts p t' := by
  cases e with
  | sendToUser pod caller userID payload =>
    simp only [Traffic.step] at step
    split at step <;> cases step
    exact a.sendToUser accurate
  | broadcastAll pod caller excludeUserID payload userIDs =>
    simp only [Traffic.step] at step
    split at step <;> cases step
    rename_i can
    exact a.broadcastAll can.2
  | fanout i => exact a.fanout accurate step
  | sMembers i pods => exact a.sMembers step
  | get i => exact a.get step
  | publish i => exact a.publish step
  | deliver pod => exact a.deliver step
  | write pod key => exact a.write step
  | sMembersFail i => cases steady
  | getFail i => cases steady
  | publishFail i => cases steady
  | lose i => cases steady

end Accounts
end Traffic

/-! ## Runs of the cluster -/

namespace Cluster

/-- The hubs and the directory stay as they are, and nothing fails. -/
def Steady : ClusterLabel → Bool
  | .presence _ => false
  | .traffic event => !event.fails

/-- What is under way moves on, and there are no new calls. -/
def Settling : ClusterLabel → Bool
  | .presence _ => false
  | .traffic event => event.moves

/-- Every connection with free queue space receives the payload of the call once if one hub with
all the connections would offer it, and not at all otherwise. -/
def LikeOneHub (s : Cluster) (k : Nat) (call : Call) : Prop :=
  ∀ pod c, (s.presence.hubs pod).holds c →
    (s.traffic.outboxes pod c.key).dropped.countP (Message.of k call.request.payload) = 0 →
    (s.traffic.outboxes pod c.key).received.countP (Message.of k call.request.payload) =
      if call.request.audience c.userID then 1 else 0

variable {p : Presence} {s : Cluster}

theorem accounts (accurate : p.Accurate)
    (h : (machine.resume ⟨p, .start⟩).Reach (fun _ l => Steady l = true) s) :
    s.presence = p ∧ Traffic.Accounts p s.traffic := by
  refine h.invariant (I := fun s => s.presence = p ∧ Traffic.Accounts p s.traffic) ?_ ?_
  · rintro _ rfl
    exact ⟨rfl, Traffic.Accounts.start⟩
  · rintro ⟨_, t⟩ l s' ⟨rfl, a⟩ steady step
    cases l with
    | presence event => cases steady
    | traffic event =>
      obtain ⟨t', next, rfl⟩ := Option.map_eq_some_iff.mp step
      exact ⟨rfl, a.step accurate (by simpa [Steady] using steady) next⟩

theorem settles (unlocked : ∀ pod, s.presence.unlocked pod = true) :
    ∃ s' : Cluster, (machine.resume s).Reach (fun _ l => Settling l = true) s' ∧
      s'.traffic.Idle ∧ s'.traffic.calls = s.traffic.calls := by
  obtain ⟨n, bound⟩ : ∃ n, s.traffic.work s.presence.directory ≤ n := ⟨_, le_rfl⟩
  induction n generalizing s with
  | zero =>
    refine ⟨s, .start rfl, ?_, rfl⟩
    by_contra busy
    obtain ⟨e, t', -, -, less, -⟩ := s.traffic.exists_move unlocked busy
    omega
  | succ n ih =>
    by_cases idle : s.traffic.Idle
    · exact ⟨s, .start rfl, idle, rfl⟩
    obtain ⟨e, t', moves, step, less, calls⟩ := s.traffic.exists_move unlocked idle
    have next : machine.step s (.traffic e) = some ⟨s.presence, t'⟩ := by
      simp only [machine, Cluster.step, step, Option.map_some]
    obtain ⟨s', reach, idle', calls'⟩ := ih (s := ⟨s.presence, t'⟩) unlocked (by simp only; omega)
    have first : (machine.resume s).Reach (fun _ l => Settling l = true) ⟨s.presence, t'⟩ :=
      Machine.Reach.step (l := .traffic e) (.start rfl) moves next
    exact ⟨s', first.resume_trans reach, idle', calls'.trans calls⟩

theorem delivers_like_one_hub (accurate : p.Accurate) (unlocked : ∀ pod, p.unlocked pod = true)
    (h : (machine.resume ⟨p, .start⟩).Reach (fun _ l => Steady l = true) s) :
    (∃ s' : Cluster, (machine.resume s).Reach (fun _ l => Settling l = true) s' ∧
      s'.traffic.Idle ∧ s'.traffic.calls = s.traffic.calls) ∧
    (s.traffic.Idle → ∀ k call, s.traffic.calls[k]? = some call →
      (s.LikeOneHub k call ↔ p.Covers call)) := by
  obtain ⟨rfl, a⟩ := accounts accurate h
  refine ⟨settles unlocked, fun idle k call called => ?_⟩
  have offered : ∀ pod c, (s.presence.hubs pod).holds c →
      (s.traffic.outboxes pod c.key).received.countP (Message.of k call.request.payload) +
        (s.traffic.outboxes pod c.key).dropped.countP (Message.of k call.request.payload) =
      Traffic.owes s.presence call.request.payload c.userID (some call) := by
    intro pod c held
    have total := a.total k call.request.payload pod c held
    rw [called, idle.total] at total
    rw [← List.countP_append]
    exact total
  have known := a.requests call (List.mem_of_getElem? called)
  obtain ⟨home, caller, request⟩ := call
  cases request with
  | sendToUser u payload =>
    refine iff_of_true (fun pod c held kept => ?_) trivial
    have all := offered pod c held
    rw [kept, Nat.add_zero] at all
    simpa [Traffic.owes, SendRequest.audience, SendRequest.payload] using all
  | broadcastAll x payload =>
    have offered : ∀ pod c, (s.presence.hubs pod).holds c →
        (s.traffic.outboxes pod c.key).received.countP (Message.of k payload) +
          (s.traffic.outboxes pod c.key).dropped.countP (Message.of k payload) =
        if c.userID ≠ x ∧ (s.presence.hubs home).isOnline c.userID = true then 1 else 0 :=
      fun pod c held => (offered pod c held).trans (by simp [Traffic.owes, SendRequest.payload])
    constructor
    · intro like pod c held other
      by_contra missing
      have none := offered pod c held
      rw [if_neg fun both => missing (Hub.isOnline_iff.mp both.2)] at none
      have once := like pod c held (by simp only [SendRequest.payload]; omega)
      simp only [SendRequest.audience, SendRequest.payload, other, ne_eq, not_false_eq_true, decide_true,
        if_true] at once
      omega
    · intro covers pod c held kept
      have all := offered pod c held
      simp only [SendRequest.payload] at kept
      rw [kept, Nat.add_zero] at all
      simp only [SendRequest.payload, SendRequest.audience, decide_eq_true_eq]
      rw [all]
      by_cases other : c.userID ≠ x
      · rw [if_pos ⟨other, Hub.isOnline_iff.mpr (covers pod c held other)⟩, if_pos other]
      · rw [if_neg fun both => other both.1, if_neg other]
  | reconnect payload => exact absurd rfl (known payload)

/-! ## Samples -/

theorem bob_id_ne : "b1" ≠ "" := by decide

/-- Alice on one pod and Bob on the other, both in the directory. -/
def apart : Option Cluster :=
  runFrom (fun s l => orderly s l && !isDrain l) <| List.flatten [
    [.presence (.register gateway0 phone)], finish 0 3,
    [.presence (.register gateway1 (sampleConn "b1" "bob" bob_id_ne))], finish 1 3]

theorem apart_isSome : apart.isSome := by rfl

theorem apart_reach : machine.Reach (fun s l => orderly s l && !isDrain l)
    (apart.get apart_isSome) :=
  runFrom_reach (Option.some_get apart_isSome).symm

theorem apart_quiescent : (apart.get apart_isSome).presence.Quiescent :=
  quiescent_of (apart_reach.mono fun _ _ ok => by simpa using (Bool.and_eq_true_iff.mp ok).2)
    (by rfl)

theorem apart_accurate : (apart.get apart_isSome).presence.Accurate := fun _ _ =>
  (tracked (apart_reach.mono fun _ _ ok =>
    orderly_of (Bool.and_eq_true_iff.mp ok).1)).mem_getUserGateways apart_quiescent

/-- From Alice's pod, a message for Bob and a broadcast to everyone but Alice. -/
def bothCalls : Option Cluster :=
  (machine.resume ⟨(apart.get apart_isSome).presence, .start⟩).follow (fun _ l => Steady l = true)
    ⟨(apart.get apart_isSome).presence, .start⟩
    [.traffic (.sendToUser gateway0 "c1" "bob" [1]),
      .traffic (.broadcastAll gateway0 "c1" "alice" [2] []), .traffic (.sMembers 0 [gateway1]),
      .traffic (.publish 0), .traffic (.deliver gateway1)]

theorem bothCalls_isSome : bothCalls.isSome := by rfl

theorem bothCalls_reach :
    (machine.resume ⟨(apart.get apart_isSome).presence, .start⟩).Reach (fun _ l => Steady l = true)
      (bothCalls.get bothCalls_isSome) :=
  Machine.Reach.follow (.start rfl) (Option.some_get bothCalls_isSome).symm

theorem bothCalls_idle : (bothCalls.get bothCalls_isSome).traffic.Idle where
  published := List.isEmpty_iff.mp (by rfl)
  forwards := by
    have all : (bothCalls.get bothCalls_isSome).traffic.forwards.all
        (fun f => f.stage = .publish []) = true := by rfl
    simpa using all
  fanouts := by
    have all : (bothCalls.get bothCalls_isSome).traffic.fanouts.all
        (fun g => g.userIDs = []) = true := by rfl
    simpa using all

theorem delivers_like_one_hub_sample :
    (bothCalls.get bothCalls_isSome).LikeOneHub 0 ⟨gateway0, "c1", .sendToUser "bob" [1]⟩ :=
  ((delivers_like_one_hub apart_accurate
    (fun pod => Option.isNone_iff_eq_none.mpr (apart_quiescent.drains pod)) bothCalls_reach).2
    bothCalls_idle 0 _ (by rfl)).mpr trivial

theorem broadcast_misses : ∃ (p : Presence) (s : Cluster), p.Accurate ∧
    (machine.resume ⟨p, .start⟩).Reach (fun _ l => Steady l = true) s ∧ s.traffic.Idle ∧
    s.traffic.calls[1]? = some ⟨gateway0, "c1", .broadcastAll "alice" [2]⟩ ∧
    ¬ s.LikeOneHub 1 ⟨gateway0, "c1", .broadcastAll "alice" [2]⟩ := by
  refine ⟨_, _, apart_accurate, bothCalls_reach, bothCalls_idle, by rfl, fun like => ?_⟩
  have once := like gateway1 (sampleConn "b1" "bob" (by decide)) (by rfl)
    (by rfl)
  exact absurd once (by decide)

end Cluster
end GenChat.Ws
