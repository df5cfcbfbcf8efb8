import GenChat.Library.Phases
import GenChat.Ws.Cluster

/-!
# The order of delivery

What a connection received, with what is published for its user on its pod, is in the order in
which hubs took the messages of one caller: local messages because the loop delivers them itself,
remote ones as long as their goroutines publish in turn.
-/
namespace GenChat.Ws
open Library Ledger

/-- Of two messages of one caller, the first was sent first. -/
def Message.Before (m m' : Message) : Prop :=
  m.pod = m'.pod → m.caller = m'.caller → m.index < m'.index

instance (m m' : Message) : Decidable (m.Before m') := inferInstanceAs (Decidable (_ → _ → _))

/-- Whether the goroutine may still publish to a pod. -/
def Forward.mayReach (f : Forward) (pod : PodID) : Bool :=
  f.message.pod ≠ pod && match f.stage with
    | .publish pods => pods.contains pod
    | _ => true

/-- The pod that a goroutine publishes to next. -/
def Forward.next (f : Forward) : Option PodID :=
  match f.stage with
  | .publish (pod :: _) => some pod
  | _ => none

def ClusterLabel.publishing : ClusterLabel → Option Nat
  | .traffic (.publish i) => some i
  | _ => none

namespace Cluster

/-- A goroutine publishes to a pod when no older one with a message of the same caller to the same
user may still do so. -/
def InTurn (s : Cluster) (l : ClusterLabel) : Prop :=
  ∀ i ∈ l.publishing, ∀ f ∈ s.traffic.forwards[i]?, ∀ g ∈ s.traffic.forwards.take i,
    g.userID = f.userID → g.message.pod = f.message.pod → g.message.caller = f.message.caller →
      ∀ pod ∈ f.next, g.mayReach pod = false

instance (s : Cluster) (l : ClusterLabel) : Decidable (s.InTurn l) :=
  inferInstanceAs (Decidable (∀ i ∈ l.publishing, _))

end Cluster

theorem Outbox.received_offer (o : Outbox) (m : Message) :
    (o.offer m).received = o.received ++ [m] ∨ (o.offer m).received = o.received := by
  unfold offer
  split
  · exact .inl (List.append_assoc ..).symm
  · exact .inr rfl

namespace Traffic

/-- What is published for a user on a pod. -/
def underway (t : Traffic) (pod : PodID) (userID : String) : List Message :=
  (t.published.filter fun e => e.1 = pod && e.2.targetUserID = userID).map (·.2.message)

/-- What a connection received, then what is published for it. -/
def arrivals (t : Traffic) (pod : PodID) (key : String × String) : List Message :=
  (t.outboxes pod key).received ++ t.underway pod key.1

structure InOrder (t : Traffic) : Prop where
  arrivals : ∀ pod key, (t.arrivals pod key).Pairwise Message.Before
  ahead : ∀ pod key, ∀ m ∈ t.arrivals pod key, ∀ f ∈ t.forwards, f.userID = key.1 →
    f.mayReach pod = true → m.Before f.message
  launched : (t.forwards.map fun f => f.message.index).Pairwise (· < ·)
  arrived : ∀ pod key, ∀ m ∈ t.arrivals pod key, m.index < t.sent
  forwarded : ∀ f ∈ t.forwards, f.message.index < t.sent
  remote : ∀ e ∈ t.published, e.2.message.pod ≠ e.1
  distinct : ∀ f ∈ t.forwards, ∀ pods, f.stage = .publish pods → pods.Nodup ∧ f.message.pod ∉ pods

namespace InOrder
variable {t t' : Traffic} {pod : PodID} {m : Message} {i : Nat}

theorem start : InOrder .start where
  arrivals _ _ := List.Pairwise.nil
  ahead _ _ _ mem := absurd mem List.not_mem_nil
  launched := List.Pairwise.nil
  arrived _ _ _ mem := absurd mem List.not_mem_nil
  forwarded _ mem := absurd mem List.not_mem_nil
  remote _ mem := absurd mem List.not_mem_nil
  distinct _ mem := absurd mem List.not_mem_nil

/-- A step that delivers what was published or loses it. -/
theorem less (o : InOrder t) (outboxes : PodID → String × String → Outbox)
    {published : List (PodID × PodEnvelope)}
    (fewer : ∀ pod key, ({ t with outboxes, published } : Traffic).arrivals pod key |>.Sublist
      (t.arrivals pod key))
    (sub : published ⊆ t.published) : InOrder { t with outboxes, published } where
  arrivals pod key := (o.arrivals pod key).sublist (fewer pod key)
  ahead pod key m mem := o.ahead pod key m ((fewer pod key).subset mem)
  launched := o.launched
  arrived pod key m mem := o.arrived pod key m ((fewer pod key).subset mem)
  forwarded := o.forwarded
  remote e mem := o.remote e (sub mem)
  distinct := o.distinct

/-- A goroutine goes on to a stage from which it reaches no more pods than before. -/
theorem moveForward (o : InOrder t) {f : Forward} {stage : Stage} (here : t.forwards[i]? = some f)
    (fewer : ∀ pod, ({ f with stage } : Forward).mayReach pod = true → f.mayReach pod = true)
    (distinct : ∀ pods, stage = .publish pods → pods.Nodup ∧ f.message.pod ∉ pods) :
    InOrder (t.moveForward i f stage) where
  arrivals := o.arrivals
  ahead pod key m mem g mem' user reach := by
    rcases List.mem_or_eq_of_mem_set mem' with old | rfl
    · exact o.ahead pod key m mem g old user reach
    · exact o.ahead pod key m mem f (List.mem_of_getElem? here) user (fewer pod reach)
  launched := by
    have launched := o.launched
    obtain ⟨lt, rfl⟩ := List.getElem?_eq_some_iff.mp here
    have same : (t.forwards.set i { t.forwards[i] with stage }).map (fun f => f.message.index) =
        t.forwards.map fun f => f.message.index := by
      rw [List.map_set]
      refine List.ext_getElem (by simp) fun n _ _ => ?_
      rw [List.getElem_set]
      split
      · rename_i eq
        subst eq
        simp
      · rfl
    simpa only [Traffic.moveForward, same] using launched
  arrived := o.arrived
  forwarded g mem := by
    rcases List.mem_or_eq_of_mem_set mem with old | rfl
    · exact o.forwarded g old
    · exact o.forwarded f (List.mem_of_getElem? here)
  remote := o.remote
  distinct g mem pods eq := by
    rcases List.mem_or_eq_of_mem_set mem with old | rfl
    · exact o.distinct g old pods eq
    · exact distinct pods eq

theorem underway_remote (o : InOrder t) {userID : String} :
    ∀ m ∈ t.underway pod userID, m.pod ≠ pod := by
  intro m mem
  obtain ⟨e, listed, rfl⟩ := List.mem_map.mp mem
  obtain ⟨listed, for_⟩ := List.mem_filter.mp listed
  have here : e.1 = pod := (by simpa using for_ : e.1 = pod ∧ _).1
  exact here ▸ o.remote e listed

/-- A hub takes a message, and possibly launches the goroutine that forwards it. -/
theorem take (o : InOrder t) (hub : Hub) (picked : String × String → Bool) (target : Option String)
    (newest : m.index = t.sent) :
    InOrder { t.offer m.pod hub picked m with
      forwards := t.forwards ++ target.toList.map fun userID => ⟨userID, m, .members⟩
      sent := t.sent + 1 } := by
  set t' : Traffic := { t.offer m.pod hub picked m with
    forwards := t.forwards ++ target.toList.map fun userID => ⟨userID, m, .members⟩
    sent := t.sent + 1 } with ht'
  have received : ∀ pod key, (t'.outboxes pod key).received = (t.outboxes pod key).received ∨
      pod = m.pod ∧ (t'.outboxes pod key).received = (t.outboxes pod key).received ++ [m] := by
    intro pod key
    have outbox : t'.outboxes pod key = _ := outboxes_offer
    rw [outbox]
    split
    next here =>
      rcases Outbox.received_offer (t.outboxes pod key) m with eq | eq
      · exact .inr ⟨here.1, eq⟩
      · exact .inl eq
    · exact .inl rfl
  have arrivals : ∀ pod key, t'.arrivals pod key = t.arrivals pod key ∨
      pod = m.pod ∧ t'.arrivals pod key =
        (t.outboxes pod key).received ++ [m] ++ t.underway pod key.1 := by
    intro pod key
    have same : t'.underway pod key.1 = t.underway pod key.1 := rfl
    unfold Traffic.arrivals
    rw [same]
    rcases received pod key with eq | ⟨here, eq⟩
    · exact .inl (by rw [eq])
    · exact .inr ⟨here, by rw [eq]⟩
  have mem_arrivals : ∀ pod key m', m' ∈ t'.arrivals pod key →
      m' ∈ t.arrivals pod key ∨ pod = m.pod ∧ m' = m := by
    intro pod key m' mem
    rcases arrivals pod key with eq | ⟨here, eq⟩
    · exact .inl (eq ▸ mem)
    · rw [eq] at mem
      simp only [List.mem_append, List.mem_singleton] at mem
      unfold Traffic.arrivals
      rcases mem with (old | new) | old
      · exact .inl (List.mem_append_left _ old)
      · exact .inr ⟨here, new⟩
      · exact .inl (List.mem_append_right _ old)
  have mem_forwards : ∀ f ∈ t'.forwards, f ∈ t.forwards ∨ f.message = m ∧ f.stage = .members := by
    intro f mem
    rcases List.mem_append.mp mem with old | new
    · exact .inl old
    · obtain ⟨userID, -, rfl⟩ := List.mem_map.mp new
      exact .inr ⟨rfl, rfl⟩
  refine ⟨fun pod key => ?_, fun pod key m' mem f mem' user reach => ?_, ?_,
    fun pod key m' mem => ?_, fun f mem => ?_, o.remote, fun f mem pods eq => ?_⟩
  · rcases arrivals pod key with eq | ⟨here, eq⟩
    · exact eq ▸ o.arrivals pod key
    · subst here
      have old := o.arrivals m.pod key
      unfold Traffic.arrivals at old
      obtain ⟨sorted, sorted', across⟩ := List.pairwise_append.mp old
      have last : ∀ m' ∈ (t.outboxes m.pod key).received, m'.Before m := fun m' mem _ _ =>
        newest ▸ o.arrived m.pod key m' (List.mem_append_left _ mem)
      have foreign : ∀ m' ∈ t.underway m.pod key.1, m.Before m' := fun m' mem same =>
        absurd same.symm (o.underway_remote m' mem)
      rw [eq, List.append_assoc, List.pairwise_append]
      refine ⟨sorted, List.pairwise_cons.mpr ⟨foreign, sorted'⟩, fun m' mem m'' mem' => ?_⟩
      rcases List.mem_cons.mp mem' with rfl | old
      · exact last m' mem
      · exact across m' mem m'' old
  · rcases mem_forwards f mem' with old | ⟨new, -⟩
    · rcases mem_arrivals pod key m' mem with known | ⟨here, rfl⟩
      · exact o.ahead pod key m' known f old user reach
      · -- The goroutine of an older message of the same pod does not come back to it.
        intro same
        have away : f.message.pod ≠ pod := by
          unfold Forward.mayReach at reach
          simpa using (Bool.and_eq_true_iff.mp reach).1
        exact absurd (same.symm.trans here.symm) away
    · have away : m.pod ≠ pod := by
        unfold Forward.mayReach at reach
        simpa [new] using (Bool.and_eq_true_iff.mp reach).1
      rcases mem_arrivals pod key m' mem with known | ⟨here, -⟩
      · intro _ _
        rw [new, newest]
        exact o.arrived pod key m' known
      · exact absurd here.symm away
  · simp only [ht', List.map_append, List.pairwise_append]
    refine ⟨o.launched, ?_, fun i mem j mem' => ?_⟩
    · cases target <;> simp
    · obtain ⟨f, old, rfl⟩ := List.mem_map.mp mem
      have new : j = m.index := by
        cases target with
        | none => cases mem'
        | some userID => simpa using mem'
      rw [new, newest]
      exact o.forwarded f old
  · rcases mem_arrivals pod key m' mem with old | ⟨-, rfl⟩
    · exact Nat.lt_succ_of_lt (o.arrived pod key m' old)
    · exact newest ▸ Nat.lt_succ_self _
  · rcases mem_forwards f mem with old | ⟨new, -⟩
    · exact Nat.lt_succ_of_lt (o.forwarded f old)
    · exact new ▸ newest ▸ Nat.lt_succ_self _
  · rcases mem_forwards f mem with old | ⟨-, new⟩
    · exact o.distinct f old pods eq
    · rw [new] at eq
      cases eq

theorem publish (o : InOrder t) (step : t.publish i = some t')
    (turn : ∀ f ∈ t.forwards[i]?, ∀ g ∈ t.forwards.take i, g.userID = f.userID →
      g.message.pod = f.message.pod → g.message.caller = f.message.caller →
        ∀ pod ∈ f.next, g.mayReach pod = false) : InOrder t' := by
  unfold Traffic.publish at step
  split at step <;> cases step
  rename_i u m pod rest here
  have mem_i := List.mem_of_getElem? here
  obtain ⟨nodup, home⟩ := o.distinct _ mem_i _ rfl
  obtain ⟨once, nodup'⟩ := List.nodup_cons.mp nodup
  have moved : InOrder (t.moveForward i ⟨u, m, .publish (pod :: rest)⟩ (.publish rest)) := by
    refine o.moveForward here (fun pod' reach => ?_) fun pods eq => ?_
    · simp only [Forward.mayReach, Bool.and_eq_true, List.contains_eq_mem,
        decide_eq_true_eq] at reach ⊢
      exact ⟨reach.1, List.mem_cons_of_mem _ reach.2⟩
    · cases eq
      exact ⟨nodup', fun mem => home (List.mem_cons_of_mem _ mem)⟩
  have reaches : (⟨u, m, .publish (pod :: rest)⟩ : Forward).mayReach pod = true := by
    simpa [Forward.mayReach] using fun same => home (by simp [same])
  have arrivals : ∀ pod' (key : String × String),
      ({ t.moveForward i ⟨u, m, .publish (pod :: rest)⟩ (.publish rest) with
        published := t.published ++ [(pod, ⟨u, m⟩)] } : Traffic).arrivals pod' key =
        t.arrivals pod' key ++ if pod = pod' ∧ u = key.1 then [m] else [] := by
    intro pod' key
    simp only [Traffic.arrivals, Traffic.underway, Traffic.moveForward, List.filter_append,
      List.map_append, List.append_assoc]
    by_cases same : pod = pod' ∧ u = key.1 <;> simp [same]
  refine ⟨fun pod' key => ?_, fun pod' key m' mem g mem' user reach => ?_, moved.launched,
    fun pod' key m' mem => ?_, moved.forwarded, fun e mem => ?_, moved.distinct⟩
  · rw [arrivals]
    split
    next same =>
      obtain ⟨rfl, rfl⟩ := same
      rw [List.pairwise_append]
      refine ⟨o.arrivals pod key, List.pairwise_singleton .., fun m' mem m'' last => ?_⟩
      cases List.mem_singleton.mp last
      exact o.ahead pod key m' mem _ mem_i rfl reaches
    · simpa using o.arrivals pod' key
  · rw [arrivals] at mem
    rcases List.mem_append.mp mem with old | new
    · exact moved.ahead pod' key m' old g mem' user reach
    split at new
    case isFalse => cases new
    next same =>
      obtain ⟨rfl, rfl⟩ := same
      cases List.mem_singleton.mp new
      intro samePod sameCaller
      -- A goroutine that may still publish there is a younger one.
      obtain ⟨j, found⟩ := List.mem_iff_getElem?.mp mem'
      rcases getElem?_set_cases found with ⟨-, rfl⟩ | ⟨ne, old⟩
      · simp [Forward.mayReach, once] at reach
      rcases Nat.lt_or_gt_of_ne ne with older | younger
      · have before : g ∈ t.forwards.take i :=
          List.mem_of_getElem? (by rw [List.getElem?_take_of_lt older]; exact old)
        have waits := turn _ here g before user samePod.symm sameCaller.symm pod rfl
        rw [reach] at waits
        cases waits
      · have launched := List.pairwise_iff_getElem.mp (List.pairwise_map.mp o.launched)
        obtain ⟨lt_i, eq_i⟩ := List.getElem?_eq_some_iff.mp here
        obtain ⟨lt_j, eq_j⟩ := List.getElem?_eq_some_iff.mp old
        simpa [eq_i, eq_j] using launched i j lt_i lt_j younger
  · rw [arrivals] at mem
    rcases List.mem_append.mp mem with old | new
    · exact o.arrived pod' key m' old
    · split at new
      · cases List.mem_singleton.mp new
        exact o.forwarded _ mem_i
      · cases new
  · rcases List.mem_append.mp mem with old | new
    · exact o.remote e old
    · cases List.mem_singleton.mp new
      exact fun same => home (same ▸ List.mem_cons_self)

theorem deliver (o : InOrder t) {p : Presence} (step : t.deliver p pod = some t') :
    InOrder t' := by
  unfold Traffic.deliver at step
  split at step
  case h_2 => cases step
  split at step <;> cases step
  rename_i pod' env found unlocked
  obtain ⟨here, before, behind, eq, others⟩ := List.find?_eq_some_iff_append.mp found
  have here : pod' = pod := by simpa using here
  subst here
  have erased : t.published.eraseP (·.1 = pod') = before ++ behind := by
    rw [eq, List.eraseP_append_right _ (by simpa using others)]
    simp
  refine o.less _ (fun pod'' key => ?_) (by rw [erased, eq]; simp)
  have outbox : (t.deliverLocal p pod' env.targetUserID env.message).outboxes pod'' key = _ :=
    outboxes_offer
  simp only [Traffic.arrivals, Traffic.underway, outbox, erased]
  rw [eq]
  simp only [List.filter_append, List.map_append]
  by_cases mine : pod' = pod'' ∧ env.targetUserID = key.1
  · obtain ⟨rfl, user⟩ := mine
    have none : before.filter (fun e => e.1 = pod' && e.2.targetUserID = key.1) = [] := by
      rw [List.filter_eq_nil_iff]
      intro e mem
      have other : e.1 ≠ pod' := by simpa using others e mem
      simp [other]
    simp only [none, List.map_nil, List.nil_append, List.filter_cons, user, decide_true,
      Bool.and_true, if_true, List.map_cons]
    split
    · rcases Outbox.received_offer (t.outboxes pod' key) env.message with eq | eq <;> rw [eq]
      · simp
      · exact (List.Sublist.refl _).append (List.sublist_cons_self ..)
    · exact (List.Sublist.refl _).append (List.sublist_cons_self ..)
  · have kept : ¬ (pod'' = pod' ∧ (decide (key.1 = env.targetUserID)) = true ∧
        ((p.hubs pod').connections.lookup key).isSome = true) := by
      rintro ⟨rfl, user, -⟩
      exact mine ⟨rfl, (by simpa using user : key.1 = _).symm⟩
    have skipped : (decide (pod' = pod'') && decide (env.targetUserID = key.1)) = false := by
      simpa using mine
    rw [if_neg kept]
    simp [skipped]

theorem write (o : InOrder t) {key : String × String} (step : t.write pod key = some t') :
    InOrder t' := by
  unfold Traffic.write at step
  split at step <;> cases step
  rename_i m rest written dropped here
  refine o.less _ (fun pod' key' => ?_) (List.Subset.refl _)
  unfold Traffic.arrivals
  by_cases same : pod' = pod
  · subst same
    by_cases same : key' = key
    · subst same
      simp [Outbox.received, here, Traffic.underway]
    · simp [same, Traffic.underway]
  · simp [same, Traffic.underway]

theorem lose (o : InOrder t) : InOrder { t with published := t.published.eraseIdx i } := by
  refine o.less _ (fun pod key => ?_) (List.eraseIdx_sublist ..).subset
  exact (List.Sublist.refl _).append (((List.eraseIdx_sublist ..).filter _).map _)

theorem after (o : InOrder t) {p : Presence} (e : PresenceEvent) : InOrder (t.after p e) := by
  cases e with
  | register pod conn =>
    refine o.less _ (fun pod' key => ?_) (List.Subset.refl _)
    refine List.Sublist.append ?_ (List.Sublist.refl _)
    by_cases same : pod' = pod
    · subst same
      by_cases same : key = conn.key
      · subst same
        simp [Outbox.received, Outbox.empty]
      · simp [same]
    · simp [same]
  | drainNext pod =>
    unfold Traffic.after
    simp only
    split
    case h_1 notice _ =>
      split
      · have taken := o.take (m := ⟨t.calls.length, t.sent, pod, "", notice⟩) (p.hubs pod)
          (fun _ => true) none rfl
        simp only [Option.toList_none, List.map_nil, List.append_nil] at taken
        exact ⟨taken.arrivals, taken.ahead, taken.launched, taken.arrived, taken.forwarded,
          taken.remote, taken.distinct⟩
      · exact o
    case h_2 => exact o
  | _ => exact o

end InOrder

namespace InOrder
variable {t t' : Traffic} {p : Presence} {f : Forward} {stage : Stage} {pods : List PodID}

theorem broadcast (o : InOrder t) {call : Nat} {pod : PodID} {caller userID : String}
    {payload : Bytes} : InOrder (t.broadcast p call pod caller userID payload) :=
  o.take (m := ⟨call, t.sent, pod, caller, payload⟩) (p.hubs pod) _ (some userID) rfl

theorem remote_stage (nodup : pods.Nodup) (before : f.stage = .members ∨ f.stage = .fallback) :
    (∀ pod, ({ f with stage := Traffic.remote f.message pods } : Forward).mayReach pod = true →
      f.mayReach pod = true) ∧
    ∀ pods', Traffic.remote f.message pods = .publish pods' → pods'.Nodup ∧ f.message.pod ∉ pods' := by
  constructor
  · intro pod reach
    have away := (Bool.and_eq_true_iff.mp reach).1
    rcases before with eq | eq <;> simpa [Forward.mayReach, eq] using away
  · rintro _ ⟨⟩
    exact ⟨nodup.filter _, by simp⟩

theorem forward (o : InOrder t) {i : Nat} {next : Forward → Option Stage}
    (step : t.forward i next = some t')
    (moves : ∀ f stage, (∀ pods, f.stage = .publish pods → pods.Nodup ∧ f.message.pod ∉ pods) →
      next f = some stage →
      (∀ pod, ({ f with stage } : Forward).mayReach pod = true → f.mayReach pod = true) ∧
      ∀ pods, stage = .publish pods → pods.Nodup ∧ f.message.pod ∉ pods) : InOrder t' := by
  obtain ⟨f, stage, here, move, rfl⟩ := forward_eq step
  obtain ⟨fewer, distinct⟩ :=
    moves f stage (o.distinct f (List.mem_of_getElem? here)) move
  exact o.moveForward here fewer distinct

theorem sMembers_moves (move : sMembers p pods f = some stage) :
    (∀ pod, ({ f with stage } : Forward).mayReach pod = true → f.mayReach pod = true) ∧
    ∀ pods, stage = .publish pods → pods.Nodup ∧ f.message.pod ∉ pods := by
  unfold sMembers at move
  split at move
  case h_2 => cases move
  rename_i before
  split at move <;> cases move
  rename_i members
  split
  · exact remote_stage members.1 (.inl before)
  · exact ⟨fun pod reach => by simpa [Forward.mayReach, before] using reach, nofun⟩

theorem get_moves (move : get p f = some stage) :
    (∀ pod, ({ f with stage } : Forward).mayReach pod = true → f.mayReach pod = true) ∧
    ∀ pods, stage = .publish pods → pods.Nodup ∧ f.message.pod ∉ pods := by
  unfold get at move
  split at move <;> cases move
  rename_i before
  refine remote_stage ?_ (.inr before)
  cases p.directory.fallback f.userID <;> simp

/-- A failed read or publication. -/
theorem fail_moves
    (distinct : ∀ pods, f.stage = .publish pods → pods.Nodup ∧ f.message.pod ∉ pods)
    (move : sMembersFail f = some stage ∨ getFail f = some stage ∨ publishFail f = some stage) :
    (∀ pod, ({ f with stage } : Forward).mayReach pod = true → f.mayReach pod = true) ∧
    ∀ pods, stage = .publish pods → pods.Nodup ∧ f.message.pod ∉ pods := by
  rcases move with move | move | move
  · unfold sMembersFail at move
    split at move <;> cases move
    rename_i before
    exact ⟨fun pod reach => by simpa [Forward.mayReach, before] using reach, nofun⟩
  · unfold getFail at move
    split at move <;> cases move
    refine ⟨fun pod reach => ?_, ?_⟩
    · simp [Forward.mayReach] at reach
    · rintro _ ⟨⟩
      simp
  · unfold publishFail at move
    split at move <;> cases move
    rename_i pod rest before
    obtain ⟨nodup, home⟩ := distinct _ before
    refine ⟨fun pod' reach => ?_, ?_⟩
    · simp only [Forward.mayReach, before, Bool.and_eq_true, List.contains_eq_mem,
        decide_eq_true_eq] at reach ⊢
      exact ⟨reach.1, List.mem_cons_of_mem _ reach.2⟩
    · rintro _ ⟨⟩
      exact ⟨(List.nodup_cons.mp nodup).2, fun mem => home (List.mem_cons_of_mem _ mem)⟩

theorem step (o : InOrder t) {e : TrafficEvent} (step : t.step p e = some t')
    (turn : ∀ i, e = .publish i → ∀ f ∈ t.forwards[i]?, ∀ g ∈ t.forwards.take i,
      g.userID = f.userID → g.message.pod = f.message.pod → g.message.caller = f.message.caller →
        ∀ pod ∈ f.next, g.mayReach pod = false) : InOrder t' := by
  cases e with
  | sendToUser pod caller userID payload =>
    simp only [Traffic.step] at step
    split at step <;> cases step
    have sent : InOrder (t.broadcast p t.calls.length pod caller userID payload) := o.broadcast
    exact ⟨sent.arrivals, sent.ahead, sent.launched, sent.arrived, sent.forwarded, sent.remote,
      sent.distinct⟩
  | broadcastAll pod caller excludeUserID payload userIDs =>
    simp only [Traffic.step] at step
    split at step <;> cases step
    exact ⟨o.arrivals, o.ahead, o.launched, o.arrived, o.forwarded, o.remote, o.distinct⟩
  | fanout i =>
    simp only [Traffic.step, Traffic.fanout] at step
    split at step
    case h_2 => cases step
    split at step <;> cases step
    rename_i call pod caller userID rest payload _ _
    have sent : InOrder (t.broadcast p call pod caller userID payload) := o.broadcast
    exact ⟨sent.arrivals, sent.ahead, sent.launched, sent.arrived, sent.forwarded, sent.remote,
      sent.distinct⟩
  | sMembers i pods => exact o.forward step fun _ _ _ => sMembers_moves
  | sMembersFail i =>
    exact o.forward step fun _ _ distinct move => fail_moves distinct (.inl move)
  | get i => exact o.forward step fun _ _ _ => get_moves
  | getFail i =>
    exact o.forward step fun _ _ distinct move => fail_moves distinct (.inr (.inl move))
  | publish i => exact o.publish step (turn i rfl)
  | publishFail i =>
    exact o.forward step fun _ _ distinct move => fail_moves distinct (.inr (.inr move))
  | deliver pod => exact o.deliver step
  | lose i =>
    cases step
    exact o.lose
  | write pod key => exact o.write step

end InOrder
end Traffic

/-! ## Runs of the cluster -/

namespace Cluster

theorem inOrder {s : Cluster} (h : machine.Reach InTurn s) : s.traffic.InOrder := by
  refine h.invariant (I := fun s => s.traffic.InOrder) ?_ ?_
  · rintro _ ⟨clock, rfl⟩
    exact Traffic.InOrder.start
  · intro s l s' o turn step
    cases l with
    | presence event =>
      obtain ⟨p, -, rfl⟩ := Option.map_eq_some_iff.mp step
      exact o.after event
    | traffic event =>
      obtain ⟨t, next, rfl⟩ := Option.map_eq_some_iff.mp step
      refine o.step next fun i publishes => turn i ?_
      subst publishes
      rfl

/-- Every connection receives the messages of one caller on one pod in the order in which that
caller sent them. -/
theorem delivered_in_order {s : Cluster} (h : machine.Reach InTurn s) (pod : PodID)
    (key : String × String) (sender : PodID) (caller : String) :
    ((s.traffic.outboxes pod key).received.filter
      fun m => m.pod = sender ∧ m.caller = caller).Pairwise (·.index < ·.index) := by
  have arrivals := (inOrder h).arrivals pod key
  have received := (List.pairwise_append.mp arrivals).1
  refine (received.filter _).imp_of_mem fun {m m'} mem mem' before => ?_
  obtain ⟨pod_eq, caller_eq⟩ := by simpa using (List.mem_filter.mp mem).2
  obtain ⟨pod_eq', caller_eq'⟩ := by simpa using (List.mem_filter.mp mem').2
  exact before (pod_eq.trans pod_eq'.symm) (caller_eq.trans caller_eq'.symm)

/-! ## Samples -/

def bob : Conn := sampleConn "b1" "bob" (by decide)

/-- Alice's connection to one pod sends twice to Bob, who is on another pod. -/
def twoSends : List ClusterLabel :=
  [.presence (.register gateway1 bob), .presence (.update 0), .presence (.update 0),
    .presence (.update 0), .traffic (.sendToUser gateway0 "a1" "bob" [1]),
    .traffic (.sendToUser gateway0 "a1" "bob" [2]), .traffic (.sMembers 0 [gateway1]),
    .traffic (.sMembers 1 [gateway1])]

def inTurn : Option Cluster :=
  runFrom (fun s l => s.InTurn l) (twoSends ++ [.traffic (.publish 0), .traffic (.publish 1),
    .traffic (.deliver gateway1), .traffic (.deliver gateway1)])

theorem inTurn_isSome : inTurn.isSome := by rfl

theorem delivered_in_order_sample :
    (((inTurn.get inTurn_isSome).traffic.outboxes gateway1 bob.key).received.filter
      fun m => m.pod = gateway0 ∧ m.caller = "a1").Pairwise (·.index < ·.index) ∧
    ((inTurn.get inTurn_isSome).traffic.outboxes gateway1 bob.key).received.map (·.payload) =
      [[1], [2]] :=
  ⟨delivered_in_order ((runFrom_reach (Option.some_get inTurn_isSome).symm).mono
    fun _ _ ok => by simpa using ok) _ _ _ _, by rfl⟩

/-- The goroutine of the second message publishes first. -/
def overtaken : Option Cluster :=
  runFrom (fun _ _ => true) (twoSends ++ [.traffic (.publish 1), .traffic (.publish 0),
    .traffic (.deliver gateway1), .traffic (.deliver gateway1)])

theorem overtaken_isSome : overtaken.isSome := by rfl

theorem delivered_out_of_order : ∃ s : Cluster, machine.Reachable s ∧
    ¬ ((s.traffic.outboxes gateway1 bob.key).received.filter
      fun m => m.pod = gateway0 ∧ m.caller = "a1").Pairwise (·.index < ·.index) :=
  ⟨overtaken.get overtaken_isSome,
    (runFrom_reach (Option.some_get overtaken_isSome).symm).reachable, by decide⟩

end Cluster
end GenChat.Ws
