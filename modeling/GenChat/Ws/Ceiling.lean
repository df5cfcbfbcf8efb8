import GenChat.Ws.Phases

/-!
# The ceiling of a pod

`ServeHTTP` compares the ceiling with the number of users that are online when a handshake arrives.
The connection is registered later, and a user may have several.
-/
namespace GenChat.Ws
open Library Ledger

/-- A handshake in this phase may still add a connection to the hub. -/
def Phase.underway : Phase → Bool
  | .fresh _ => false
  | .serving _ => false
  | .sending => false
  | .ended => false
  | _ => true

/-- The operations of a handshake past the ceiling. -/
def Op.admits : Op → Bool
  | .hasDevice _ _ => true
  | .getActiveDeviceCount _ => true
  | .getOldestDeviceID _ => true
  | .superseded _ _ => true
  | .evicted _ _ => true
  | .notice _ _ => true
  | .unregister _ reason => reason ≠ .disconnected
  | .accept _ => true
  | .newConn _ _ => true
  | .register _ => true
  | _ => false

/-- The registration that is on its way to the hub. -/
def Pod.arriving (s : Pod) : Nat :=
  match s.inbox with
  | some (.register _) => 1
  | _ => 0

/-- `X-Test-Max-Connections` is honoured. -/
def overridden (h : Handler) (req : Request) : Bool :=
  h.allowAnyOrigin && match req.testMaxConnections with
    | some (some _) => true
    | _ => false

section Ceiling
variable {S : Gateway.Platform} {r : Gateway.Router} {h : Handler}

/-- Handshakes past the ceiling whose connections the hub does not hold yet. -/
def underway (p : Pool (pod S r h)) : Nat :=
  p.threads.countP (fun x => x.2.next.any Op.admits) + p.shared.arriving

/-- The step starts no handshake whose override is honoured. -/
def plain : PoolLabel (pod S r h) → Bool
  | .spawn (.handshake req _) => !overridden h req
  | _ => true

/-- A handshake passes the ceiling only where there is room for its connection beside those of the
hub and those under way. -/
def PassesWithRoom (p : Pool (pod S r h)) : PoolLabel (pod S r h) → Prop
  | .run i _ => ∀ t, p.next i = some (t, .onlineCount) →
      p.shared.hub.onlineCount < h.maxConnectionsPerPod →
        p.shared.hub.totalConnections + underway p < h.maxConnectionsPerPod
  | _ => True

def CeilingKept (p : Pool (pod S r h)) (l : PoolLabel (pod S r h)) : Prop :=
  plain l = true ∧ PassesWithRoom p l

theorem effectiveMaxConns_eq {req : Request} (plain : overridden h req = false) :
    effectiveMaxConns h req = h.maxConnectionsPerPod := by
  unfold effectiveMaxConns
  unfold overridden at plain
  split
  · rename_i found
    rw [found] at plain
    simp_all
  · rfl

/-! ## The invariant -/

variable {s s' : Pod} {phases : List (Tag × Phase)} {φ φ' : Phase} {op : Op} {a : Ret op}

structure Ceiling (h : Handler) (s : Pod) (phases : List (Tag × Phase)) : Prop where
  bound : s.hub.totalConnections + s.arriving + phases.countP (fun x => x.2.underway) ≤
    h.maxConnectionsPerPod
  plain : ∀ t req, (t, Phase.fresh req) ∈ phases → overridden h req = false

/-- A handshake is under way from its test on. -/
theorem Moves.enters (moves : Moves h φ op a φ')
    (plain : ∀ req, φ = .fresh req → overridden h req = false) (enters : φ'.underway = true) :
    φ.underway = true ∨ ∃ n : Nat, (⟨op, a⟩ : (op : Op) × Ret op) = ⟨.onlineCount, n⟩ ∧
      n < h.maxConnectionsPerPod := by
  have tested {u d policy : String} (at_ : φ.AtCheck h u d policy) : φ.underway = true := by
    rcases at_ with rfl | ⟨req, claims, rfl, untested, -⟩
    · rfl
    · have pos := h.ceiling_pos
      rw [effectiveMaxConns_eq (plain req rfl)] at untested
      omega
  cases moves with
  | @passed req n u d policy _ below =>
    rw [effectiveMaxConns_eq (plain req rfl)] at below
    exact .inr ⟨n, rfl, by omega⟩
  | connected at_ _ => exact .inl (tested at_)
  | unconnected at_ => exact .inl (tested at_)
  | full at_ _ => exact .inl (tested at_)
  | free at_ _ => exact .inl (tested at_)
  | _ => first | exact .inl rfl | cases enters

/-! ## Steps -/

theorem Ceiling.process (c : Ceiling h s phases) {event : Event} (here : s.inbox = some event) :
    Ceiling h ({ s with inbox := none }.process event) phases := by
  have bound := c.bound
  refine ⟨?_, c.plain⟩
  cases event with
  | register conn =>
    have added := Hub.totalConnections_register_le (h := s.hub) (c := conn)
    have arrived : s.arriving = 1 := by simp [Pod.arriving, here]
    change (s.hub.register conn).totalConnections + 0 + _ ≤ _
    omega
  | unregister conn reason =>
    have removed := Hub.totalConnections_unregister_le (h := s.hub) (c := conn)
    simp only [Pod.process]
    split
    · simp only [Pod.arriving, Pod.close_hub, Pod.close_inbox]
      omega
    · change s.hub.totalConnections + 0 + _ ≤ _
      omega
  | broadcast u payload =>
    simp only [Pod.process, Pod.arriving, Pod.sendAll_hub, Pod.sendAll_inbox]
    omega

/-- An operation hands over a registration where its handshake ends. -/
theorem Pod.Effect.arriving (effect : Pod.Effect s op a s') (moves : Moves h φ op a φ') :
    s'.arriving ≤ s.arriving ∨ s'.arriving = 1 ∧ s.arriving = 0 ∧ φ.underway = true ∧
      φ'.underway = false := by
  rcases effect.inbox with ⟨-, same⟩ | ⟨free, handed⟩
  · simp [Pod.arriving, same]
  · cases op with
    | register conn =>
      obtain ⟨⟨room, rfl⟩, rfl⟩ := moves.of_register
      exact .inr ⟨by simp [Pod.arriving, handed, Op.event?], by simp [Pod.arriving, free], rfl, rfl⟩
    | _ => exact .inl (by simp [Pod.arriving, handed, Op.event?])

theorem Ceiling.exec (c : Ceiling h s phases) {i : Nat} {t : Tag} (now : phases[i]? = some (t, φ))
    (moves : Moves h φ op a φ') (effect : Pod.Effect s op a s')
    (room : φ.underway = false → φ'.underway = true →
      s.hub.totalConnections + s.arriving + phases.countP (fun x => x.2.underway) <
        h.maxConnectionsPerPod) : Ceiling h s' (phases.set i (t, φ')) where
  bound := by
    have bound := c.bound
    have count := countP_set_add (y := (t, φ')) (a := fun x => x.2.underway) now
    rw [effect.hub]
    rcases effect.arriving moves with fewer | ⟨one, none, before, after⟩
    · by_cases after : φ'.underway = true <;> by_cases before : φ.underway = true
      · simp only [before, after, if_true] at count
        omega
      · have below := room (by simpa using before) after
        simp only [before, after, if_true] at count
        simp at count
        omega
      · simp only [before, after, if_true] at count
        simp at count
        omega
      · simp only [before, after] at count
        simp at count
        omega
    · simp only [before, after, if_true] at count
      simp at count
      omega
  plain t' req mem := by
    rcases List.mem_or_eq_of_mem_set mem with old | new
    · exact c.plain t' req old
    · cases new
      cases moves
      exact c.plain t req (List.mem_of_getElem? now)

theorem Phase.admits (allowed : φ.allows h op) (underway : φ.underway = true) :
    op.admits = true := by
  cases φ with
  | tested u d policy => rcases allowed with ⟨rfl, -⟩ | rfl <;> rfl
  | noticing u d dev conn rest =>
    obtain ⟨payload, rfl⟩ := allowed
    rfl
  | fresh req => cases underway
  | serving conn => cases underway
  | sending => cases underway
  | ended => cases underway
  | _ =>
    cases allowed
    rfl

/-- The phases of the handshakes under way are counted by what their threads do next. -/
theorem underway_le {p : Pool (pod S r h)} (phased : Pool.Phased (handshakes h) rested p phases) :
    p.shared.arriving + phases.countP (fun x => x.2.underway) ≤ underway p := by
  have counted : phases.countP (fun x => x.2.underway) ≤
      p.threads.countP (fun x => x.2.next.any Op.admits) := by
    refine phased.countP_le fun t φ program follows counts => ?_
    cases program with
    | pure _ =>
      change φ.rests = true at follows
      cases φ <;> first | cases counts; done | cases follows
    | call op k =>
      simp only [Prog.next, Option.any_some]
      exact Phase.admits follows.1 counts
  unfold underway
  omega

/-! ## Runs -/

theorem ceiling_reach {p : Pool (pod S r h)} (hp : (Pool.machine (pod S r h)).Reach CeilingKept p) :
    ∃ phases, Pool.Phased (handshakes h) rested p phases ∧ Ceiling h p.shared phases := by
  refine Pool.phased (T := handshakes h) (Q := rested) (I := Ceiling h) ?_ ?_ ?_ ?_ ?_ hp
  · exact fun _ t _ => pod_follows t
  · rintro _ ⟨clock, rfl⟩
    have empty : Hub.new.totalConnections = 0 := rfl
    exact ⟨by simp [Pod.start, Pod.arriving, empty], fun _ _ mem => absurd mem List.not_mem_nil⟩
  · intro p phases t ok c
    refine ⟨?_, fun t' req mem => ?_⟩
    · have bound := c.bound
      have fresh : ((handshakes h).start t : Phase).underway = false := by cases t <;> rfl
      simpa [List.countP_append, fresh] using bound
    · rcases List.mem_append.mp mem with old | new
      · exact c.plain t' req old
      · cases t with
        | handshake req' messages =>
          cases List.mem_singleton.mp new
          simpa [plain] using ok.1
        | _ => cases List.mem_singleton.mp new
  · intro p phases i choice t op k φ a s phased ok thread now allowed hr c
    have moves := Phase.moves allowed a
    refine c.exec now moves (Pod.exec_effect hr) fun before after => ?_
    rcases moves.enters (fun req same => c.plain t req (same ▸ List.mem_of_getElem? now)) after with
      already | ⟨n, test, below⟩
    · rw [before] at already
      cases already
    · cases test
      have read : n = p.shared.hub.onlineCount := Pod.exec_answered hr
      have room := ok.2 t (Pool.next_call thread) (read ▸ below)
      have counted := underway_le phased
      omega
  · intro p phases e s _ _ step c
    have changed := (Pod.env_eq step).2
    cases e with
    | loop =>
      obtain ⟨event, here, rfl⟩ := Option.map_eq_some_iff.mp changed
      exact c.process here
    | write id =>
      obtain ⟨_, _, _, -, rfl⟩ := Pod.write_eq changed
      exact ⟨c.bound, c.plain⟩
    | server change =>
      obtain ⟨server, rfl⟩ := changed
      exact ⟨c.bound, c.plain⟩

theorem ceiling_kept {p : Pool (pod S r h)}
    (hp : (Pool.machine (pod S r h)).Reach CeilingKept p) :
    p.shared.hub.totalConnections ≤ h.maxConnectionsPerPod := by
  obtain ⟨phases, -, c⟩ := ceiling_reach hp
  have bound := c.bound
  omega

/-! ## Samples -/

def passesWithRoom (p : Pool (pod S r h)) : PoolLabel (pod S r h) → Bool
  | .run i _ => match p.next i with
    | some (_, .onlineCount) => h.maxConnectionsPerPod ≤ p.shared.hub.onlineCount ||
      p.shared.hub.totalConnections + underway p < h.maxConnectionsPerPod
    | _ => true
  | _ => true

theorem ceilingKept_of {p : Pool (pod S r h)} {l : PoolLabel (pod S r h)}
    (ok : (plain l && passesWithRoom p l) = true) : CeilingKept p l := by
  obtain ⟨plain, room⟩ := Bool.and_eq_true_iff.mp ok
  refine ⟨plain, ?_⟩
  cases l with
  | run i choice =>
    intro t next below
    simp only [passesWithRoom, next, Bool.or_eq_true, decide_eq_true_eq] at room
    omega
  | _ => trivial

end Ceiling

/-- Alice's phone and laptop, which fill the pod. -/
def twoDevices : Option (Pool (samplePod 2 5)) :=
  podFrom (fun p l => plain l && passesWithRoom p l) <| List.flatten [
    [.spawn (.handshake (sampleRequest "alice" "phone") []),
      .spawn (.handshake (sampleRequest "alice" "laptop") [])],
    checkLabels 0, [.run 0 .ok], connectLabels 0 "c1",
    checkLabels 1, [.run 1 .ok], connectLabels 1 "c2"]

theorem twoDevices_isSome : twoDevices.isSome := by rfl

theorem ceiling_kept_sample : (twoDevices.get twoDevices_isSome).shared.hub.totalConnections ≤
    (sampleHandler 2 5).maxConnectionsPerPod :=
  ceiling_kept ((podFrom_reach (Option.some_get twoDevices_isSome).symm).mono
    fun _ _ => ceilingKept_of)

/-- Her tablet is let in as well: she counts as one user. -/
def threeDevices : Option (Pool (samplePod 2 5)) :=
  podFrom (fun _ l => plain l) <| List.flatten [
    [.spawn (.handshake (sampleRequest "alice" "phone") []),
      .spawn (.handshake (sampleRequest "alice" "laptop") []),
      .spawn (.handshake (sampleRequest "alice" "tablet") [])],
    checkLabels 0, [.run 0 .ok], connectLabels 0 "c1",
    checkLabels 1, [.run 1 .ok], connectLabels 1 "c2",
    checkLabels 2, [.run 2 .ok], connectLabels 2 "c3"]

theorem threeDevices_isSome : threeDevices.isSome := by rfl

theorem ceiling_exceeded : ∃ p, (Pool.machine (samplePod 2 5)).Reach (fun _ l => plain l) p ∧
    (sampleHandler 2 5).maxConnectionsPerPod < p.shared.hub.totalConnections :=
  ⟨threeDevices.get threeDevices_isSome,
    podFrom_reach (Option.some_get threeDevices_isSome).symm, by decide⟩

end GenChat.Ws
