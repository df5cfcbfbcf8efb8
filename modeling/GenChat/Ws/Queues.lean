import GenChat.Ws.Phases

/-!
# Sends on closed queues

The loop closes the queue of a connection when it removes the connection from the hub. What goes
through the hub reaches connections of the hub only; the notice of an eviction and the replies of a
read pump go to a connection that their goroutine holds.
-/
namespace GenChat.Ws
open Library Ledger

namespace Pod

def isOpen (s : Pod) (id : String) : Prop :=
  ∃ ch, s.channels.lookup id = some ch ∧ ch.closed = false

variable {s : Pod} {conn : Conn} {payload : Payload} {x : String}

/-- A send on an open queue leaves the queues open. -/
theorem send_open (payload : Payload) (h : s.isOpen conn.id) :
    (s.send conn payload).panicked = s.panicked ∧ ∀ x, s.isOpen x → (s.send conn payload).isOpen x := by
  obtain ⟨ch, found, opened⟩ := h
  simp only [send, found, opened, Bool.false_eq_true, if_false]
  split
  · refine ⟨rfl, fun x hx => ?_⟩
    by_cases same : x = conn.id
    · subst same
      exact ⟨_, AList.lookup_insert _, rfl⟩
    · obtain ⟨ch', found', opened'⟩ := hx
      exact ⟨ch', by simpa [AList.lookup_insert_ne same] using found', opened'⟩
  · exact ⟨rfl, fun _ => id⟩

theorem sendAll_open {conns : List Conn} (payload : Payload)
    (h : ∀ conn ∈ conns, s.isOpen conn.id) :
    (s.sendAll conns payload).panicked = s.panicked ∧
      ∀ x, s.isOpen x → (s.sendAll conns payload).isOpen x := by
  induction conns generalizing s with
  | nil => exact ⟨rfl, fun _ => id⟩
  | cons conn rest ih =>
    obtain ⟨running, opens⟩ := send_open payload (h conn (by simp))
    obtain ⟨running', opens'⟩ := ih fun conn mem => opens _ (h conn (by simp [mem]))
    exact ⟨running'.trans running, fun x hx => opens' x (opens x hx)⟩

/-- Closing an open queue leaves the others open. -/
theorem close_open (h : s.isOpen conn.id) : (s.close conn).panicked = s.panicked ∧
    ∀ x, x ≠ conn.id → s.isOpen x → (s.close conn).isOpen x := by
  obtain ⟨ch, found, opened⟩ := h
  simp only [close, found, opened, Bool.false_eq_true, if_false, true_and]
  rintro x other ⟨ch', found', opened'⟩
  exact ⟨ch', by simpa [AList.lookup_insert_ne other] using found', opened'⟩

theorem write_open {s' : Pod} {id : String} (h : s.write id = some s') :
    ∀ x, s.isOpen x → s'.isOpen x := by
  obtain ⟨first, buffer, closed, found, rfl⟩ := write_eq h
  rintro x ⟨ch, found', opened⟩
  by_cases same : x = id
  · subst same
    rw [found] at found'
    cases found'
    exact ⟨_, AList.lookup_insert _, opened⟩
  · exact ⟨ch, by simpa [AList.lookup_insert_ne same] using found', opened⟩

end Pod

/-! ## Connections before and in the hub -/

/-- Where a connection is: in the thread that created it, on its way to the hub, or in the hub. -/
inductive Owner where
  | thread (i : Nat)
  | inbox
  | hub

def Owns (s : Pod) (phases : List (Tag × Phase)) : Owner → Conn → Prop
  | .thread i, c => ∃ t room, phases[i]? = some (t, .created c room)
  | .inbox, c => s.inbox = some (.register c)
  | .hub, c => s.hub.holds c

/-- Connections before and in the hub have open queues, and no two have the same id. -/
structure Queues (s : Pod) (phases : List (Tag × Phase)) : Prop where
  running : s.panicked = false
  opened : ∀ o c, Owns s phases o c → s.isOpen c.id
  unique : ∀ o o' c c', Owns s phases o c → Owns s phases o' c' → c.id = c'.id → o = o' ∧ c = c'

section Steps
variable {s s' : Pod} {phases phases' : List (Tag × Phase)} {h : Handler} {c conn : Conn}
  {payload : Payload}

/-- The step moves connections from owner to owner. -/
theorem Queues.carry (q : Queues s phases) (running : s'.panicked = false)
    (origin : Owner → Conn → Owner)
    (owns : ∀ o c, Owns s' phases' o c → Owns s phases (origin o c) c)
    (inj : ∀ o o' c, Owns s' phases' o c → Owns s' phases' o' c → origin o c = origin o' c → o = o')
    (opens : ∀ o c, Owns s' phases' o c → s.isOpen c.id → s'.isOpen c.id) :
    Queues s' phases' where
  running := running
  opened o c own := opens o c own (q.opened _ c (owns o c own))
  unique o o' c c' own own' same := by
    obtain ⟨place, rfl⟩ := q.unique _ _ c c' (owns o c own) (owns o' c' own') same
    exact ⟨inj o o' c own own' place, rfl⟩

/-- No connection changes its owner. -/
theorem Queues.keep (q : Queues s phases) (running : s'.panicked = false)
    (owns : ∀ o c, Owns s' phases' o c → Owns s phases o c)
    (opens : ∀ o c, Owns s' phases' o c → s.isOpen c.id → s'.isOpen c.id) : Queues s' phases' :=
  q.carry running (fun o _ => o) owns (fun _ _ _ _ _ => id) opens

theorem owns_mono (inbox : s'.inbox = s.inbox) (hub : s'.hub = s.hub) {o : Owner}
    (own : Owns s' phases o c) : Owns s phases o c := by
  cases o with
  | thread i => exact own
  | inbox => exact inbox.symm.trans own
  | hub => exact (congrArg (Hub.holds · c) hub).mp own

/-! ## The loop -/

theorem Queues.process_register (q : Queues s phases) (event : s.inbox = some (.register c)) :
    Queues { s with inbox := none, hub := s.hub.register c } phases := by
  refine q.carry q.running
    (fun o c' => match o with
      | .hub => if c' = c then .inbox else .hub
      | o => o) ?_ ?_ fun _ _ _ => id
  · rintro (i | _ | _) c' own
    · exact own
    · cases own
    · rcases Hub.holds_register.mp own with rfl | ⟨-, old⟩
      · simpa [Owns] using event
      · simp only
        split
        · rename_i same
          exact same ▸ event
        · exact old
  · rintro (i | _ | _) (j | _ | _) c' own own' same
    all_goals first | rfl | cases own; done | cases own'; done | skip
    · simpa using same
    · simp only at same
      split at same <;> cases same
    · simp only at same
      split at same <;> cases same

theorem Queues.process_unregister (q : Queues s phases) (found : s.hub.has conn = true) :
    Queues ({ s with inbox := none, hub := s.hub.unregister conn }.close conn) phases := by
  obtain ⟨c₀, held⟩ := Option.isSome_iff_exists.mp found
  have key := s.hub.keyed _ _ held
  have id_eq : c₀.id = conn.id := congrArg Prod.snd key
  have holds : s.hub.holds c₀ := by rw [Hub.holds, key, held]
  have opened : Pod.isOpen { s with inbox := none, hub := s.hub.unregister conn } conn.id :=
    id_eq ▸ q.opened .hub c₀ holds
  obtain ⟨running, opens⟩ := Pod.close_open opened
  have owns : ∀ o c, Owns ({ s with inbox := none, hub := s.hub.unregister conn }.close conn) phases
      o c → Owns s phases o c ∧ (o = .hub → c.key ≠ conn.key) := by
    rintro (i | _ | _) c own
    · exact ⟨own, by rintro ⟨⟩⟩
    · simp [Owns] at own
    · have both := Hub.holds_unregister.mp ((congrArg (Hub.holds · c) Pod.close_hub).mp own)
      exact ⟨both.2, fun _ => both.1⟩
  refine q.keep (running.trans q.running) (fun o c own => (owns o c own).1) fun o c own => ?_
  refine opens c.id fun same => ?_
  obtain ⟨own, other⟩ := owns o c own
  obtain ⟨rfl, rfl⟩ := q.unique o .hub c c₀ own holds (same.trans id_eq.symm)
  exact other rfl key

theorem Queues.loop (q : Queues s phases) (step : s.loop = some s') : Queues s' phases := by
  obtain ⟨event, here, rfl⟩ := Option.map_eq_some_iff.mp step
  have taken : Queues { s with inbox := none } phases := by
    refine q.keep q.running ?_ fun _ _ _ => id
    rintro (i | _ | _) c own
    · exact own
    · cases own
    · exact own
  cases event with
  | register c => exact q.process_register here
  | unregister conn reason =>
    simp only [Pod.process]
    split
    · exact q.process_unregister ‹_›
    · exact taken
  | broadcast u payload =>
    have openConns : ∀ c ∈ s.hub.conns u, ({ s with inbox := none } : Pod).isOpen c.id :=
      fun c mem => taken.opened .hub c (Hub.mem_conns.mp mem).1
    obtain ⟨running, opens⟩ := Pod.sendAll_open payload openConns
    exact taken.keep (running.trans q.running)
      (fun o c => owns_mono Pod.sendAll_inbox Pod.sendAll_hub) fun _ c _ => opens c.id

/-! ## Operations -/

section Run
variable {i : Nat} {t : Tag} {φ φ' : Phase} {op : Op} {r : Ret op}

theorem owns_set {o : Owner} (own : Owns s (phases.set i (t, φ')) o c) :
    (o = .thread i ∧ ∃ room, φ' = .created c room) ∨ o ≠ .thread i ∧ Owns s phases o c := by
  cases o with
  | inbox => exact .inr ⟨nofun, own⟩
  | hub => exact .inr ⟨nofun, own⟩
  | thread j =>
    obtain ⟨t', room, here⟩ := own
    rcases getElem?_set_cases here with ⟨rfl, same⟩ | ⟨other, old⟩
    · cases same
      exact .inl ⟨rfl, room, rfl⟩
    · exact .inr ⟨fun eq => other (by cases eq; rfl), t', room, old⟩

theorem Queues.create (q : Queues s phases) {u d : String}
    (fresh : s.channels.lookup c.id = none) (hub : s'.hub = s.hub) (inbox : s'.inbox = s.inbox)
    (running : s'.panicked = s.panicked)
    (channels : s'.channels = s.channels.insert c.id ⟨[], false⟩)
    (moves : Moves h φ (.newConn u d) c φ') :
    Queues s' (phases.set i (t, φ')) := by
  have known {o : Owner} {c' : Conn} (own : Owns s phases o c') : c'.id ≠ c.id := by
    intro same
    obtain ⟨ch, found, -⟩ := q.opened o c' own
    rw [same, fresh] at found
    cases found
  have owns {o : Owner} {c' : Conn} (own : Owns s' (phases.set i (t, φ')) o c') :
      o = .thread i ∧ c' = c ∨ o ≠ .thread i ∧ Owns s phases o c' := by
    rcases owns_set own with ⟨rfl, room, rfl⟩ | ⟨other, own⟩
    · obtain ⟨u, d, same⟩ := moves.of_created
      cases same
      exact .inl ⟨rfl, rfl⟩
    · exact .inr ⟨other, owns_mono inbox hub own⟩
  refine ⟨running.trans q.running, fun o c' own => ?_, fun o o' c₁ c₂ own own' same => ?_⟩
  · rw [Pod.isOpen, channels]
    rcases owns own with ⟨-, rfl⟩ | ⟨-, own⟩
    · exact ⟨_, AList.lookup_insert _, rfl⟩
    · rw [AList.lookup_insert_ne (known own)]
      exact q.opened o c' own
  · rcases owns own with ⟨rfl, rfl⟩ | ⟨-, own⟩ <;> rcases owns own' with ⟨rfl, rfl⟩ | ⟨-, own'⟩
    · exact ⟨rfl, rfl⟩
    · exact absurd same.symm (known own')
    · exact absurd same (known own)
    · exact q.unique o o' c₁ c₂ own own' same

/-- An operation other than `newConn` creates no connection. -/
theorem owns_moved (moves : Moves h φ op r φ') (old : ∀ u d, op ≠ .newConn u d) {o : Owner}
    (own : Owns s (phases.set i (t, φ')) o c) : o ≠ .thread i ∧ Owns s phases o c := by
  rcases owns_set own with ⟨-, room, rfl⟩ | moved
  · obtain ⟨u, d, same⟩ := moves.of_created
    exact absurd (congrArg Sigma.fst same) (old u d)
  · exact moved

/-- The connection is in the hub or on its way there. -/
def InUse (s : Pod) (c : Conn) : Prop := s.hub.holds c ∨ s.inbox = some (.register c)

theorem Queues.exec_handed (q : Queues s phases) (now : phases[i]? = some (t, φ))
    (moves : Moves h φ op r φ') {event : Event} (hands : op.event? = some event) :
    Queues { s with inbox := some event } (phases.set i (t, φ')) := by
  have old : ∀ u d, op ≠ .newConn u d := by
    rintro u d rfl
    cases hands
  by_cases arrives : ∃ c, event = .register c
  · obtain ⟨c, rfl⟩ := arrives
    have registers : op = .register c := by
      cases op <;> cases hands
      rfl
    subst registers
    obtain ⟨⟨room, rfl⟩, rfl⟩ := moves.of_register
    refine q.carry q.running (fun o _ => match o with
      | .inbox => .thread i
      | o => o) ?_ ?_ fun _ _ _ => id
    · intro o c' own
      obtain ⟨-, own⟩ := owns_moved moves old own
      match o with
      | .thread j => exact own
      | .inbox =>
        cases own
        exact ⟨t, room, now⟩
      | .hub => exact own
    · intro o o' c' own own' same
      have here := (owns_moved moves old own).1
      have here' := (owns_moved moves old own').1
      rcases o with j | _ | _ <;> rcases o' with j' | _ | _ <;> simp_all
  · refine q.keep q.running (fun o c own => ?_) fun _ _ _ => id
    obtain ⟨-, own⟩ := owns_moved moves old own
    match o with
    | .thread j => exact own
    | .inbox =>
      cases own
      exact absurd ⟨_, rfl⟩ arrives
    | .hub => exact own

theorem Queues.exec (q : Queues s phases) (now : phases[i]? = some (t, φ))
    (moves : Moves h φ op r φ') (effect : Pod.Effect s op r s')
    (inUse : ∀ conn payload, op = .notice conn payload ∨ op = .reply conn payload → InUse s conn) :
    Queues s' (phases.set i (t, φ')) := by
  cases effect with
  | nothing plain =>
    exact q.keep q.running (fun o c own => (owns_moved moves plain.old own).2) fun _ _ _ => id
  | handed event hands _ => exact q.exec_handed now moves hands
  | sent conns payload plain targets =>
    have opened : ∀ conn ∈ conns, s.isOpen conn.id := by
      intro conn mem
      have used : InUse s conn := by
        have target := targets conn mem
        cases op with
        | notice _ _ =>
          obtain ⟨rfl, rfl⟩ := target
          exact inUse _ _ (.inl rfl)
        | reply _ _ =>
          obtain ⟨rfl, rfl⟩ := target
          exact inUse _ _ (.inr rfl)
        | sendToDevice _ _ _ => exact .inl target.2.1
        | deliverLocal _ _ => exact .inl target.2.1
        | drain _ => exact .inl target.2
        | _ => cases target
      rcases used with held | arriving
      · exact q.opened .hub conn held
      · exact q.opened .inbox conn arriving
    obtain ⟨running, opens⟩ := Pod.sendAll_open payload opened
    refine q.keep (running.trans q.running) (fun o c own => ?_) fun _ c _ => opens c.id
    exact owns_mono Pod.sendAll_inbox Pod.sendAll_hub (owns_moved moves plain.old own).2
  | created conn fresh => exact q.create fresh rfl rfl rfl rfl moves
  | converted conn =>
    exact q.keep q.running (fun o c own => (owns_moved moves nofun own).2) fun _ _ _ => id
  | relayed op server =>
    exact q.keep q.running (fun o c own => (owns_moved moves nofun own).2) fun _ _ _ => id

end Run
end Steps

/-! ## Runs -/

section Runs
variable {S : Gateway.Platform} {r : Gateway.Router} {h : Handler}

/-- Notices and replies go to connections in the hub, or on their way there. -/
def SendsInUse (p : Pool (pod S r h)) : PoolLabel (pod S r h) → Prop
  | .run i _ => ∀ t conn payload, p.next i = some (t, .notice conn payload) ∨
      p.next i = some (t, .reply conn payload) → InUse p.shared conn
  | _ => True

theorem queues_reach {p : Pool (pod S r h)}
    (hp : (Pool.machine (pod S r h)).Reach SendsInUse p) :
    ∃ phases, Pool.Phased (handshakes h) rested p phases ∧ Queues p.shared phases := by
  refine Pool.phased (T := handshakes h) (Q := rested) (I := Queues) ?_ ?_ ?_ ?_ ?_ hp
  · exact fun _ t _ => pod_follows t
  · rintro _ ⟨clock, rfl⟩
    have nobody : ∀ o c, ¬ Owns (Pod.start clock) [] o c := by
      rintro (_ | _ | _) c
      · rintro ⟨t, room, here⟩
        cases here
      · nofun
      · exact Hub.not_holds_new
    exact ⟨rfl, fun o c own => absurd own (nobody o c), fun o _ c _ own => absurd own (nobody o c)⟩
  · intro p phases t _ q
    refine q.keep q.running (fun o c own => ?_) fun _ _ _ => id
    match o with
    | .inbox => exact own
    | .hub => exact own
    | .thread i =>
      obtain ⟨t', room, here⟩ := own
      rcases getElem?_concat_cases here with old | new
      · exact ⟨t', room, old⟩
      · cases t <;> cases new
  · intro p phases i choice t op k φ a s _ ok thread now allowed hr q
    refine q.exec now (Phase.moves allowed a) (Pod.exec_effect hr) fun conn payload sends => ?_
    have next := Pool.next_call thread
    refine ok t conn payload ?_
    rcases sends with rfl | rfl
    · exact .inl next
    · exact .inr next
  · intro p phases e s _ _ step q
    have changed := (Pod.env_eq step).2
    cases e with
    | loop => exact q.loop changed
    | write id =>
      obtain ⟨_, _, _, -, rfl⟩ := Pod.write_eq changed
      exact q.keep q.running (fun o c => owns_mono rfl rfl) fun _ c _ =>
        Pod.write_open changed c.id
    | server change =>
      obtain ⟨server, rfl⟩ := changed
      exact q.keep q.running (fun o c => owns_mono rfl rfl) fun _ _ _ => id

/-- In a run in which notices and replies go to connections in the hub only, no send finds a closed
queue, and no queue is closed twice. -/
theorem no_send_on_closed {p : Pool (pod S r h)}
    (hp : (Pool.machine (pod S r h)).Reach SendsInUse p) : p.shared.panicked = false := by
  obtain ⟨phases, -, q⟩ := queues_reach hp
  exact q.running

end Runs

/-! ## Samples -/

instance (event : Option Event) (c : Conn) : Decidable (event = some (.register c)) :=
  match event with
  | some (.register c') => decidable_of_iff (c' = c) (by simp)
  | none => isFalse nofun
  | some (.unregister _ _) => isFalse nofun
  | some (.broadcast _ _) => isFalse nofun

instance (s : Pod) (c : Conn) : Decidable (InUse s c) :=
  inferInstanceAs (Decidable (s.hub.holds c ∨ s.inbox = some (.register c)))

section Samples
variable {S : Gateway.Platform} {r : Gateway.Router} {h : Handler}

def sendsInUse (p : Pool (pod S r h)) : PoolLabel (pod S r h) → Bool
  | .run i _ => match p.next i with
    | some (_, .notice conn _) => InUse p.shared conn
    | some (_, .reply conn _) => InUse p.shared conn
    | _ => true
  | _ => true

theorem sendsInUse_sound {p : Pool (pod S r h)} {l : PoolLabel (pod S r h)} (ok : sendsInUse p l) :
    SendsInUse p l := by
  cases l with
  | run i choice =>
    rintro t conn payload (next | next) <;> simpa [sendsInUse, next] using ok
  | _ => trivial

end Samples

/-- Alice sends a message too many, is told so, and disconnects. -/
def rateLimited : Option (Pool (samplePod 10 1)) :=
  podFrom sendsInUse <| List.flatten [
    [.spawn (.handshake (sampleRequest "alice" "phone") [.data []])],
    checkLabels 0, [.run 0 .ok], connectLabels 0 "c1",
    [.run 0 (.answer true), .run 0 (.answer false), .run 0 .ok, .run 0 .ok, .env .loop]]

theorem rateLimited_isSome : rateLimited.isSome := by rfl

theorem no_send_on_closed_sample : (rateLimited.get rateLimited_isSome).shared.panicked = false :=
  no_send_on_closed ((podFrom_reach (Option.some_get rateLimited_isSome).symm).mono
    fun _ _ => sendsInUse_sound)

theorem c1_ne : "c1" ≠ "" := by decide

/-- The same device connects again, which evicts the first connection, whose read pump then finds
a message too many. -/
def evictedReply : Option (Pool (samplePod 10 1)) :=
  podFrom (fun _ _ => true) <| List.flatten [
    [.spawn (.handshake (sampleRequest "alice" "phone") [.data []]),
      .spawn (.handshake (sampleRequest "alice" "phone") [])],
    checkLabels 0, [.run 0 .ok], connectLabels 0 "c1", checkLabels 1,
    [.run 0 (.answer true), .run 0 (.answer false),
      .run 1 (.order [⟨"c1", "alice", "phone", Gateway.sampleClock, c1_ne⟩]), .run 1 .ok, .env .loop,
      .run 0 .ok]]

theorem evictedReply_isSome : evictedReply.isSome := by rfl

theorem send_on_closed : ∃ p, (Pool.machine (samplePod 10 1)).Reachable p ∧
    p.shared.panicked = true :=
  ⟨evictedReply.get evictedReply_isSome,
    (podFrom_reach (Option.some_get evictedReply_isSome).symm).reachable, by rfl⟩

end GenChat.Ws
