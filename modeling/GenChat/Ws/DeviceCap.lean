import GenChat.Ws.Phases

/-!
# The device cap of a user

`ServeHTTP` checks the devices of a user, evicts the oldest one where there is no room, and registers
the new connection later. Handshakes of one user that do not overlap keep the cap; an eviction takes
a device of a user at the cap where no other connection of his goes meanwhile.
-/
namespace GenChat.Ws
open Library Ledger

/-- The user of a handshake between its device check and its registration. -/
def Phase.section? : Phase → Option String
  | .atCap u _ => some u
  | .choosing u _ _ => some u
  | .noticing u _ _ _ _ => some u
  | .evicting u _ _ _ _ => some u
  | .superseding u _ => some u
  | .replacing u _ _ _ => some u
  | .admitted u _ _ => some u
  | .accepted u _ _ => some u
  | .created conn _ => some conn.userID
  | _ => none


/-- A device is being evicted in this phase. -/
def Phase.evicts : Phase → Bool
  | .atCap _ _ => true
  | .choosing _ _ _ => true
  | .noticing _ _ _ _ _ => true
  | .evicting _ _ _ _ _ => true
  | _ => false

/-- The user whose devices the operation checks. -/
def Op.checks? : Op → Option String
  | .hasDevice u _ => some u
  | .getActiveDeviceCount u => some u
  | _ => none

/-! ## What the phases rely on -/

section Kept
variable (cap : Nat) (hub : Hub) (inbox : Option Event)

/-- The connections of the device are among these, or one is about to be unregistered. -/
def Covered (u dev : String) (conns : List Conn) : Prop :=
  ∀ c, hub.holds c → c.userID = u → c.device = dev →
    c ∈ conns ∨ inbox = some (.unregister c .deviceLimit)

/-- The connections of the device are being evicted, and no others. -/
structure Evicting (u dev : String) (conns : List Conn) : Prop where
  users : ∀ c ∈ conns, c.userID = u
  covered : Covered hub inbox u dev conns
  only : ∀ c c', c' ∈ conns ∨ inbox = some (.unregister c' .deviceLimit) → hub.holds c →
    c.userID = u → c.key = c'.key → c.device = dev
  room : ((hub.devices u).erase dev).card < cap
  full : cap ≤ (insert dev (hub.devices u)).card

/-- No eviction of the user waits for the loop. -/
def Quiet (u : String) : Prop := ∀ c, inbox = some (.unregister c .deviceLimit) → c.userID ≠ u

def Room.Kept (u d : String) : Room → Prop
  | .free => (hub.devices u).card < cap
  | .replaces => d ≠ "" ∧ (insert d (hub.devices u)).card ≤ cap
  | .evicted dev => ((hub.devices u).erase dev).card < cap ∧ Covered hub inbox u dev []

def Phase.Kept : Phase → Prop
  | .atCap u _ => cap ≤ (hub.devices u).card ∧ Quiet inbox u
  | .choosing u _ dev => cap ≤ (hub.devices u).card ∧ dev ∈ hub.devices u ∧ Quiet inbox u
  | .noticing u _ dev conn rest => Evicting cap hub inbox u dev (conn :: rest)
  | .evicting u _ dev conn rest => Evicting cap hub inbox u dev (conn :: rest)
  | .superseding u d => d ≠ "" ∧ (insert d (hub.devices u)).card ≤ cap
  | .replacing u d conn rest => (∀ c ∈ conn :: rest, c.userID = u) ∧ d ≠ "" ∧
      (insert d (hub.devices u)).card ≤ cap
  | .admitted u d room => room.Kept cap hub inbox u d
  | .accepted u d room => room.Kept cap hub inbox u d
  | .created conn room => room.Kept cap hub inbox conn.userID conn.deviceID
  | _ => True

end Kept

section Steps
variable {cap : Nat} {hub : Hub} {inbox : Option Event} {u d dev : String} {c conn : Conn}
  {rest conns : List Conn} {reason : Reason} {event : Event} {room : Room} {φ : Phase}

/-! ## The loop takes an unregistration -/

theorem Covered.unregister (covered : Covered hub (some (.unregister c reason)) u dev conns) :
    Covered (hub.unregister c) none u dev conns := by
  intro c' held user device
  obtain ⟨other, old⟩ := Hub.holds_unregister.mp held
  refine (covered c' old user device).imp id fun same => ?_
  cases same
  exact absurd rfl other

theorem Evicting.unregister (e : Evicting cap hub (some (.unregister c reason)) u dev conns)
    (calm : reason ≠ .deviceLimit → (hub.unregister c).devices u = hub.devices u) :
    Evicting cap (hub.unregister c) none u dev conns where
  users := e.users
  covered := e.covered.unregister
  only c₁ c₂ mem held := e.only c₁ c₂ (mem.imp id nofun) (Hub.holds_unregister.mp held).2
  room := (Finset.card_le_card
    (Finset.erase_subset_erase dev Hub.devices_unregister_subset)).trans_lt e.room
  full := by
    refine e.full.trans (Finset.card_le_card ?_)
    refine Finset.insert_subset (Finset.mem_insert_self _ _) ?_
    by_cases evicted : reason = .deviceLimit
    · by_cases user : c.userID = u
      · refine Hub.devices_subset_unregister fun c' held key => ?_
        exact e.only c' c (.inr (by rw [evicted])) held ((congrArg Prod.fst key).trans user) key
      · rw [Hub.devices_unregister_of_ne user]
        exact Finset.subset_insert _ _
    · rw [calm evicted]
      exact Finset.subset_insert _ _

theorem Room.Kept.unregister (kept : room.Kept cap hub (some (.unregister c reason)) u d) :
    room.Kept cap (hub.unregister c) none u d := by
  have fewer : (hub.unregister c).devices u ⊆ hub.devices u := Hub.devices_unregister_subset
  cases room with
  | free => exact (Finset.card_le_card fewer).trans_lt kept
  | replaces =>
    exact ⟨kept.1, (Finset.card_le_card (Finset.insert_subset_insert d fewer)).trans kept.2⟩
  | evicted dev =>
    exact ⟨(Finset.card_le_card (Finset.erase_subset_erase dev fewer)).trans_lt kept.1,
      kept.2.unregister⟩

/-- While a device of the user is evicted, no other of his devices goes. -/
theorem Phase.Kept.unregister (kept : φ.Kept cap hub (some (.unregister c reason)))
    (sec : φ.section? = some u) (calm : φ.evicts = true → reason ≠ .deviceLimit →
      (hub.unregister c).devices u = hub.devices u) : φ.Kept cap (hub.unregister c) none := by
  have fewer : (hub.unregister c).devices u ⊆ hub.devices u := Hub.devices_unregister_subset
  -- an eviction that waits is none of this user's
  have same (quiet : Quiet (some (.unregister c reason)) u) (evicts : φ.evicts = true) :
      (hub.unregister c).devices u = hub.devices u := by
    by_cases evicted : reason = .deviceLimit
    · exact Hub.devices_unregister_of_ne (quiet c (by rw [evicted]))
    · exact calm evicts evicted
  cases φ with
  | atCap u' d =>
    cases sec
    exact ⟨(same kept.2 rfl).symm ▸ kept.1, nofun⟩
  | choosing u' d dev =>
    cases sec
    have kept_devices := same kept.2.2 rfl
    exact ⟨kept_devices.symm ▸ kept.1, kept_devices.symm ▸ kept.2.1, nofun⟩
  | noticing u' d dev conn rest =>
    cases sec
    exact Evicting.unregister kept (calm rfl)
  | evicting u' d dev conn rest =>
    cases sec
    exact Evicting.unregister kept (calm rfl)
  | superseding u' d =>
    cases sec
    exact ⟨kept.1, (Finset.card_le_card (Finset.insert_subset_insert d fewer)).trans kept.2⟩
  | replacing u' d conn rest =>
    cases sec
    exact ⟨kept.1, kept.2.1,
      (Finset.card_le_card (Finset.insert_subset_insert d fewer)).trans kept.2.2⟩
  | admitted u' d room => exact Room.Kept.unregister kept
  | accepted u' d room => exact Room.Kept.unregister kept
  | created conn room => exact Room.Kept.unregister kept
  | _ => trivial

/-! ## What does not concern the user -/

/-- The user of a registration, or of an eviction. -/
def Event.section? : Event → Option String
  | .register conn => some conn.userID
  | .unregister conn .deviceLimit => some conn.userID
  | _ => none

/-- The step concerns no connection of the user and no eviction of his. -/
structure Apart (u : String) (hub hub' : Hub) (inbox inbox' : Option Event) : Prop where
  holds : ∀ c, c.userID = u → (hub.holds c ↔ hub'.holds c)
  evictions : ∀ c, c.userID = u →
    (inbox = some (.unregister c .deviceLimit) ↔ inbox' = some (.unregister c .deviceLimit))

variable {hub' : Hub} {inbox' : Option Event}

theorem Covered.apart (a : Apart u hub hub' inbox inbox') (covered : Covered hub inbox u dev conns) :
    Covered hub' inbox' u dev conns := by
  intro c held user device
  exact (covered c ((a.holds c user).mpr held) user device).imp id (a.evictions c user).mp

theorem Evicting.apart (a : Apart u hub hub' inbox inbox')
    (e : Evicting cap hub inbox u dev conns) : Evicting cap hub' inbox' u dev conns where
  users := e.users
  covered := e.covered.apart a
  only c₁ c₂ mem held user key := by
    have user' : c₂.userID = u := (congrArg Prod.fst key).symm.trans user
    exact e.only c₁ c₂ (mem.imp id (a.evictions c₂ user').mpr) ((a.holds c₁ user).mpr held) user key
  room := Hub.devices_congr a.holds ▸ e.room
  full := Hub.devices_congr a.holds ▸ e.full

theorem Room.Kept.apart (a : Apart u hub hub' inbox inbox') (kept : room.Kept cap hub inbox u d) :
    room.Kept cap hub' inbox' u d := by
  have devices : hub.devices u = hub'.devices u := Hub.devices_congr a.holds
  cases room with
  | free =>
    rw [Room.Kept, ← devices]
    exact kept
  | replaces =>
    rw [Room.Kept, ← devices]
    exact kept
  | evicted dev => exact ⟨devices ▸ kept.1, kept.2.apart a⟩

theorem Phase.Kept.apart (a : Apart u hub hub' inbox inbox') (kept : φ.Kept cap hub inbox)
    (sec : φ.section? = some u) : φ.Kept cap hub' inbox' := by
  have devices : hub.devices u = hub'.devices u := Hub.devices_congr a.holds
  have quiet (old : Quiet inbox u) : Quiet inbox' u := fun c waits user =>
    old c ((a.evictions c user).mpr waits) user
  cases φ with
  | atCap u' d =>
    cases sec
    exact ⟨devices ▸ kept.1, quiet kept.2⟩
  | choosing u' d dev =>
    cases sec
    exact ⟨devices ▸ kept.1, devices ▸ kept.2.1, quiet kept.2.2⟩
  | noticing u' d dev conn rest =>
    cases sec
    exact Evicting.apart a kept
  | evicting u' d dev conn rest =>
    cases sec
    exact Evicting.apart a kept
  | superseding u' d =>
    cases sec
    exact ⟨kept.1, devices ▸ kept.2⟩
  | replacing u' d conn rest =>
    cases sec
    exact ⟨kept.1, kept.2.1, devices ▸ kept.2.2⟩
  | admitted u' d room =>
    cases sec
    exact Room.Kept.apart a kept
  | accepted u' d room =>
    cases sec
    exact Room.Kept.apart a kept
  | created conn room =>
    cases sec
    exact Room.Kept.apart a kept
  | _ => trivial

theorem Apart.hand (other : event.section? ≠ some u) : Apart u hub hub none (some event) where
  holds _ _ := Iff.rfl
  evictions c user := by
    refine ⟨nofun, fun same => ?_⟩
    cases same
    exact absurd (congrArg some user) other

theorem Apart.register (other : c.userID ≠ u) :
    Apart u hub (hub.register c) (some (.register c)) none where
  holds c' user := by
    have ne : c'.key ≠ c.key := fun eq => other ((congrArg Prod.fst eq).symm.trans user)
    have ne' : c' ≠ c := fun eq => ne (congrArg Conn.key eq)
    simp [Hub.holds_register, ne, ne']
  evictions _ _ := ⟨nofun, nofun⟩

theorem Apart.broadcast {u' : String} {payload : Payload} :
    Apart u hub hub (some (.broadcast u' payload)) none where
  holds _ _ := Iff.rfl
  evictions _ _ := ⟨nofun, nofun⟩

/-! ## The eviction goes on -/

theorem Evicting.hand (e : Evicting cap hub none u dev (conn :: rest)) :
    Evicting cap hub (some (.unregister conn .deviceLimit)) u dev rest where
  users c mem := e.users c (List.mem_cons_of_mem _ mem)
  covered c held user device := by
    rcases e.covered c held user device with mem | waits
    · rcases List.mem_cons.mp mem with rfl | mem
      · exact .inr rfl
      · exact .inl mem
    · cases waits
  only c c' mem := by
    refine e.only c c' (.inl ?_)
    rcases mem with mem | same
    · exact List.mem_cons_of_mem _ mem
    · cases same
      exact List.mem_cons_self
  room := e.room
  full := e.full

/-- The connections that `EvictDeviceWithNotice` collects at the cap. -/
theorem Evicting.start (bound : (hub.devices u).card ≤ cap) (full : cap ≤ (hub.devices u).card)
    (mem : dev ∈ hub.devices u) (quiet : Quiet inbox u) (perm : conns.Perm (hub.evicted u dev))
    (named : ∀ c, hub.holds c → c.userID = u → c.id = dev → c.device = dev) :
    Evicting cap hub inbox u dev conns := by
  have collected {c : Conn} : c ∈ conns ↔ hub.holds c ∧ c.userID = u ∧
      (c.deviceID = dev ∨ c.id = dev) := by
    rw [perm.mem_iff]
    simp [Hub.evicted, Hub.mem_conns, and_assoc]
  obtain ⟨known, -, -, device⟩ := Hub.mem_devices.mp mem
  have dev_ne : dev ≠ "" := device ▸ known.device_ne
  refine ⟨fun c mem => (collected.mp mem).2.1, fun c held user same => ?_, ?_, ?_, ?_⟩
  · refine .inl (collected.mpr ⟨held, user, ?_⟩)
    unfold Conn.device at same
    split at same
    · exact .inl same
    · exact .inr same
  · intro c c' mem held user key
    rcases mem with mem | waits
    · obtain ⟨held', user', match_⟩ := collected.mp mem
      have same : c = c' := by
        rw [Hub.holds, key, held'] at held
        exact (Option.some.inj held).symm
      subst same
      rcases match_ with device | id
      · rw [Conn.device, if_pos (device ▸ dev_ne), device]
      · exact named c held user id
    · exact absurd ((congrArg Prod.fst key).symm.trans user) (quiet c' waits)
  · rw [Finset.card_erase_of_mem mem]
    have := Finset.card_pos.mpr ⟨dev, mem⟩
    omega
  · exact full.trans (Finset.card_le_card (Finset.subset_insert _ _))

end Steps

/-! ## The invariant -/

/-- At most one handshake of the user is between its device check and its registration, and there is
room for its device. -/
structure Section (cap : Nat) (u : String) (s : Pod) (phases : List (Tag × Phase)) : Prop where
  bound : (s.hub.devices u).card ≤ cap
  alone : ∀ (i j : Nat) x y, phases[i]? = some x → phases[j]? = some y →
    x.2.section? = some u → y.2.section? = some u → i = j
  arriving : ∀ c, s.inbox = some (.register c) → c.userID = u →
    (insert c.device (s.hub.devices u)).card ≤ cap ∧ ∀ x ∈ phases, x.2.section? ≠ some u
  evicting : ∀ c, s.inbox = some (.unregister c .deviceLimit) → c.userID = u →
    s.hub.has c = true → cap ≤ (s.hub.devices u).card
  kept : ∀ x ∈ phases, x.2.section? = some u → x.2.Kept cap s.hub s.inbox

namespace Section
variable {cap : Nat} {u : String} {s s' : Pod} {phases : List (Tag × Phase)} {c : Conn}
  {reason : Reason}

/-! ## The loop -/

theorem apart (sec : Section cap u s phases) (a : Apart u s.hub s'.hub s.inbox s'.inbox)
    (arriving : ∀ c, s'.inbox = some (.register c) → s.inbox = some (.register c))
    (evicting : ∀ c, s'.inbox = some (.unregister c .deviceLimit) → c.userID = u →
      s'.hub.has c = true → s.hub.has c = true) : Section cap u s' phases where
  bound := Hub.devices_congr a.holds ▸ sec.bound
  alone := sec.alone
  arriving c here user := Hub.devices_congr a.holds ▸ sec.arriving c (arriving c here) user
  evicting c here user has := Hub.devices_congr a.holds ▸
    sec.evicting c ((a.evictions c user).mpr here) user (evicting c here user has)
  kept x mem here := (sec.kept x mem here).apart a here

theorem register (sec : Section cap u s phases) (here : s.inbox = some (.register c)) :
    Section cap u { s with inbox := none, hub := s.hub.register c } phases := by
  by_cases user : c.userID = u
  · obtain ⟨room, nobody⟩ := sec.arriving c here user
    refine ⟨?_, sec.alone, nofun, nofun, fun x mem inside => absurd inside (nobody x mem)⟩
    refine (Finset.card_le_card Hub.devices_register_subset).trans ?_
    rwa [if_pos user.symm]
  · refine sec.apart ?_ nofun nofun
    rw [here]
    exact .register user

theorem unregister (sec : Section cap u s phases) (here : s.inbox = some (.unregister c reason))
    (calm : ∀ x ∈ phases, x.2.section? = some u → x.2.evicts = true → reason ≠ .deviceLimit →
      (s.hub.unregister c).devices u = s.hub.devices u) (hub : s'.hub = s.hub.unregister c)
    (inbox : s'.inbox = none) : Section cap u s' phases where
  bound := by
    rw [hub]
    exact (Finset.card_le_card Hub.devices_unregister_subset).trans sec.bound
  alone := sec.alone
  arriving c' arrives := by
    rw [inbox] at arrives
    cases arrives
  evicting c' waits := by
    rw [inbox] at waits
    cases waits
  kept x mem inside := by
    have kept := sec.kept x mem inside
    rw [here] at kept
    rw [hub, inbox]
    exact kept.unregister inside (calm x mem inside)

theorem process (sec : Section cap u s phases) {event : Event} (here : s.inbox = some event)
    (calm : ∀ c reason, event = .unregister c reason → ∀ x ∈ phases, x.2.section? = some u →
      x.2.evicts = true → reason ≠ .deviceLimit →
        (s.hub.unregister c).devices u = s.hub.devices u) :
    Section cap u ({ s with inbox := none }.process event) phases := by
  cases event with
  | register c => exact sec.register here
  | unregister c reason =>
    refine sec.unregister here (calm c reason rfl) ?_ ?_ <;> simp only [Pod.process]
    · split
      · exact Pod.close_hub
      · rename_i absent
        exact (Hub.unregister_of_not_has (by simpa using absent)).symm
    · split
      · exact Pod.close_inbox
      · rfl
  | broadcast u' payload =>
    refine sec.apart ?_ ?_ ?_
    · simp only [Pod.process, Pod.sendAll_hub, Pod.sendAll_inbox, here]
      exact .broadcast
    · simp [Pod.process]
    · simp [Pod.process]

/-! ## Operations -/

section Run
variable {h : Handler} {i : Nat} {t : Tag} {φ φ' : Phase} {op : Op} {a : Ret op}

theorem step (sec : Section cap u s phases) (now : phases[i]? = some (t, φ))
    (hub : s'.hub = s.hub) (inbox : s'.inbox = s.inbox ∨ s.inbox = none ∧
      ∃ event, s'.inbox = some event ∧ event.section? ≠ some u)
    (enters : φ'.section? = some u → φ.section? = some u ∨
      (∀ (j : Nat) x, j ≠ i → phases[j]? = some x → x.2.section? ≠ some u) ∧
        ∀ event, s.inbox = some event → event.section? ≠ some u)
    (own : φ'.section? = some u → φ'.Kept cap s.hub s.inbox) :
    Section cap u s' (phases.set i (t, φ')) := by
  have apart : Apart u s.hub s'.hub s.inbox s'.inbox := by
    rw [hub]
    rcases inbox with same | ⟨free, event, handed, other⟩
    · rw [same]
      exact ⟨fun _ _ => Iff.rfl, fun _ _ => Iff.rfl⟩
    · rw [free, handed]
      exact .hand other
  have others (inside : φ'.section? = some u) {j : Nat} {x : Tag × Phase} (ne : j ≠ i)
      (there : phases[j]? = some x) : x.2.section? ≠ some u := by
    rcases enters inside with before | ⟨nobody, -⟩
    · exact fun inside' => ne (sec.alone j i x _ there now inside' before)
    · exact nobody j x ne there
  refine ⟨hub ▸ sec.bound, fun j k x y hx hy inside inside' => ?_, fun c arrives user => ?_,
    fun c waits user has => ?_, fun x mem inside => ?_⟩
  · rcases getElem?_set_cases hx with ⟨rfl, rfl⟩ | ⟨ne, old⟩ <;>
      rcases getElem?_set_cases hy with ⟨rfl, rfl⟩ | ⟨ne', old'⟩
    · rfl
    · exact absurd inside' (others inside ne' old')
    · exact absurd inside (others inside' ne old)
    · exact sec.alone j k x y old old' inside inside'
  · have before : s.inbox = some (.register c) := by
      rcases inbox with same | ⟨-, event, handed, other⟩
      · exact same.symm.trans arrives
      · rw [handed] at arrives
        cases arrives
        exact absurd (congrArg some user) other
    obtain ⟨room, nobody⟩ := sec.arriving c before user
    refine ⟨hub ▸ room, fun x mem inside => ?_⟩
    rcases List.mem_or_eq_of_mem_set mem with old | rfl
    · exact nobody x old inside
    · rcases enters inside with already | ⟨-, clear⟩
      · exact nobody _ (List.mem_of_getElem? now) already
      · exact clear _ before (congrArg some user)
  · exact hub ▸ sec.evicting c ((apart.evictions c user).mpr waits) user (hub ▸ has)
  · rcases List.mem_or_eq_of_mem_set mem with old | rfl
    · exact (sec.kept x old inside).apart apart inside
    · exact (own inside).apart apart inside

/-- A handshake of the user hands its registration over. -/
theorem hand_register {room : Room} (sec : Section cap u s phases) (user : c.userID = u)
    (now : phases[i]? = some (t, .created c room)) (free : s.inbox = none) :
    Section cap u { s with inbox := some (.register c) } (phases.set i (t, .serving c)) := by
  have inside : (Phase.created c room).section? = some u := congrArg some user
  have kept : room.Kept cap s.hub s.inbox c.userID c.deviceID :=
    sec.kept _ (List.mem_of_getElem? now) inside
  have nobody : ∀ x ∈ phases.set i (t, .serving c), x.2.section? ≠ some u := by
    intro x mem inside'
    obtain ⟨j, there⟩ := List.mem_iff_getElem?.mp mem
    rcases getElem?_set_cases there with ⟨rfl, rfl⟩ | ⟨ne, old⟩
    · cases inside'
    · exact ne (sec.alone j i x _ old now inside' inside)
  refine ⟨sec.bound, fun j k x y hx _ inside' => ?_, ?_, nofun, fun x mem inside' => ?_⟩
  · exact absurd inside' (nobody x (List.mem_of_getElem? hx))
  · rintro c' arrives -
    cases arrives
    refine ⟨?_, nobody⟩
    rw [user, free] at kept
    change (insert c.device (s.hub.devices u)).card ≤ cap
    cases room with
    | free => exact (Finset.card_insert_le _ _).trans kept
    | replaces =>
      rw [Conn.device, if_pos kept.1]
      exact kept.2
    | evicted dev =>
      have gone : dev ∉ s.hub.devices u := by
        intro mem
        obtain ⟨c', held, user', device⟩ := Hub.mem_devices.mp mem
        rcases kept.2 c' held user' device with mem | waits
        · cases mem
        · cases waits
      have room := kept.1
      rw [Finset.erase_eq_of_notMem gone] at room
      exact (Finset.card_insert_le _ _).trans room
  · exact absurd inside' (nobody x mem)

/-- A handshake of the user hands the next connection over that it evicts. -/
theorem hand_eviction {d dev : String} {conn : Conn} {rest : List Conn}
    (sec : Section cap u s phases) (free : s.inbox = none)
    (now : phases[i]? = some (t, .evicting u d dev conn rest)) :
    Section cap u { s with inbox := some (.unregister conn .deviceLimit) }
      (phases.set i (t, .ofEvicted u d dev rest)) := by
  have kept : Evicting cap s.hub s.inbox u dev (conn :: rest) :=
    sec.kept _ (List.mem_of_getElem? now) rfl
  have others {j : Nat} {x : Tag × Phase} (ne : j ≠ i) (there : phases[j]? = some x) :
      x.2.section? ≠ some u := fun inside => ne (sec.alone j i x _ there now inside rfl)
  rw [free] at kept
  refine ⟨sec.bound, fun j k x y hx hy inside inside' => ?_, nofun, ?_, fun x mem inside => ?_⟩
  · rcases getElem?_set_cases hx with ⟨rfl, rfl⟩ | ⟨ne, old⟩ <;>
      rcases getElem?_set_cases hy with ⟨rfl, rfl⟩ | ⟨ne', old'⟩
    · rfl
    · exact absurd inside' (others ne' old')
    · exact absurd inside (others ne old)
    · exact absurd inside (others ne old)
  · rintro c waits user has
    cases waits
    obtain ⟨c', found⟩ := Option.isSome_iff_exists.mp has
    have key := s.hub.keyed _ _ found
    have held : s.hub.holds c' := by rw [Hub.holds, key, found]
    have user' : c'.userID = u := (congrArg Prod.fst key).trans user
    have device := kept.only c' conn (.inl List.mem_cons_self) held user' key
    have mem : dev ∈ s.hub.devices u := Hub.mem_devices.mpr ⟨c', held, user', device⟩
    have full := kept.full
    rwa [Finset.insert_eq_of_mem mem] at full
  · obtain ⟨j, there⟩ := List.mem_iff_getElem?.mp mem
    rcases getElem?_set_cases there with ⟨rfl, rfl⟩ | ⟨ne, old⟩
    · cases rest with
      | nil => exact ⟨kept.hand.room, kept.hand.covered⟩
      | cons conn' rest => exact kept.hand
    · exact absurd inside (others ne old)

/-- What the device check finds of the other handshakes of the user. -/
def Clear (u : String) (s : Pod) (phases : List (Tag × Phase)) (i : Nat) : Prop :=
  (∀ (j : Nat) x, j ≠ i → phases[j]? = some x → x.2.section? ≠ some u) ∧
    ∀ event, s.inbox = some event → event.section? ≠ some u

theorem quiet_of_clear (clear : Clear u s phases i) : Quiet s.inbox u :=
  fun _ waits user => clear.2 _ waits (congrArg some user)

/-- A device that `HasDevice` finds counts. -/
theorem mem_devices_of_hasDevice {hub : Hub} {d : String} (found : hub.hasDevice u d = true) :
    d ∈ hub.devices u := by
  simp only [Hub.hasDevice, Bool.and_eq_true, decide_eq_true_eq, List.any_eq_true] at found
  obtain ⟨named, c, mem, device⟩ := found
  obtain ⟨held, user⟩ := Hub.mem_conns.mp mem
  exact Hub.mem_devices.mpr ⟨c, held, user, by rw [Conn.device, if_pos (device ▸ named), device]⟩

/-- The handshake enters the section with its device check; from then on it has what it needs. -/
theorem kept_next (sec : Section h.maxDevicesPerUser u s phases) (now : phases[i]? = some (t, φ))
    (moves : Moves h φ op a φ') (answered : Pod.Answered s.hub op a)
    (checked : op.checks? = some u → Clear u s phases i)
    (named : ∀ dev, op = .evicted u dev → ∀ c, s.hub.holds c → c.userID = u → c.id = dev →
      c.device = dev)
    (users : ∀ conn, op = .unregister conn .deviceLimit → φ.section? = some conn.userID)
    (other : ∀ event, op.event? = some event → event.section? ≠ some u)
    (inside : φ'.section? = some u) :
    (φ.section? = some u ∨ Clear u s phases i) ∧
      φ'.Kept h.maxDevicesPerUser s.hub s.inbox := by
  have kept : φ.section? = some u → φ.Kept h.maxDevicesPerUser s.hub s.inbox :=
    sec.kept _ (List.mem_of_getElem? now)
  have cap_pos := h.cap_pos
  have bound := sec.bound
  cases moves with
  | waiting _ => cases inside
  | refused => cases inside
  | passed _ _ => cases inside
  | unconnected _ => cases inside
  | rejected _ => cases inside
  | failed => cases inside
  | registered => cases inside
  | served _ _ => cases inside
  | closed => cases inside
  | sent _ => cases inside
  | @connected _ u' d policy at_ d_ne =>
    cases inside
    refine ⟨.inr (checked rfl), d_ne, ?_⟩
    rwa [Finset.insert_eq_of_mem (mem_devices_of_hasDevice (Eq.symm answered))]
  | @full _ u' d policy n at_ full =>
    cases inside
    have count : n = s.hub.getActiveDeviceCount u := answered
    rw [Hub.getActiveDeviceCount_eq] at count
    exact ⟨.inr (checked rfl), count ▸ full, quiet_of_clear (checked rfl)⟩
  | @free _ u' d policy n at_ below =>
    cases inside
    have count : n = s.hub.getActiveDeviceCount u := answered
    rw [Hub.getActiveDeviceCount_eq] at count
    exact ⟨.inr (checked rfl), (count ▸ below : (s.hub.devices u).card < _)⟩
  | @oldest u' d dev dev_ne =>
    cases inside
    obtain ⟨full, quiet⟩ := kept rfl
    obtain ⟨conns, perm, oldest⟩ := answered
    obtain ⟨-, c, mem, device⟩ := getOldestDeviceID_eq_some oldest.symm
    obtain ⟨held, user⟩ := Hub.mem_conns.mp (perm.subset mem)
    exact ⟨.inl rfl, full, Hub.mem_devices.mpr ⟨c, held, user, device⟩, quiet⟩
  | @noOldest u' d oldest none =>
    cases inside
    obtain ⟨full, -⟩ := kept rfl
    obtain ⟨conns, perm, oldest⟩ := answered
    obtain ⟨d', mem⟩ := Finset.card_pos.mp (cap_pos.trans_le full)
    obtain ⟨c, held, user, -⟩ := Hub.mem_devices.mp mem
    have some : conns ≠ [] := List.ne_nil_of_mem
      (perm.mem_iff.mpr (Hub.mem_conns.mpr ⟨held, user⟩))
    obtain ⟨dev, found⟩ := getOldestDeviceID_isSome some
    rw [found] at oldest
    rcases none with rfl | rfl
    · cases oldest
    · cases oldest
      exact absurd rfl (getOldestDeviceID_eq_some found).1
  | @evictNone u' d dev =>
    cases inside
    obtain ⟨full, mem, quiet⟩ := kept rfl
    have evicting := Evicting.start bound full mem quiet answered (named dev rfl)
    exact ⟨.inl rfl, evicting.room, evicting.covered⟩
  | @evict u' d dev conn rest =>
    cases inside
    obtain ⟨full, mem, quiet⟩ := kept rfl
    exact ⟨.inl rfl, Evicting.start bound full mem quiet answered (named dev rfl)⟩
  | noticed =>
    cases inside
    exact ⟨.inl rfl, kept rfl⟩
  | evictedLast => exact absurd ((users _ rfl).symm.trans inside) (other _ rfl)
  | evictedOne => exact absurd ((users _ rfl).symm.trans inside) (other _ rfl)
  | replaceNone =>
    cases inside
    exact ⟨.inl rfl, kept rfl⟩
  | @replace u' d conn rest =>
    cases inside
    obtain ⟨d_ne, room⟩ := kept rfl
    refine ⟨.inl rfl, fun c mem => ?_, d_ne, room⟩
    have found := (List.Perm.mem_iff answered).mp mem
    exact (Hub.mem_conns.mp (List.mem_filter.mp found).1).2
  | replacedLast =>
    cases inside
    exact ⟨.inl rfl, (kept rfl).2⟩
  | replacedOne =>
    cases inside
    obtain ⟨users, room⟩ := kept rfl
    exact ⟨.inl rfl, fun c mem => users c (List.mem_cons_of_mem _ mem), room⟩
  | accepted =>
    cases inside
    exact ⟨.inl rfl, kept rfl⟩
  | @created u' d room conn =>
    obtain ⟨rfl, rfl⟩ := answered
    cases inside
    exact ⟨.inl rfl, kept rfl⟩

theorem exec (sec : Section h.maxDevicesPerUser u s phases) (now : phases[i]? = some (t, φ))
    (moves : Moves h φ op a φ') (effect : Pod.Effect s op a s') (answered : Pod.Answered s.hub op a)
    (checked : op.checks? = some u → Clear u s phases i)
    (named : ∀ dev, op = .evicted u dev → ∀ c, s.hub.holds c → c.userID = u → c.id = dev →
      c.device = dev)
    (users : ∀ conn, op = .unregister conn .deviceLimit → φ.section? = some conn.userID) :
    Section h.maxDevicesPerUser u s' (phases.set i (t, φ')) := by
  by_cases own : ∃ event, op.event? = some event ∧ event.section? = some u
  · obtain ⟨event, hands, user⟩ := own
    cases effect with
    | nothing plain =>
      rw [plain.quiet] at hands
      cases hands
    | sent _ _ plain _ =>
      rw [plain.quiet] at hands
      cases hands
    | handed event' hands' free =>
      rw [hands] at hands'
      cases hands'
      cases op with
      | register c =>
        cases hands
        obtain ⟨⟨room, rfl⟩, rfl⟩ := moves.of_register
        exact sec.hand_register (Option.some.inj user) now free
      | unregister conn reason =>
        cases hands
        cases reason with
        | deviceLimit =>
          have section_ := users conn rfl
          cases moves with
          | evictedLast =>
            cases section_.trans user
            exact sec.hand_eviction free now
          | evictedOne =>
            cases section_.trans user
            exact sec.hand_eviction free now
          | waiting plain => cases plain.quiet
          | sent plain => cases plain.quiet
          | served _ stays => exact absurd rfl (stays conn .deviceLimit)
        | _ => cases user
      | sendToUser u' payload =>
        cases hands
        cases user
      | _ => cases hands
    | _ => cases hands
  · have other : ∀ event, op.event? = some event → event.section? ≠ some u :=
      fun event hands inside => own ⟨event, hands, inside⟩
    refine sec.step now effect.hub ?_
      (fun inside => (sec.kept_next now moves answered checked named users other inside).1)
      fun inside => (sec.kept_next now moves answered checked named users other inside).2
    rcases effect.inbox with ⟨-, same⟩ | ⟨free, handed⟩
    · exact .inl same
    · cases hands : op.event? with
      | none => exact .inl (by rw [handed, hands, free])
      | some event => exact .inr ⟨free, event, handed.trans hands, other event hands⟩

end Run
end Section

/-! ## Runs -/

section Runs
variable {S : Gateway.Platform} {r : Gateway.Router} {h : Handler}

/-- The user on whose connections an operation past the device check works. -/
def Op.section? : Op → Option String
  | .getOldestDeviceID u => some u
  | .superseded u _ => some u
  | .evicted u _ => some u
  | .notice conn _ => some conn.userID
  | .unregister conn reason => if reason = .disconnected then none else some conn.userID
  | .accept u => some u
  | .newConn u _ => some u
  | .register conn => some conn.userID
  | _ => none

/-- The user one of whose devices the operation evicts. -/
def Op.evicts? : Op → Option String
  | .getOldestDeviceID u => some u
  | .evicted u _ => some u
  | .notice conn _ => some conn.userID
  | .unregister conn .deviceLimit => some conn.userID
  | _ => none

/-- No other handshake of the user is past its device check and not registered, and none of his
evictions waits for the loop. -/
def ChecksAlone (u : String) (p : Pool (pod S r h)) (i : Nat) : Prop :=
  (∀ j t op, j ≠ i → p.next j = some (t, op) → op.section? ≠ some u) ∧
    ∀ event, p.shared.inbox = some event → event.section? ≠ some u

/-- Handshakes of one user do not overlap from the device check on; while a device of the user is
evicted, none of his other devices goes; and no device bears the id of another's connection. -/
def CapKept (p : Pool (pod S r h)) : PoolLabel (pod S r h) → Prop
  | .run i _ => ∀ t op, p.next i = some (t, op) →
      (∀ u, op.checks? = some u → ChecksAlone u p i) ∧
        ∀ u dev, op = .evicted u dev → ∀ c, p.shared.hub.holds c → c.userID = u → c.id = dev →
          c.device = dev
  | .env .loop => ∀ c reason, p.shared.inbox = some (.unregister c reason) →
      reason ≠ .deviceLimit → (∃ i t op, p.next i = some (t, op) ∧ op.evicts? = some c.userID) →
        (p.shared.hub.unregister c).getActiveDeviceCount c.userID =
          p.shared.hub.getActiveDeviceCount c.userID
  | _ => True

variable {cap : Nat} {u : String} {phases : List (Tag × Phase)} {φ : Phase} {op : Op} {hub : Hub}
  {inbox : Option Event}

theorem Phase.op_section (allowed : φ.allows h op) (inside : φ.section? = some u)
    (kept : φ.Kept cap hub inbox) :
    op.section? = some u ∧ (φ.evicts = true → op.evicts? = some u) := by
  cases φ with
  | noticing u' d dev conn rest =>
    obtain ⟨payload, rfl⟩ := allowed
    have user : conn.userID = u' := kept.users conn List.mem_cons_self
    cases inside
    exact ⟨congrArg some user, fun _ => congrArg some user⟩
  | evicting u' d dev conn rest =>
    cases allowed
    have user : conn.userID = u' := kept.users conn List.mem_cons_self
    cases inside
    exact ⟨congrArg some user, fun _ => congrArg some user⟩
  | replacing u' d conn rest =>
    cases allowed
    have user : conn.userID = u' := kept.1 conn List.mem_cons_self
    cases inside
    exact ⟨congrArg some user, nofun⟩
  | atCap u' d =>
    cases allowed
    exact ⟨inside, fun _ => inside⟩
  | choosing u' d dev =>
    cases allowed
    exact ⟨inside, fun _ => inside⟩
  | superseding u' d =>
    cases allowed
    exact ⟨inside, nofun⟩
  | admitted u' d room =>
    cases allowed
    exact ⟨inside, nofun⟩
  | accepted u' d room =>
    cases allowed
    exact ⟨inside, nofun⟩
  | created conn room =>
    cases allowed
    exact ⟨inside, nofun⟩
  | _ => cases inside

theorem section_start {clock : Nat} : Section cap u (Pod.start clock) [] where
  bound := by
    have none : Hub.new.devices u = ∅ := rfl
    simp [Pod.start, none]
  alone i _ _ _ here := by simp at here
  arriving _ arrives := by cases arrives
  evicting _ waits := by cases waits
  kept _ mem := absurd mem List.not_mem_nil

theorem section_spawn {s : Pod} {t : Tag} (sec : Section cap u s phases) :
    Section cap u s (phases ++ [(t, (handshakes h).start t)]) := by
  have outside : ((handshakes h).start t : Phase).section? ≠ some u := by cases t <;> nofun
  have old {i : Nat} {x : Tag × Phase}
      (there : (phases ++ [(t, (handshakes h).start t)])[i]? = some x)
      (inside : x.2.section? = some u) : phases[i]? = some x := by
    rcases getElem?_concat_cases there with old | rfl
    · exact old
    · exact absurd inside outside
  refine ⟨sec.bound, fun i j x y hx hy inside inside' => ?_, fun c arrives user => ?_,
    sec.evicting, fun x mem inside => ?_⟩
  · exact sec.alone i j x y (old hx inside) (old hy inside') inside inside'
  · obtain ⟨room, nobody⟩ := sec.arriving c arrives user
    refine ⟨room, fun x mem inside => ?_⟩
    obtain ⟨i, there⟩ := List.mem_iff_getElem?.mp mem
    exact nobody x (List.mem_of_getElem? (old there inside)) inside
  · obtain ⟨i, there⟩ := List.mem_iff_getElem?.mp mem
    exact sec.kept x (List.mem_of_getElem? (old there inside)) inside

/-- A thread in the section of a user goes on with an operation on his connections. -/
theorem next_in_section {p : Pool (pod S r h)} {t : Tag}
    (phased : Pool.Phased (handshakes h) rested p phases) {i : Nat} (now : phases[i]? = some (t, φ))
    (inside : φ.section? = some u) (kept : φ.Kept cap hub inbox) :
    ∃ op, p.next i = some (t, op) ∧ op.section? = some u ∧
      (φ.evicts = true → op.evicts? = some u) := by
  have active : φ.rests = false := by
    cases φ <;> first | rfl | cases inside
  obtain ⟨op, next, allowed⟩ := next_of_phase phased now active
  exact ⟨op, next, Phase.op_section allowed inside kept⟩

theorem evicts_own {conn : Conn} (allowed : φ.allows h (.unregister conn .deviceLimit))
    (kept : ∀ u, φ.section? = some u → φ.Kept cap hub inbox) :
    φ.section? = some conn.userID := by
  cases φ with
  | evicting u d dev conn' rest =>
    cases allowed
    exact congrArg some (Evicting.users (kept u rfl) conn List.mem_cons_self).symm
  | serving conn' => exact absurd allowed.2 nofun
  | replacing u d conn' rest => cases allowed
  | fresh req =>
    obtain ⟨-, claims, -, check⟩ := allowed
    rcases check with ⟨same, -⟩ | same <;> cases same
  | tested u d policy => rcases allowed with ⟨same, -⟩ | same <;> cases same
  | noticing u d dev conn' rest =>
    obtain ⟨payload, same⟩ := allowed
    cases same
  | sending => rcases allowed with ⟨u, d, p, same⟩ | ⟨u, p, same⟩ | ⟨p, same⟩ <;> cases same
  | _ => cases allowed

theorem section_reach {p : Pool (pod S r h)} (hp : (Pool.machine (pod S r h)).Reach CapKept p) :
    ∃ phases, Pool.Phased (handshakes h) rested p phases ∧
      ∀ u, Section h.maxDevicesPerUser u p.shared phases := by
  refine Pool.phased (T := handshakes h) (Q := rested)
    (I := fun s phases => ∀ u, Section h.maxDevicesPerUser u s phases) ?_ ?_ ?_ ?_ ?_ hp
  · exact fun _ t _ => pod_follows t
  · rintro _ ⟨clock, rfl⟩ u
    exact section_start
  · intro p phases t _ sec u
    exact section_spawn (sec u)
  · intro p phases i choice t op k φ a s phased ok thread now allowed hr sec u
    obtain ⟨alone, named⟩ := ok t op (Pool.next_call thread)
    refine (sec u).exec now (Phase.moves allowed a) (Pod.exec_effect hr) (Pod.exec_answered hr)
      (fun checks => ⟨fun j x other there inside => ?_, (alone u checks).2⟩) (named u) ?_
    · obtain ⟨op', next, on, -⟩ := next_in_section phased there inside
        ((sec u).kept x (List.mem_of_getElem? there) inside)
      exact (alone u checks).1 j x.1 op' other next on
    · rintro conn rfl
      exact evicts_own allowed fun u => (sec u).kept _ (List.mem_of_getElem? now)
  · intro p phases e s phased ok step sec u
    have changed := (Pod.env_eq step).2
    cases e with
    | loop =>
      obtain ⟨event, here, rfl⟩ := Option.map_eq_some_iff.mp changed
      refine (sec u).process here ?_
      rintro c reason rfl x mem inside evicts other
      by_cases user : c.userID = u
      · obtain ⟨i, there⟩ := List.mem_iff_getElem?.mp mem
        obtain ⟨op, next, -, on⟩ := next_in_section phased there inside
          ((sec u).kept x mem inside)
        have same := ok c reason here other ⟨i, x.1, op, next, user ▸ on evicts⟩
        rw [user, Hub.getActiveDeviceCount_eq, Hub.getActiveDeviceCount_eq] at same
        exact Finset.eq_of_subset_of_card_le Hub.devices_unregister_subset same.ge
      · exact Hub.devices_unregister_of_ne user
    | write uuid =>
      obtain ⟨_, _, _, -, rfl⟩ := Pod.write_eq changed
      exact (sec u).apart ⟨fun _ _ => Iff.rfl, fun _ _ => Iff.rfl⟩ (fun _ => id) fun _ _ _ => id
    | server change =>
      obtain ⟨server, rfl⟩ := changed
      exact (sec u).apart ⟨fun _ _ => Iff.rfl, fun _ _ => Iff.rfl⟩ (fun _ => id) fun _ _ _ => id

/-- In a run that keeps to the condition a user has at most as many devices as the cap allows, and a
device that is evicted is evicted at the cap. -/
theorem device_cap_kept {p : Pool (pod S r h)} (hp : (Pool.machine (pod S r h)).Reach CapKept p) :
    (∀ u, p.shared.hub.getActiveDeviceCount u ≤ h.maxDevicesPerUser) ∧
      ∀ c, p.shared.inbox = some (.unregister c .deviceLimit) → p.shared.hub.has c = true →
        h.maxDevicesPerUser ≤ p.shared.hub.getActiveDeviceCount c.userID := by
  obtain ⟨phases, -, sec⟩ := section_reach hp
  simp only [Hub.getActiveDeviceCount_eq]
  exact ⟨fun u => (sec u).bound, fun c waits has => (sec c.userID).evicting c waits rfl has⟩

/-! ## Samples -/

def checksAlone (u : String) (p : Pool (pod S r h)) (i : Nat) : Bool :=
  ((List.range p.threads.length).all fun j => j = i ||
    (p.next j).all fun x => x.2.section? ≠ some u) &&
  p.shared.inbox.all fun event => event.section? ≠ some u

def capKept (p : Pool (pod S r h)) : PoolLabel (pod S r h) → Bool
  | .run i _ => (p.next i).all fun x => x.2.checks?.all (fun u => checksAlone u p i) &&
      match x.2 with
      | .evicted u dev => (p.shared.hub.conns u).all fun c => c.id ≠ dev || c.device = dev
      | _ => true
  | .env .loop => match p.shared.inbox with
    | some (.unregister _ reason) => reason = .deviceLimit
    | _ => true
  | _ => true

theorem checksAlone_sound {u : String} {p : Pool (pod S r h)} {i : Nat}
    (ok : checksAlone u p i = true) : ChecksAlone u p i := by
  obtain ⟨threads, inbox⟩ := Bool.and_eq_true_iff.mp ok
  refine ⟨fun j t op other next => ?_, fun event here => by simpa [here] using inbox⟩
  have lt : j < p.threads.length := by
    obtain ⟨k, thread⟩ := Pool.call_of_next next
    exact (List.getElem?_eq_some_iff.mp thread).1
  have apart := List.all_eq_true.mp threads j (List.mem_range.mpr lt)
  simpa [other, next] using apart

theorem capKept_sound {p : Pool (pod S r h)} {l : PoolLabel (pod S r h)} (ok : capKept p l = true) :
    CapKept p l := by
  match l with
  | .spawn _ => trivial
  | .env (.write _) => trivial
  | .env (.server _) => trivial
  | .env .loop =>
    intro c reason here other
    simp only [capKept, here, decide_eq_true_eq] at ok
    exact absurd ok other
  | .run i choice =>
    intro t op next
    simp only [capKept, next, Option.all_some, Bool.and_eq_true] at ok
    refine ⟨fun u checks => checksAlone_sound ?_, ?_⟩
    · simpa [checks] using ok.1
    · rintro u dev rfl c held user id
      have named := List.all_eq_true.mp ok.2 c (Hub.mem_conns.mpr ⟨held, user⟩)
      simpa [id] using named

end Runs

/-- Alice's phone is evicted for her laptop. -/
def laptopEvicts : Option (Pool (samplePod 10 1)) :=
  podFrom capKept <| List.flatten [
    [.spawn (.handshake (sampleRequest "alice" "phone") []),
      .spawn (.handshake (sampleRequest "alice" "laptop") [])],
    checkLabels 0, [.run 0 .ok], connectLabels 0 "c1", checkLabels 1,
    [.run 1 .ok, .run 1 (.order [⟨"c1", "alice", "phone", Gateway.sampleClock, by decide⟩]),
      .run 1 (.order [⟨"c1", "alice", "phone", Gateway.sampleClock, by decide⟩]),
      .run 1 .ok, .run 1 .ok]]

theorem laptopEvicts_isSome : laptopEvicts.isSome := by rfl

theorem device_cap_kept_sample :
    (∀ u, (laptopEvicts.get laptopEvicts_isSome).shared.hub.getActiveDeviceCount u ≤
      (sampleHandler 10 1).maxDevicesPerUser) ∧
    ∀ c, (laptopEvicts.get laptopEvicts_isSome).shared.inbox = some (.unregister c .deviceLimit) →
      (laptopEvicts.get laptopEvicts_isSome).shared.hub.has c = true →
      (sampleHandler 10 1).maxDevicesPerUser ≤
        (laptopEvicts.get laptopEvicts_isSome).shared.hub.getActiveDeviceCount c.userID :=
  device_cap_kept ((podFrom_reach (Option.some_get laptopEvicts_isSome).symm).mono
    fun _ _ => capKept_sound)

/-- Both devices pass their check before either is registered. -/
def bothAdmitted : Option (Pool (samplePod 10 1)) :=
  podFrom (fun _ _ => true) <| List.flatten [
    [.spawn (.handshake (sampleRequest "alice" "phone") []),
      .spawn (.handshake (sampleRequest "alice" "laptop") [])],
    checkLabels 0, [.run 0 .ok], checkLabels 1, [.run 1 .ok],
    connectLabels 0 "c1", connectLabels 1 "c2"]

theorem bothAdmitted_isSome : bothAdmitted.isSome := by rfl

theorem device_cap_exceeded : ∃ p, (Pool.machine (samplePod 10 1)).Reachable p ∧
    (sampleHandler 10 1).maxDevicesPerUser < p.shared.hub.getActiveDeviceCount "alice" :=
  ⟨bothAdmitted.get bothAdmitted_isSome,
    (podFrom_reach (Option.some_get bothAdmitted_isSome).symm).reachable, by decide⟩

end GenChat.Ws
