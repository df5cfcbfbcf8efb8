import GenChat.Ledger.Store
import Mathlib.Data.Finset.Card
import Mathlib.Data.List.Dedup

/-!
# The connections of a hub

The nested map of `Hub` as one table under user id and connection id: the code keeps a user's inner
map exactly as long as it holds a connection. Maps are iterated in any order, so functions whose
result depends on the order take the connections as a list in the order of iteration.
-/
namespace GenChat.Ws
open Ledger

structure Conn where
  id : String
  userID : String
  deviceID : String
  connectedAt : Nat
  id_ne : id ≠ ""
  deriving DecidableEq

/-- The device under which a connection counts. -/
def Conn.device (c : Conn) : String := if c.deviceID ≠ "" then c.deviceID else c.id

theorem Conn.device_ne (c : Conn) : c.device ≠ "" := by
  unfold device
  split
  · assumption
  · exact c.id_ne

def Conn.key (c : Conn) : String × String := (c.userID, c.id)

structure Hub where
  connections : Table (String × String) Conn
  keyed : ∀ key c, connections.lookup key = some c → c.key = key

namespace Hub

def new : Hub := ⟨∅, nofun⟩

variable (h : Hub)

/-- The inner map of a user. -/
def conns (userID : String) : List Conn :=
  (Store.rows h.connections).filter fun c => c.userID = userID

def holds (c : Conn) : Prop := h.connections.lookup c.key = some c

instance (c : Conn) : Decidable (h.holds c) := inferInstanceAs (Decidable (_ = _))

/-- Whether the connection is found by its ids. -/
def has (c : Conn) : Bool := (h.connections.lookup c.key).isSome

/-! ## The cases of `Run` -/

def register (c : Conn) : Hub where
  connections := h.connections.insert c.key c
  keyed key c' found := by
    rcases lookup_insert_cases found with old | ⟨rfl, rfl⟩
    · exact h.keyed key c' old
    · rfl

def unregister (c : Conn) : Hub where
  connections := h.connections.erase c.key
  keyed key c' found := by
    by_cases same : key = c.key
    · rw [same, AList.lookup_erase] at found
      cases found
    · rw [AList.lookup_erase_ne same] at found
      exact h.keyed key c' found

/-- `isFirst` of a registration. -/
def isFirst (c : Conn) : Bool := (h.conns c.userID).isEmpty

/-- `isLast` of an unregistration. -/
def isLast (c : Conn) : Bool := h.has c && ((h.unregister c).conns c.userID).isEmpty

/-! ## What is read from the map -/

def hasDevice (userID deviceID : String) : Bool :=
  deviceID ≠ "" && (h.conns userID).any fun c => c.deviceID = deviceID

def getActiveDeviceCount (userID : String) : Nat :=
  ((h.conns userID).map Conn.device).dedup.length

/-- The connections that `EvictDeviceConnections` collects. -/
def superseded (userID deviceID : String) : List Conn :=
  (h.conns userID).filter fun c => c.deviceID = deviceID

/-- The connections that `EvictDeviceWithNotice` collects. -/
def evicted (userID deviceID : String) : List Conn :=
  (h.conns userID).filter fun c => c.deviceID = deviceID || c.id = deviceID

def isOnline (userID : String) : Bool := !(h.conns userID).isEmpty

/-- The users with connections. -/
def users : List String := ((Store.rows h.connections).map Conn.userID).dedup

def onlineCount : Nat := h.users.length

def totalConnections : Nat := (Store.rows h.connections).length

end Hub

/-- The loop of `GetOldestDeviceID`, with the device and time found so far. -/
def oldestDevice : List Conn → String × Nat → String × Nat
  | [], best => best
  | c :: rest, best =>
    oldestDevice rest (if best.1 = "" ∨ c.connectedAt < best.2 then (c.device, c.connectedAt)
      else best)

/-- `GetOldestDeviceID` over the connections of a user. -/
def getOldestDeviceID (conns : List Conn) : Option String :=
  let oldest := (oldestDevice conns ("", 0)).1
  if oldest ≠ "" then some oldest else none

theorem oldestDevice_ne {conns : List Conn} {best : String × Nat}
    (some : conns ≠ [] ∨ best.1 ≠ "") : (oldestDevice conns best).1 ≠ "" := by
  induction conns generalizing best with
  | nil => exact some.resolve_left (fun ne => ne rfl)
  | cons c rest ih =>
    refine ih (.inr ?_)
    split
    · exact c.device_ne
    · rename_i kept
      exact fun empty => kept (.inl empty)

theorem oldestDevice_mem {conns : List Conn} {best : String × Nat} :
    (oldestDevice conns best).1 = best.1 ∨ ∃ c ∈ conns, c.device = (oldestDevice conns best).1 := by
  induction conns generalizing best with
  | nil => exact .inl rfl
  | cons c rest ih =>
    simp only [oldestDevice]
    split
    · rcases @ih (c.device, c.connectedAt) with same | ⟨c', mem, eq⟩
      · exact .inr ⟨c, by simp, same.symm⟩
      · exact .inr ⟨c', by simp [mem], eq⟩
    · rcases @ih best with same | ⟨c', mem, eq⟩
      · exact .inl same
      · exact .inr ⟨c', by simp [mem], eq⟩

theorem getOldestDeviceID_eq_some {conns : List Conn} {dev : String}
    (h : getOldestDeviceID conns = some dev) : dev ≠ "" ∧ ∃ c ∈ conns, c.device = dev := by
  unfold getOldestDeviceID at h
  simp only at h
  split at h <;> cases h
  rename_i found
  exact ⟨found, oldestDevice_mem.resolve_left found⟩

theorem getOldestDeviceID_isSome {conns : List Conn} (h : conns ≠ []) :
    ∃ dev, getOldestDeviceID conns = some dev := by
  unfold getOldestDeviceID
  exact ⟨_, if_pos (oldestDevice_ne (.inl h))⟩

/-! ## The map -/

namespace Hub
variable {h : Hub} {c c' : Conn} {u : String}

theorem mem_rows : c ∈ Store.rows h.connections ↔ h.holds c := by
  constructor
  · intro mem
    obtain ⟨⟨key, c'⟩, entry, rfl⟩ := List.mem_map.mp mem
    have found := AList.mem_lookup_iff.mpr entry
    rw [holds, h.keyed key _ found]
    exact found
  · intro found
    exact List.mem_map.mpr ⟨⟨c.key, c⟩, AList.mem_lookup_iff.mp found, rfl⟩

theorem mem_conns : c ∈ h.conns u ↔ h.holds c ∧ c.userID = u := by
  simp [conns, mem_rows]

theorem has_of_holds (held : h.holds c) : h.has c = true := by
  rw [has, held]
  rfl

theorem not_holds_new : ¬ Hub.new.holds c := nofun

theorem holds_register : (h.register c).holds c' ↔ c' = c ∨ c'.key ≠ c.key ∧ h.holds c' := by
  by_cases same : c'.key = c.key
  · have found : (h.register c).connections.lookup c'.key = some c := by
      rw [same]
      exact AList.lookup_insert _
    simp [holds, found, same, eq_comm]
  · have distinct : c' ≠ c := fun eq => same (congrArg Conn.key eq)
    simp [holds, register, AList.lookup_insert_ne same, same, distinct]

theorem holds_unregister : (h.unregister c).holds c' ↔ c'.key ≠ c.key ∧ h.holds c' := by
  by_cases same : c'.key = c.key
  · have absent : (h.unregister c).connections.lookup c'.key = none := by
      rw [same]
      exact AList.lookup_erase _ _
    simp [holds, absent, same]
  · simp [holds, unregister, AList.lookup_erase_ne same, same]

theorem isOnline_iff : h.isOnline u = true ↔ ∃ c, h.holds c ∧ c.userID = u := by
  simp only [isOnline, Bool.not_eq_true', List.isEmpty_eq_false_iff_exists_mem, mem_conns]

theorem mem_users : u ∈ h.users ↔ ∃ c, h.holds c ∧ c.userID = u := by
  simp [users, mem_rows]

/-! ## Counts -/

theorem totalConnections_register_le :
    (h.register c).totalConnections ≤ h.totalConnections + 1 := by
  simp only [totalConnections, Store.rows, List.length_map, register]
  rw [AList.entries_insert, List.length_cons]
  exact Nat.succ_le_succ (List.kerase_sublist _ _).length_le

theorem totalConnections_unregister_le :
    (h.unregister c).totalConnections ≤ h.totalConnections := by
  simp only [totalConnections, Store.rows, List.length_map, unregister]
  exact (List.kerase_sublist _ _).length_le

/-- The active devices of a user. -/
def devices (h : Hub) (userID : String) : Finset String :=
  ((h.conns userID).map Conn.device).toFinset

theorem getActiveDeviceCount_eq : h.getActiveDeviceCount u = (h.devices u).card := by
  rw [devices, List.card_toFinset]
  rfl

theorem mem_devices {d : String} : d ∈ h.devices u ↔
    ∃ c, h.holds c ∧ c.userID = u ∧ c.device = d := by
  simp [devices, mem_conns, and_assoc]

theorem devices_register_subset : (h.register c).devices u ⊆
    if u = c.userID then insert c.device (h.devices u) else h.devices u := by
  intro d mem
  obtain ⟨c', held, rfl, rfl⟩ := mem_devices.mp mem
  rcases holds_register.mp held with rfl | ⟨-, old⟩
  · simp
  · have known : c'.device ∈ h.devices c'.userID := mem_devices.mpr ⟨c', old, rfl, rfl⟩
    split
    · exact Finset.mem_insert_of_mem known
    · exact known

theorem devices_unregister_subset : (h.unregister c).devices u ⊆ h.devices u := by
  intro d mem
  obtain ⟨c', held, rfl, rfl⟩ := mem_devices.mp mem
  exact mem_devices.mpr ⟨c', (holds_unregister.mp held).2, rfl, rfl⟩

theorem unregister_of_not_has (absent : h.has c = false) : h.unregister c = h := by
  have missing : c.key ∉ h.connections.keys := by
    rw [← AList.mem_keys, ← AList.lookup_isSome]
    simpa [has] using absent
  have same : h.connections.erase c.key = h.connections :=
    AList.ext (List.kerase_of_notMem_keys missing)
  cases h
  simpa [unregister] using same

theorem devices_congr {h' : Hub} (same : ∀ c, c.userID = u → (h.holds c ↔ h'.holds c)) :
    h.devices u = h'.devices u := by
  ext d
  rw [mem_devices, mem_devices]
  constructor
  · rintro ⟨c, held, user, device⟩
    exact ⟨c, (same c user).mp held, user, device⟩
  · rintro ⟨c, held, user, device⟩
    exact ⟨c, (same c user).mpr held, user, device⟩

theorem devices_register_of_ne (other : c.userID ≠ u) :
    (h.register c).devices u = h.devices u := by
  refine devices_congr fun c' user => ?_
  have ne : c'.key ≠ c.key := fun eq => other ((congrArg Prod.fst eq).symm.trans user)
  have ne' : c' ≠ c := fun eq => ne (congrArg Conn.key eq)
  simp [holds_register, ne, ne']

theorem devices_unregister_of_ne (other : c.userID ≠ u) :
    (h.unregister c).devices u = h.devices u := by
  refine devices_congr fun c' user => ?_
  have ne : c'.key ≠ c.key := fun eq => other ((congrArg Prod.fst eq).symm.trans user)
  simp [holds_unregister, ne]

/-- A connection of one device takes that device away only. -/
theorem devices_subset_unregister {dev : String}
    (only : ∀ c', h.holds c' → c'.key = c.key → c'.device = dev) :
    h.devices u ⊆ insert dev ((h.unregister c).devices u) := by
  intro d mem
  obtain ⟨c', held, user, rfl⟩ := mem_devices.mp mem
  by_cases same : c'.key = c.key
  · rw [only c' held same]
    exact Finset.mem_insert_self _ _
  · exact Finset.mem_insert_of_mem
      (mem_devices.mpr ⟨c', holds_unregister.mpr ⟨same, held⟩, user, rfl⟩)

end Hub
end GenChat.Ws
