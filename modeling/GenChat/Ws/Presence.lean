import GenChat.Ws.Hub
import Mathlib.Logic.Function.Basic
import Mathlib.Data.Finset.Basic

/-!
# The presence directory

The hubs of the pods and the presence keys they keep in Redis. A pipeline sends its commands
together, but Redis serves other clients in between, so its goroutine takes one step for each
command. Keys are dropped when their time is over; sets of Redis are never empty.
-/
namespace GenChat.Ws
open Ledger

/-- The id of a pod: `POD_NAME`, `HOSTNAME` or a generated one. -/
structure PodID where
  name : String
  ne : name ≠ ""

instance : DecidableEq PodID := fun p q =>
  decidable_of_iff (p.name = q.name) (by cases p; cases q; simp)

/-- 24 hours in milliseconds. -/
def presenceTTL : Nat := 24 * 60 * 60 * 1000

/-- The commands on the keys of a user. -/
inductive Command where
  | set
  | sAdd
  | expire
  | sRem
  | del
  deriving DecidableEq

def registerUserGateway : List Command := [.set, .sAdd, .expire]

def deregisterUserGateway : List Command := [.sRem, .del]

/-- The presence keys, by user; a value has its deadline. -/
structure Directory where
  gatewayInstance : String → Option (PodID × Nat)
  gateways : String → Finset PodID
  deadline : String → Option Nat

namespace Directory

def empty : Directory := ⟨fun _ => none, fun _ => ∅, fun _ => none⟩

variable (d : Directory)

def exec (now : Nat) (userID : String) (pod : PodID) : Command → Directory
  | .set =>
    let value := some (pod, now + presenceTTL)
    { d with gatewayInstance := Function.update d.gatewayInstance userID value }
  | .sAdd =>
    let members := insert pod (d.gateways userID)
    { d with gateways := Function.update d.gateways userID members }
  | .expire =>
    if d.gateways userID = ∅ then d
    else { d with deadline := Function.update d.deadline userID (some (now + presenceTTL)) }
  | .sRem =>
    let left := (d.gateways userID).erase pod
    { d with
      gateways := Function.update d.gateways userID left
      deadline := if left = ∅ then Function.update d.deadline userID none else d.deadline }
  | .del => { d with gatewayInstance := Function.update d.gatewayInstance userID none }

/-- Whether the set of gateways is dropped by the given time. -/
def due (now : Nat) (userID : String) : Bool := (d.deadline userID).any (· ≤ now)

def elapse (now : Nat) : Directory where
  gatewayInstance userID := (d.gatewayInstance userID).filter fun key => now < key.2
  gateways userID := if d.due now userID then ∅ else d.gateways userID
  deadline userID := if d.due now userID then none else d.deadline userID

/-- The pod that the single key names. -/
def fallback (userID : String) : Option PodID := (d.gatewayInstance userID).map Prod.fst

def getUserGateways (userID : String) : Finset PodID :=
  if d.gateways userID ≠ ∅ then d.gateways userID else (d.fallback userID).toFinset

end Directory

/-- A goroutine that updates the directory, with the commands it has still to send. -/
structure Update where
  userID : String
  pod : PodID
  commands : List Command

/-- A `Drain` that holds the lock of its hub, with the commands it has still to send. -/
structure Drain where
  commands : List (String × Command)
  reconnectNotice : Bytes

/-- Goroutines are in the order of their launch. `drained` are the connections that a `Drain` has
asked to reconnect and whose users it has taken from the directory. -/
structure Presence where
  hubs : PodID → Hub
  directory : Directory
  clock : Nat
  updates : List Update
  drains : PodID → Option Drain
  drained : PodID → List Conn

inductive PresenceEvent where
  | register (pod : PodID) (conn : Conn)
  | unregister (pod : PodID) (conn : Conn)
  | update (i : Nat)
  | updateFail (i : Nat)
  | drain (pod : PodID) (userIDs : List String) (reconnectNotice : Bytes)
  | drainNext (pod : PodID)
  | drainFail (pod : PodID)
  | tick (elapsed : Nat)

namespace Presence

def start (clock : Nat) : Presence where
  hubs _ := Hub.new
  directory := Directory.empty
  clock := clock
  updates := []
  drains _ := none
  drained _ := []

variable (p : Presence)

def unlocked (pod : PodID) : Bool := (p.drains pod).isNone

/-- Launch a goroutine if the first connection came or the last one went. -/
def launch (transition : Bool) (userID : String) (pod : PodID) (commands : List Command) :
    List Update :=
  if transition then p.updates ++ [⟨userID, pod, commands⟩] else p.updates

def register (pod : PodID) (conn : Conn) : Presence :=
  { p with
    hubs := Function.update p.hubs pod ((p.hubs pod).register conn)
    updates := p.launch ((p.hubs pod).isFirst conn) conn.userID pod registerUserGateway }

def unregister (pod : PodID) (conn : Conn) : Presence :=
  { p with
    hubs := Function.update p.hubs pod ((p.hubs pod).unregister conn)
    updates := p.launch ((p.hubs pod).isLast conn) conn.userID pod deregisterUserGateway
    drained := Function.update p.drained pod
      ((p.drained pod).filter fun c => c.key ≠ conn.key) }

/-- The next command of a goroutine. -/
def update (i : Nat) : Option Presence :=
  match p.updates[i]? with
  | some ⟨userID, pod, command :: rest⟩ => some { p with
      directory := p.directory.exec p.clock userID pod command
      updates := p.updates.set i ⟨userID, pod, rest⟩ }
  | _ => none

/-- A pipeline fails before its next command. -/
def updateFail (i : Nat) : Option Presence :=
  match p.updates[i]? with
  | some ⟨userID, pod, _ :: _⟩ => some { p with updates := p.updates.set i ⟨userID, pod, []⟩ }
  | _ => none

/-- `Drain` takes the lock and goes through the users of the hub. -/
def drain (pod : PodID) (userIDs : List String) (reconnectNotice : Bytes) : Presence :=
  { p with
    drains := Function.update p.drains pod (some
      ⟨userIDs.flatMap fun userID => deregisterUserGateway.map (userID, ·), reconnectNotice⟩)
    drained := Function.update p.drained pod (Store.rows (p.hubs pod).connections) }

/-- The next command of a `Drain`, or its release of the lock. -/
def drainNext (pod : PodID) : Option Presence :=
  match p.drains pod with
  | some ⟨(userID, command) :: rest, notice⟩ => some { p with
      directory := p.directory.exec p.clock userID pod command
      drains := Function.update p.drains pod (some ⟨rest, notice⟩) }
  | some ⟨[], _⟩ => some { p with drains := Function.update p.drains pod none }
  | none => none

/-- The pipeline for a user fails; `Drain` goes on with the next user. -/
def drainFail (pod : PodID) : Option Presence :=
  match p.drains pod with
  | some ⟨(userID, _) :: rest, notice⟩ => some { p with
      drains := Function.update p.drains pod
        (some ⟨rest.dropWhile fun command => command.1 = userID, notice⟩) }
  | _ => none

def step : PresenceEvent → Option Presence
  | .register pod conn => if p.unlocked pod then some (p.register pod conn) else none
  | .unregister pod conn => if p.unlocked pod then some (p.unregister pod conn) else none
  | .update i => p.update i
  | .updateFail i => p.updateFail i
  | .drain pod userIDs notice =>
    if p.unlocked pod ∧ userIDs.Perm (p.hubs pod).users then some (p.drain pod userIDs notice)
    else none
  | .drainNext pod => p.drainNext pod
  | .drainFail pod => p.drainFail pod
  | .tick elapsed => some { p with
      clock := p.clock + elapsed
      directory := p.directory.elapse (p.clock + elapsed) }

/-- `IsUserOnlineCluster` on a pod. -/
def isUserOnlineCluster (pod : PodID) (userID : String) : Bool :=
  (p.hubs pod).isOnline userID || p.directory.getUserGateways userID ≠ ∅

end Presence
end GenChat.Ws
