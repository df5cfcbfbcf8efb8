import GenChat.Ws.Pod
import GenChat.Ws.Presence

/-!
# A cluster of hubs

The hubs of all pods with the messages between them. The loop of a hub puts a message on the queues
of its own connections and leaves the other pods to a goroutine, which reads the directory and
publishes; a pod takes what is published for it in the order of publication.

Calls and messages are numbered, and the outbox of a connection keeps what was written and what was
dropped; nothing reads these.
-/
namespace GenChat.Ws
open Library Ledger

/-- A payload, with the call it belongs to, its place among all messages that hubs have taken, and
the pod and the goroutine of the caller. -/
structure Message where
  call : Nat
  index : Nat
  pod : PodID
  caller : String
  payload : Bytes
  deriving DecidableEq

/-- The queue of a connection, with what left it and what it had no space for. -/
structure Outbox where
  waiting : List Message
  written : List Message
  dropped : List Message

namespace Outbox

def empty : Outbox := ⟨[], [], []⟩

variable (o : Outbox)

def received : List Message := o.written ++ o.waiting

/-- `select` with a default. -/
def offer (m : Message) : Outbox :=
  if o.waiting.length < sendChannelSize then { o with waiting := o.waiting ++ [m] }
  else { o with dropped := o.dropped ++ [m] }

end Outbox

inductive SendRequest where
  | sendToUser (userID : String) (payload : Bytes)
  | broadcastAll (excludeUserID : String) (payload : Bytes)
  | reconnect (payload : Bytes)
  deriving DecidableEq

structure Call where
  pod : PodID
  caller : String
  request : SendRequest
  deriving DecidableEq

inductive Stage where
  | members
  | fallback
  | publish (pods : List PodID)
  deriving DecidableEq

/-- The goroutine that forwards a message to the other pods. -/
structure Forward where
  userID : String
  message : Message
  stage : Stage

/-- A `BroadcastAll` under way, with the users it has still to send to. -/
structure Fanout where
  call : Nat
  pod : PodID
  caller : String
  userIDs : List String
  payload : Bytes

structure PodEnvelope where
  targetUserID : String
  message : Message

/-- Goroutines are in the order of their launch, envelopes in the order of publication, each with
the pod it is for. -/
structure Traffic where
  outboxes : PodID → String × String → Outbox
  published : List (PodID × PodEnvelope)
  forwards : List Forward
  fanouts : List Fanout
  calls : List Call
  sent : Nat

inductive TrafficEvent where
  | sendToUser (pod : PodID) (caller userID : String) (payload : Bytes)
  | broadcastAll (pod : PodID) (caller excludeUserID : String) (payload : Bytes)
      (userIDs : List String)
  | fanout (i : Nat)
  | sMembers (i : Nat) (pods : List PodID)
  | sMembersFail (i : Nat)
  | get (i : Nat)
  | getFail (i : Nat)
  | publish (i : Nat)
  | publishFail (i : Nat)
  | deliver (pod : PodID)
  | lose (i : Nat)
  | write (pod : PodID) (key : String × String)

namespace Traffic

def start : Traffic := ⟨fun _ _ => .empty, [], [], [], [], 0⟩

variable (t : Traffic) (p : Presence)

/-- Offer a message to the connections of a hub under the keys that are picked. -/
def offer (pod : PodID) (hub : Hub) (picked : String × String → Bool) (m : Message) : Traffic :=
  { t with outboxes := Function.update t.outboxes pod fun key =>
      if picked key ∧ (hub.connections.lookup key).isSome then (t.outboxes pod key).offer m
      else t.outboxes pod key }

theorem outboxes_offer {t : Traffic} {pod pod' : PodID} {hub : Hub}
    {picked : String × String → Bool} {m : Message} {key : String × String} :
    (t.offer pod hub picked m).outboxes pod' key =
      if pod' = pod ∧ picked key ∧ (hub.connections.lookup key).isSome
      then (t.outboxes pod' key).offer m else t.outboxes pod' key := by
  by_cases here : pod' = pod
  · subst here
    simp [offer]
  · simp [offer, here]

def deliverLocal (pod : PodID) (userID : String) (m : Message) : Traffic :=
  t.offer pod (p.hubs pod) (fun key => key.1 = userID) m

/-- The loop of a hub takes a message: local connections first, then a goroutine for the rest. -/
def broadcast (call : Nat) (pod : PodID) (caller userID : String) (payload : Bytes) : Traffic :=
  let m : Message := ⟨call, t.sent, pod, caller, payload⟩
  let t := t.deliverLocal p pod userID m
  { t with forwards := t.forwards ++ [⟨userID, m, .members⟩], sent := t.sent + 1 }

def called (call : Call) : Traffic := { t with calls := t.calls ++ [call] }

/-- The pods that the loop over the result of `GetUserGateways` publishes to. -/
def remote (m : Message) (pods : List PodID) : Stage := .publish (pods.filter (· ≠ m.pod))

def moveForward (i : Nat) (f : Forward) (stage : Stage) : Traffic :=
  { t with forwards := t.forwards.set i { f with stage := stage } }

/-- The next message of a `BroadcastAll`. -/
def fanout (i : Nat) : Option Traffic :=
  match t.fanouts[i]? with
  | some ⟨call, pod, caller, userID :: rest, payload⟩ =>
    if p.unlocked pod then
      some { t.broadcast p call pod caller userID payload with
        fanouts := t.fanouts.set i ⟨call, pod, caller, rest, payload⟩ }
    else none
  | _ => none

/-- Move a goroutine that forwards on from the stage it is in. -/
def forward (i : Nat) (next : Forward → Option Stage) : Option Traffic := do
  let f ← t.forwards[i]?
  let stage ← next f
  some (t.moveForward i f stage)

theorem forward_eq {t t' : Traffic} {i : Nat} {next : Forward → Option Stage}
    (step : t.forward i next = some t') :
    ∃ f stage, t.forwards[i]? = some f ∧ next f = some stage ∧ t' = t.moveForward i f stage := by
  obtain ⟨f, here, step⟩ := Option.bind_eq_some_iff.mp step
  obtain ⟨stage, move, step⟩ := Option.bind_eq_some_iff.mp step
  cases step
  exact ⟨f, stage, here, move, rfl⟩

def sMembers (pods : List PodID) (f : Forward) : Option Stage :=
  match f.stage with
  | .members =>
    if pods.Nodup ∧ pods.toFinset = p.directory.gateways f.userID then
      some (if pods ≠ [] then remote f.message pods else .fallback)
    else none
  | _ => none

def sMembersFail (f : Forward) : Option Stage :=
  match f.stage with
  | .members => some .fallback
  | _ => none

def get (f : Forward) : Option Stage :=
  match f.stage with
  | .fallback => some (remote f.message (p.directory.fallback f.userID).toList)
  | _ => none

def getFail (f : Forward) : Option Stage :=
  match f.stage with
  | .fallback => some (.publish [])
  | _ => none

def publishFail (f : Forward) : Option Stage :=
  match f.stage with
  | .publish (_ :: rest) => some (.publish rest)
  | _ => none

def publish (i : Nat) : Option Traffic :=
  match t.forwards[i]? with
  | some ⟨userID, m, .publish (pod :: rest)⟩ =>
    some { t.moveForward i ⟨userID, m, .publish (pod :: rest)⟩ (.publish rest) with
      published := t.published ++ [(pod, ⟨userID, m⟩)] }
  | _ => none

/-- The subscription of a pod takes the first envelope for it. -/
def deliver (pod : PodID) : Option Traffic :=
  match t.published.find? (·.1 = pod) with
  | some (_, env) =>
    if p.unlocked pod then
      some { t.deliverLocal p pod env.targetUserID env.message with
        published := t.published.eraseP (·.1 = pod) }
    else none
  | none => none

def write (pod : PodID) (key : String × String) : Option Traffic :=
  match t.outboxes pod key with
  | ⟨m :: rest, written, dropped⟩ => some { t with
      outboxes := Function.update t.outboxes pod
        (Function.update (t.outboxes pod) key ⟨rest, written ++ [m], dropped⟩) }
  | _ => none

def step : TrafficEvent → Option Traffic
  | .sendToUser pod caller userID payload =>
    if p.unlocked pod then
      some ((t.broadcast p t.calls.length pod caller userID payload).called
        ⟨pod, caller, .sendToUser userID payload⟩)
    else none
  | .broadcastAll pod caller excludeUserID payload userIDs =>
    if p.unlocked pod ∧ userIDs.Perm ((p.hubs pod).users.filter (· ≠ excludeUserID)) then
      some { t.called ⟨pod, caller, .broadcastAll excludeUserID payload⟩ with
        fanouts := t.fanouts ++ [⟨t.calls.length, pod, caller, userIDs, payload⟩] }
    else none
  | .fanout i => t.fanout p i
  | .sMembers i pods => t.forward i (sMembers p pods)
  | .sMembersFail i => t.forward i sMembersFail
  | .get i => t.forward i (get p)
  | .getFail i => t.forward i getFail
  | .publish i => t.publish i
  | .publishFail i => t.forward i publishFail
  | .deliver pod => t.deliver p pod
  | .lose i => some { t with published := t.published.eraseIdx i }
  | .write pod key => t.write pod key

/-- What an event of the presence does to the queues: a new connection has a new queue, and a
`Drain` at its end offers its notice to every connection. -/
def after : PresenceEvent → Traffic
  | .register pod conn => { t with
      outboxes := Function.update t.outboxes pod
        (Function.update (t.outboxes pod) conn.key .empty) }
  | .drainNext pod =>
    match p.drains pod with
    | some ⟨[], notice⟩ =>
      if notice ≠ [] then
        let m : Message := ⟨t.calls.length, t.sent, pod, "", notice⟩
        { (t.offer pod (p.hubs pod) (fun _ => true) m).called ⟨pod, "", .reconnect notice⟩ with
          sent := t.sent + 1 }
      else t
    | _ => t
  | _ => t

end Traffic

structure Cluster where
  presence : Presence
  traffic : Traffic

inductive ClusterLabel where
  | presence (event : PresenceEvent)
  | traffic (event : TrafficEvent)

namespace Cluster

def step (s : Cluster) : ClusterLabel → Option Cluster
  | .presence event =>
    (s.presence.step event).map fun p => ⟨p, s.traffic.after s.presence event⟩
  | .traffic event => (s.traffic.step s.presence event).map fun t => ⟨s.presence, t⟩

def machine : Machine Cluster ClusterLabel where
  start s := ∃ clock, s = ⟨.start clock, .start⟩
  step := step

/-! ## Samples -/

/-- The run of the given labels from the start of all pods. -/
def runFrom (ok : Cluster → ClusterLabel → Bool) (labels : List ClusterLabel) : Option Cluster :=
  machine.follow (fun s l => ok s l) ⟨.start 0, .start⟩ labels

theorem runFrom_reach {ok : Cluster → ClusterLabel → Bool} {labels : List ClusterLabel}
    {s : Cluster} (run : runFrom ok labels = some s) : machine.Reach (fun s l => ok s l) s := by
  have start : machine.Reach (fun s l => ok s l) ⟨.start 0, .start⟩ := .start ⟨0, rfl⟩
  exact start.follow run

def gateway0 : PodID := ⟨"gateway-0", by decide⟩

def gateway1 : PodID := ⟨"gateway-1", by decide⟩

def sampleConn (id userID : String) (ne : id ≠ "") : Conn := ⟨id, userID, "phone", 0, ne⟩

end Cluster
end GenChat.Ws
