import GenChat.Gateway.Runs
import GenChat.Ws.Hub

/-!
# One gateway pod

The hub loop, the handshakes and read pumps of `handler.go`, and whatever else sends through the
hub, as threads over one state. A channel send to the hub hands its event to the loop, which
processes it before it receives the next one. What a goroutine does under the hub's lock is one
operation. Sending on a closed queue and closing it again end the process.
-/
namespace GenChat.Ws
open Library Ledger
open Gateway (WireFormat)

def sendChannelSize : Nat := 256

inductive Payload where
  | frame (f : Gateway.Frame)
  | sessionEvicted (reason : String)
  | rateLimitExceeded
  | reconnect

/-- Why a connection is unregistered; only the bookkeeping reads it. -/
inductive Reason where
  | disconnected
  | superseded
  | deviceLimit
  deriving DecidableEq

/-- What the hub loop receives. -/
inductive Event where
  | register (conn : Conn)
  | unregister (conn : Conn) (reason : Reason)
  | broadcast (targetUserID : String) (payload : Payload)

/-- `conn.Send`. -/
structure Channel where
  buffer : List Payload
  closed : Bool

structure Pod where
  hub : Hub
  /-- The event the loop has received and not yet processed. -/
  inbox : Option Event
  /-- The queues by connection id. -/
  channels : Table String Channel
  /-- `conn.WireFormat` by connection id. -/
  formats : Table String WireFormat
  server : Gateway.Server
  panicked : Bool

namespace Pod

def start (clock : Nat) : Pod := ⟨.new, none, ∅, ∅, .empty clock, false⟩

/-- A send with a `default` branch, which drops the payload when the queue is full. -/
def send (s : Pod) (conn : Conn) (payload : Payload) : Pod :=
  match s.channels.lookup conn.id with
  | none => s
  | some ch =>
    if ch.closed then { s with panicked := true }
    else if ch.buffer.length < sendChannelSize then
      { s with channels := s.channels.insert conn.id { ch with buffer := ch.buffer ++ [payload] } }
    else s

def sendAll (s : Pod) (conns : List Conn) (payload : Payload) : Pod :=
  conns.foldl (fun s conn => s.send conn payload) s

/-- `close(conn.Send)`. -/
def close (s : Pod) (conn : Conn) : Pod :=
  match s.channels.lookup conn.id with
  | none => s
  | some ch =>
    if ch.closed then { s with panicked := true }
    else { s with channels := s.channels.insert conn.id { ch with closed := true } }

/-- One case of the loop in `Run`. -/
def process (s : Pod) : Event → Pod
  | .register conn => { s with hub := s.hub.register conn }
  | .unregister conn _ =>
    if s.hub.has conn then { s with hub := s.hub.unregister conn }.close conn else s
  | .broadcast targetUserID payload => s.sendAll (s.hub.conns targetUserID) payload

/-- The loop processes the event it has received. -/
def loop (s : Pod) : Option Pod := s.inbox.map fun event => { s with inbox := none }.process event

/-- The write pump takes a payload off the queue. -/
def write (s : Pod) (id : String) : Option Pod :=
  match s.channels.lookup id with
  | some ⟨_ :: buffer, closed⟩ =>
    some { s with channels := s.channels.insert id ⟨buffer, closed⟩ }
  | _ => none

/-- Hand an event to the loop, once it waits for one. -/
def hand (s : Pod) (event : Event) : Option Pod :=
  if s.inbox.isNone then some { s with inbox := some event } else none

end Pod

inductive Op where
  /-- `preAuthLimiter.Allow`. -/
  | allow (clientIP : String)
  | isOverloaded
  | onlineCount
  | hasDevice (userID deviceID : String)
  | getActiveDeviceCount (userID : String)
  | getOldestDeviceID (userID : String)
  /-- What `EvictDeviceConnections` collects. -/
  | superseded (userID deviceID : String)
  /-- What `EvictDeviceWithNotice` collects. -/
  | evicted (userID deviceID : String)
  /-- The notice of an eviction, outside the lock. -/
  | notice (conn : Conn) (payload : Payload)
  | unregister (conn : Conn) (reason : Reason)
  /-- `websocket.Accept`; only the bookkeeping reads the user. -/
  | accept (userID : String)
  /-- The new `Conn` with its id, its time and its queue. -/
  | newConn (userID deviceID : String)
  | register (conn : Conn)
  /-- `wsConn.Read`: whether there is a message. -/
  | read (conn : Conn)
  | allowTiered (userID : String)
  /-- `conn.WireFormat = FormatProtobuf`. -/
  | setWireFormat (conn : Conn)
  /-- A send of the read pump or the router on the queue of its own connection. -/
  | reply (conn : Conn) (payload : Payload)
  | sendToUser (userID : String) (payload : Payload)
  /-- The users that `BroadcastAll` collects. -/
  | userIDs (excludeUserID : String)
  | sendToDevice (userID deviceID : String) (payload : Payload)
  | deliverLocal (userID : String) (payload : Payload)
  /-- The notices of `Drain`, under the lock. -/
  | drain (payload : Payload)
  /-- What the router does away from the hub. -/
  | relay (op : Gateway.Op)

abbrev Ret : Op → Type
  | .allow _ => Bool
  | .isOverloaded => Bool
  | .onlineCount => Nat
  | .hasDevice _ _ => Bool
  | .getActiveDeviceCount _ => Nat
  | .getOldestDeviceID _ => Option String
  | .superseded _ _ => List Conn
  | .evicted _ _ => List Conn
  | .notice _ _ => Unit
  | .unregister _ _ => Unit
  | .accept _ => Bool
  | .newConn _ _ => Conn
  | .register _ => Unit
  | .read _ => Bool
  | .allowTiered _ => Bool
  | .setWireFormat _ => Unit
  | .reply _ _ => Unit
  | .sendToUser _ _ => Unit
  | .userIDs _ => List String
  | .sendToDevice _ _ _ => Unit
  | .deliverLocal _ _ => Unit
  | .drain _ => Unit
  | .relay op => Gateway.Ret op

inductive Choice where
  | ok
  | answer (b : Bool)
  /-- The order in which a map is iterated. -/
  | order (conns : List Conn)
  | users (userIDs : List String)
  /-- The id of a new connection. -/
  | id (uuid : String)
  | relay (c : Gateway.Choice)

namespace Pod

/-- The answer does not change the pod. -/
def ask (s : Pod) : Choice → Option (Bool × Pod)
  | .answer b => some (b, s)
  | _ => none

def query {α : Type} (s : Pod) (a : α) : Choice → Option (α × Pod)
  | .ok => some (a, s)
  | _ => none

/-- A result that depends on the order in which connections are iterated. -/
def iterate {α : Type} (s : Pod) (conns : List Conn) (f : List Conn → α) :
    Choice → Option (α × Pod)
  | .order conns' => if conns'.Perm conns then some (f conns', s) else none
  | _ => none

/-- A step to another pod, if it is possible. -/
def done (t : Option Pod) : Choice → Option (Unit × Pod)
  | .ok => t.map fun t => ((), t)
  | _ => none

/-- `SendToDevice` takes the first connection of the device that it comes across. -/
def sendFirst (s : Pod) (deviceID : String) (payload : Payload) (conns : List Conn) : Pod :=
  match conns.find? fun c => c.deviceID = deviceID with
  | some conn => s.send conn payload
  | none => s

def newConn (s : Pod) (userID deviceID uuid : String) : Option (Conn × Pod) :=
  if fresh : uuid ≠ "" ∧ s.channels.lookup uuid = none then
    some (⟨uuid, userID, deviceID, s.server.clock, fresh.1⟩,
      { s with
        channels := s.channels.insert uuid ⟨[], false⟩
        formats := s.formats.insert uuid .json })
  else none

def act (S : Gateway.Platform) (s : Pod) : (op : Op) → Choice → Option (Ret op × Pod)
  | .allow _, c => s.ask c
  | .isOverloaded, c => s.ask c
  | .onlineCount, c => s.query s.hub.onlineCount c
  | .hasDevice u d, c => s.query (s.hub.hasDevice u d) c
  | .getActiveDeviceCount u, c => s.query (s.hub.getActiveDeviceCount u) c
  | .getOldestDeviceID u, c => s.iterate (s.hub.conns u) getOldestDeviceID c
  | .superseded u d, c => s.iterate (s.hub.superseded u d) id c
  | .evicted u d, c => s.iterate (s.hub.evicted u d) id c
  | .notice conn p, c => done (some (s.send conn p)) c
  | .unregister conn reason, c => done (s.hand (.unregister conn reason)) c
  | .accept _, c => s.ask c
  | .newConn u d, c => match c with
    | .id uuid => s.newConn u d uuid
    | _ => none
  | .register conn, c => done (s.hand (.register conn)) c
  | .read _, c => s.ask c
  | .allowTiered _, c => s.ask c
  | .setWireFormat conn, c =>
    done (some { s with formats := s.formats.insert conn.id .protobuf }) c
  | .reply conn p, c => done (some (s.send conn p)) c
  | .sendToUser u p, c => done (s.hand (.broadcast u p)) c
  | .userIDs x, c => match c with
    | .users us => if us.Perm (s.hub.users.filter (· ≠ x)) then some (us, s) else none
    | _ => none
  | .sendToDevice u d p, c => match c with
    | .order conns => if conns.Perm (s.hub.conns u) then some ((), s.sendFirst d p conns) else none
    | _ => none
  | .deliverLocal u p, c => done (some (s.sendAll (s.hub.conns u) p)) c
  | .drain p, c => done (some (s.sendAll (Store.rows s.hub.connections) p)) c
  | .relay op, c => match c with
    | .relay c => (s.server.exec S op c).map fun r => (r.1, { s with server := r.2 })
    | _ => none

/-- A process that has panicked does nothing more. -/
def exec (S : Gateway.Platform) (s : Pod) (op : Op) (c : Choice) : Option (Ret op × Pod) :=
  if s.panicked then none else s.act S op c

inductive Env where
  | loop
  | write (id : String)
  | server (e : Gateway.Change)

def env (s : Pod) (e : Env) : Option Pod :=
  if s.panicked then none
  else match e with
    | .loop => s.loop
    | .write id => s.write id
    | .server e => (s.server.change e).map fun server => { s with server := server }

/-! ## What a step changes -/

end Pod

/-- The event that an operation hands to the loop. -/
def Op.event? : Op → Option Event
  | .unregister conn reason => some (.unregister conn reason)
  | .register conn => some (.register conn)
  | .sendToUser u p => some (.broadcast u p)
  | _ => none

/-- The operation hands no event to the loop, and neither creates nor converts a connection. -/
structure Op.Plain (op : Op) : Prop where
  quiet : op.event? = none
  old : ∀ u d, op ≠ .newConn u d
  unconverted : ∀ conn, op ≠ .setWireFormat conn

/-- The operation may send the payload on the queue of the connection. -/
def Op.sends (hub : Hub) : Op → Payload → Conn → Prop
  | .notice conn' p', p, conn => p = p' ∧ conn = conn'
  | .reply conn' p', p, conn => p = p' ∧ conn = conn'
  | .sendToDevice u d p', p, conn =>
    p = p' ∧ hub.holds conn ∧ conn.userID = u ∧ conn.deviceID = d
  | .deliverLocal u p', p, conn => p = p' ∧ hub.holds conn ∧ conn.userID = u
  | .drain p', p, conn => p = p' ∧ hub.holds conn
  | _, _, _ => False

namespace Pod

/-- What an operation does to the pod. -/
inductive Effect (s : Pod) : (op : Op) → Ret op → Pod → Prop where
  | nothing {op : Op} {r : Ret op} : op.Plain → Effect s op r s
  | handed {op : Op} {r : Ret op} (event : Event) : op.event? = some event → s.inbox = none →
      Effect s op r { s with inbox := some event }
  | sent {op : Op} {r : Ret op} (conns : List Conn) (payload : Payload) : op.Plain →
      (∀ conn ∈ conns, op.sends s.hub payload conn) → Effect s op r (s.sendAll conns payload)
  | created (conn : Conn) : s.channels.lookup conn.id = none →
      Effect s (.newConn conn.userID conn.deviceID) conn
        { s with
          channels := s.channels.insert conn.id ⟨[], false⟩
          formats := s.formats.insert conn.id .json }
  | converted (conn : Conn) {r : Ret (.setWireFormat conn)} : Effect s (.setWireFormat conn) r
      { s with formats := s.formats.insert conn.id .protobuf }
  | relayed (op : Gateway.Op) {r : Ret (.relay op)} (server : Gateway.Server) :
      Effect s (.relay op) r { s with server := server }

variable {S : Gateway.Platform} {s s' : Pod} {op : Op} {c : Choice} {r : Ret op}

theorem ask_eq {b : Bool} (h : s.ask c = some (b, s')) : s' = s := by
  cases c <;> cases h
  rfl

theorem query_eq {α : Type} {a b : α} (h : s.query a c = some (b, s')) : b = a ∧ s' = s := by
  cases c <;> cases h
  exact ⟨rfl, rfl⟩

theorem iterate_eq {α : Type} {conns : List Conn} {f : List Conn → α} {b : α}
    (h : s.iterate conns f c = some (b, s')) :
    (∃ conns' : List Conn, conns'.Perm conns ∧ b = f conns') ∧ s' = s := by
  cases c with
  | order conns' =>
    simp only [iterate] at h
    split at h <;> cases h
    exact ⟨⟨conns', ‹_›, rfl⟩, rfl⟩
  | _ => cases h

theorem done_eq {t : Option Pod} {b : Unit} (h : done t c = some (b, s')) : t = some s' := by
  cases c with
  | ok =>
    obtain ⟨t, rfl, same⟩ := Option.map_eq_some_iff.mp h
    cases same
    rfl
  | _ => cases h

theorem hand_eq {event : Event} (h : s.hand event = some s') :
    s.inbox = none ∧ s' = { s with inbox := some event } := by
  unfold hand at h
  split at h <;> cases h
  exact ⟨Option.isNone_iff_eq_none.mp ‹_›, rfl⟩

theorem act_effect (h : s.act S op c = some (r, s')) : Effect s op r s' := by
  cases op with
  | allow _ => exact ask_eq h ▸ .nothing ⟨rfl, nofun, nofun⟩
  | isOverloaded => exact ask_eq h ▸ .nothing ⟨rfl, nofun, nofun⟩
  | read _ => exact ask_eq h ▸ .nothing ⟨rfl, nofun, nofun⟩
  | allowTiered _ => exact ask_eq h ▸ .nothing ⟨rfl, nofun, nofun⟩
  | accept _ => exact ask_eq h ▸ .nothing ⟨rfl, nofun, nofun⟩
  | onlineCount => exact (query_eq h).2 ▸ .nothing ⟨rfl, nofun, nofun⟩
  | hasDevice _ _ => exact (query_eq h).2 ▸ .nothing ⟨rfl, nofun, nofun⟩
  | getActiveDeviceCount _ => exact (query_eq h).2 ▸ .nothing ⟨rfl, nofun, nofun⟩
  | getOldestDeviceID _ => exact (iterate_eq h).2 ▸ .nothing ⟨rfl, nofun, nofun⟩
  | superseded _ _ => exact (iterate_eq h).2 ▸ .nothing ⟨rfl, nofun, nofun⟩
  | evicted _ _ => exact (iterate_eq h).2 ▸ .nothing ⟨rfl, nofun, nofun⟩
  | unregister _ _ =>
    obtain ⟨free, rfl⟩ := hand_eq (done_eq h)
    exact .handed _ rfl free
  | register _ =>
    obtain ⟨free, rfl⟩ := hand_eq (done_eq h)
    exact .handed _ rfl free
  | sendToUser _ _ =>
    obtain ⟨free, rfl⟩ := hand_eq (done_eq h)
    exact .handed _ rfl free
  | notice conn p =>
    cases done_eq h
    exact .sent [conn] p ⟨rfl, nofun, nofun⟩ fun c mem => ⟨rfl, List.mem_singleton.mp mem⟩
  | reply conn p =>
    cases done_eq h
    exact .sent [conn] p ⟨rfl, nofun, nofun⟩ fun c mem => ⟨rfl, List.mem_singleton.mp mem⟩
  | deliverLocal u p =>
    cases done_eq h
    exact .sent _ p ⟨rfl, nofun, nofun⟩ fun c mem => ⟨rfl, Hub.mem_conns.mp mem⟩
  | drain p =>
    cases done_eq h
    exact .sent _ p ⟨rfl, nofun, nofun⟩ fun c mem => ⟨rfl, Hub.mem_rows.mp mem⟩
  | setWireFormat conn =>
    cases done_eq h
    exact .converted conn
  | newConn u d =>
    cases c with
    | id uuid =>
      simp only [act, newConn] at h
      split at h <;> cases h
      rename_i fresh
      exact .created ⟨uuid, u, d, s.server.clock, fresh.1⟩ fresh.2
    | _ => cases h
  | userIDs _ =>
    cases c with
    | users us =>
      simp only [act] at h
      split at h <;> cases h
      exact .nothing ⟨rfl, nofun, nofun⟩
    | _ => cases h
  | sendToDevice u d p =>
    cases c with
    | order conns =>
      simp only [act] at h
      split at h <;> cases h
      rename_i perm
      unfold sendFirst
      split
      · rename_i conn found
        refine .sent [conn] p ⟨rfl, nofun, nofun⟩ fun c mem => ?_
        cases List.mem_singleton.mp mem
        obtain ⟨held, user⟩ := Hub.mem_conns.mp (perm.subset (List.mem_of_find?_eq_some found))
        exact ⟨rfl, held, user, by simpa using List.find?_some found⟩
      · exact .nothing ⟨rfl, nofun, nofun⟩
    | _ => cases h
  | relay op =>
    cases c with
    | relay c =>
      obtain ⟨⟨r, server⟩, -, same⟩ := Option.map_eq_some_iff.mp h
      cases same
      exact .relayed op server
    | _ => cases h

theorem exec_act (h : s.exec S op c = some (r, s')) : s.act S op c = some (r, s') := by
  unfold exec at h
  split at h
  · cases h
  · exact h

theorem exec_effect (h : s.exec S op c = some (r, s')) : Effect s op r s' :=
  act_effect (exec_act h)

theorem write_eq {id : String} (h : s.write id = some s') : ∃ first buffer closed,
    s.channels.lookup id = some ⟨first :: buffer, closed⟩ ∧
      s' = { s with channels := s.channels.insert id ⟨buffer, closed⟩ } := by
  unfold write at h
  split at h <;> cases h
  exact ⟨_, _, _, ‹_›, rfl⟩

theorem env_eq {e : Env} (h : s.env e = some s') : s.panicked = false ∧ match e with
    | .loop => s.loop = some s'
    | .write id => s.write id = some s'
    | .server _ => ∃ server, s' = { s with server := server } := by
  unfold env at h
  split at h
  · cases h
  · refine ⟨Bool.eq_false_iff.mpr ‹_›, ?_⟩
    cases e with
    | loop => exact h
    | write id => exact h
    | server change =>
      obtain ⟨server, -, rfl⟩ := Option.map_eq_some_iff.mp h
      exact ⟨server, rfl⟩

/-- What an operation answers about the hub. -/
def Answered (hub : Hub) : (op : Op) → Ret op → Prop
  | .onlineCount, n => n = hub.onlineCount
  | .hasDevice u d, found => found = hub.hasDevice u d
  | .getActiveDeviceCount u, n => n = hub.getActiveDeviceCount u
  | .getOldestDeviceID u, oldest =>
    ∃ conns : List Conn, conns.Perm (hub.conns u) ∧ oldest = getOldestDeviceID conns
  | .superseded u d, conns => List.Perm conns (hub.superseded u d)
  | .evicted u d, conns => List.Perm conns (hub.evicted u d)
  | .newConn u d, conn => Conn.userID conn = u ∧ Conn.deviceID conn = d
  | _, _ => True

theorem exec_answered (h : s.exec S op c = some (r, s')) : Answered s.hub op r := by
  have h := exec_act h
  cases op with
  | onlineCount => exact (query_eq h).1
  | hasDevice _ _ => exact (query_eq h).1
  | getActiveDeviceCount _ => exact (query_eq h).1
  | getOldestDeviceID _ => exact (iterate_eq h).1
  | superseded _ _ =>
    obtain ⟨conns, perm, rfl⟩ := (iterate_eq h).1
    exact perm
  | evicted _ _ =>
    obtain ⟨conns, perm, rfl⟩ := (iterate_eq h).1
    exact perm
  | newConn u d =>
    cases c with
    | id uuid =>
      simp only [act, newConn] at h
      split at h <;> cases h
      exact ⟨rfl, rfl⟩
    | _ => cases h
  | _ => trivial

@[simp] theorem send_hub {conn : Conn} {p : Payload} : (s.send conn p).hub = s.hub := by
  unfold send
  split
  · rfl
  · split_ifs <;> rfl

@[simp] theorem send_inbox {conn : Conn} {p : Payload} : (s.send conn p).inbox = s.inbox := by
  unfold send
  split
  · rfl
  · split_ifs <;> rfl

@[simp] theorem sendAll_hub {conns : List Conn} {p : Payload} :
    (s.sendAll conns p).hub = s.hub := by
  induction conns generalizing s with
  | nil => rfl
  | cons conn rest ih => exact ih.trans send_hub

@[simp] theorem sendAll_inbox {conns : List Conn} {p : Payload} :
    (s.sendAll conns p).inbox = s.inbox := by
  induction conns generalizing s with
  | nil => rfl
  | cons conn rest ih => exact ih.trans send_inbox

@[simp] theorem close_hub {conn : Conn} : (s.close conn).hub = s.hub := by
  unfold close
  split
  · rfl
  · split_ifs <;> rfl

@[simp] theorem close_inbox {conn : Conn} : (s.close conn).inbox = s.inbox := by
  unfold close
  split
  · rfl
  · split_ifs <;> rfl

/-- Only the loop changes the hub. -/
theorem Effect.hub (h : Effect s op r s') : s'.hub = s.hub := by
  cases h with
  | sent conns payload => exact sendAll_hub
  | _ => rfl

/-- An operation hands at most its event to the loop. -/
theorem Effect.inbox (h : Effect s op r s') :
    op.event? = none ∧ s'.inbox = s.inbox ∨
      s.inbox = none ∧ s'.inbox = op.event? := by
  cases h with
  | nothing plain => exact .inl ⟨plain.quiet, rfl⟩
  | handed event hands free => exact .inr ⟨free, hands.symm⟩
  | sent conns payload plain => exact .inl ⟨plain.quiet, sendAll_inbox⟩
  | _ => exact .inl ⟨rfl, rfl⟩

end Pod
end GenChat.Ws
