import GenChat.Library.Machine

/-!
# The connection of a gateway client

`GatewayClient` opens a WebSocket in `connect` and leaves everything else to events: a closed socket
schedules a reconnect, and so does a frame by which the server asks for one. No timer is ever
cleared, and a handler does not ask whether its socket is still the current one. So the client keeps
to one connection only while such events come one after the other.
-/
namespace GenChat.Client
open Library

/-- `WebSocket.readyState`. -/
inductive ReadyState where
  | connecting
  | opened
  | closing
  | closed
  deriving DecidableEq, Repr

namespace ReadyState

/-- `close()` of a socket. -/
def close : ReadyState → ReadyState
  | closed => closed
  | _ => closing

/-- The socket is connecting or open. -/
def live : ReadyState → Bool
  | connecting | opened => true
  | closing | closed => false

/-- The close event of the socket is still to come. -/
def unclosed (s : ReadyState) : Bool := s ≠ closed

theorem unclosed_of_live {s : ReadyState} (h : s.live = true) : s.unclosed = true := by
  cases s <;> simp_all [live, unclosed]

@[simp] theorem unclosed_close (s : ReadyState) : s.close.unclosed = s.unclosed := by
  cases s <;> rfl

end ReadyState

/-- The callbacks that wait in `setTimeout`: of a `reconnect` frame and of `scheduleReconnect`. -/
inductive Timer where
  | drain
  | reconnect
  deriving DecidableEq, Repr

structure GatewayClient where
  /-- All sockets that were ever created; `ws` is one of them. -/
  sockets : List ReadyState
  ws : Option Nat
  reconnectAttempts : Nat
  timers : List Timer
  pingTimer : Bool
  isExplicitDisconnect : Bool
  /-- For the proofs: the user has called `connect` since the last `disconnect`. -/
  wanted : Bool
  /-- For the proofs: how many connections were attempted while the user wanted none. -/
  unwanted : Nat
  deriving DecidableEq, Repr

def maxReconnectAttempts : Nat := 10

namespace GatewayClient

def new : GatewayClient := ⟨[], none, 0, [], false, false, false, 0⟩

variable (client : GatewayClient)

def scheduleReconnect : GatewayClient :=
  if client.reconnectAttempts < maxReconnectAttempts then
    { client with
      reconnectAttempts := client.reconnectAttempts + 1
      timers := client.timers ++ [.reconnect] }
  else client

/-- `token` says whether there is an auth token, and `created` whether `new WebSocket` returns. -/
def connect (token created : Bool) : GatewayClient :=
  let client := { client with isExplicitDisconnect := false }
  if token then
    let client := { client with
      unwanted := if client.wanted then client.unwanted else client.unwanted + 1 }
    if created then
      { client with sockets := client.sockets ++ [.connecting], ws := some client.sockets.length }
    else client.scheduleReconnect
  else client

/-- `this.ws.close()`. -/
def closeSocket : GatewayClient :=
  match client.ws with
  | some i => { client with sockets := client.sockets.modify i ReadyState.close }
  | none => client

def onopen : GatewayClient := { client with reconnectAttempts := 0, pingTimer := true }

def onclose : GatewayClient :=
  let client := { client with pingTimer := false }
  if client.isExplicitDisconnect then client else client.scheduleReconnect

def disconnect : GatewayClient :=
  { client.closeSocket with ws := none, pingTimer := false, isExplicitDisconnect := true }

/-- The callback of a timer. -/
def expire (token created : Bool) : Timer → GatewayClient
  | .drain => client.closeSocket.scheduleReconnect
  | .reconnect => client.connect token created

end GatewayClient

/-! ## Events -/

inductive Event where
  /-- The user calls `connect` or `disconnect`. -/
  | connect (token created : Bool)
  | disconnect
  /-- What happens to a socket: it opens, fails, closes, or receives a `reconnect` frame. -/
  | opened (socket : Nat)
  | error (socket : Nat)
  | closed (socket : Nat)
  | reconnectFrame (socket : Nat)
  /-- A timer expires; timers may do so in any order. -/
  | expired (timer : Nat) (token created : Bool)
  deriving DecidableEq, Repr

def GatewayClient.step (client : GatewayClient) : Event → Option GatewayClient
  | .connect token created => some ({ client with wanted := true }.connect token created)
  | .disconnect => some { client.disconnect with wanted := false }
  | .opened i =>
    if client.sockets[i]? = some .connecting then
      some { client with sockets := client.sockets.set i .opened }.onopen
    else none
  | .error i => if (client.sockets[i]?.any ReadyState.unclosed) then some client else none
  | .closed i =>
    if (client.sockets[i]?.any ReadyState.unclosed) then
      some { client with sockets := client.sockets.set i .closed }.onclose
    else none
  | .reconnectFrame i =>
    if client.sockets[i]? = some .opened then
      some { client with timers := client.timers ++ [.drain] }
    else none
  | .expired n token created => client.timers[n]?.map fun timer =>
    { client with timers := client.timers.eraseIdx n }.expire token created timer

def lifecycle : Machine GatewayClient Event := ⟨(· = .new), GatewayClient.step⟩

/-! ## One connection at a time -/

/-- At most one socket is live and one reconnect pending, and the client has attempted no connection
between a `disconnect` and the next `connect` of the user. -/
structure SingleConnection (client : GatewayClient) : Prop where
  sockets : client.sockets.countP ReadyState.live ≤ 1
  timers : client.timers.count .reconnect ≤ 1
  unwanted : client.unwanted = 0

/-- The server asks for no reconnect; the user connects only when every earlier socket has closed
and no timer is pending, and disconnects only when no timer is pending. -/
def Orderly (client : GatewayClient) : Event → Prop
  | .connect token _ => token = false ∨
    client.sockets.countP ReadyState.unclosed = 0 ∧ client.timers = []
  | .disconnect => client.timers = []
  | .reconnectFrame _ => False
  | _ => True

instance (client : GatewayClient) (e : Event) : Decidable (Orderly client e) := by
  cases e <;> unfold Orderly <;> infer_instance

/-- Either one socket has still to close, or one reconnect is pending. -/
structure Quiet (client : GatewayClient) : Prop where
  one : client.sockets.countP ReadyState.unclosed + client.timers.length ≤ 1
  timers : ∀ timer ∈ client.timers, timer = .reconnect
  unwanted : client.unwanted = 0
  /-- A socket that the user no longer wants schedules nothing when it closes. -/
  explicit : client.wanted = false → client.timers = [] ∧
    (client.isExplicitDisconnect = true ∨ client.sockets.countP ReadyState.unclosed = 0)

namespace GatewayClient
variable {client : GatewayClient}

theorem countP_unclosed_modify (sockets : List ReadyState) (i : Nat) :
    (sockets.modify i ReadyState.close).countP ReadyState.unclosed =
      sockets.countP ReadyState.unclosed := by
  induction sockets generalizing i with
  | nil => simp
  | cons s sockets ih => cases i <;> simp [List.countP_cons, ih]

theorem countP_unclosed_opened {sockets : List ReadyState} {i : Nat}
    (h : sockets[i]? = some .connecting) :
    (sockets.set i .opened).countP ReadyState.unclosed =
      sockets.countP ReadyState.unclosed := by
  induction sockets generalizing i with
  | nil => cases h
  | cons s sockets ih =>
    cases i with
    | zero =>
      cases h
      rfl
    | succ i =>
      have rest := ih (i := i) h
      simp [List.countP_cons, rest]

theorem countP_unclosed_closed {sockets : List ReadyState} {i : Nat}
    (h : sockets[i]?.any ReadyState.unclosed = true) :
    (sockets.set i .closed).countP ReadyState.unclosed + 1 =
      sockets.countP ReadyState.unclosed := by
  induction sockets generalizing i with
  | nil => cases h
  | cons s sockets ih =>
    cases i with
    | zero =>
      have unclosed : s.unclosed = true := h
      rw [List.set_cons_zero, List.countP_cons_of_neg (by decide), List.countP_cons_of_pos unclosed]
    | succ i =>
      have rest := ih (i := i) h
      simp only [List.set_cons_succ, List.countP_cons]
      omega

theorem scheduleReconnect_cases (client : GatewayClient) : client.scheduleReconnect = client ∨
    client.scheduleReconnect = { client with
      reconnectAttempts := client.reconnectAttempts + 1
      timers := client.timers ++ [.reconnect] } := by
  unfold scheduleReconnect
  split
  · exact .inr rfl
  · exact .inl rfl

theorem onclose_eq (client : GatewayClient) : client.onclose =
    if client.isExplicitDisconnect then { client with pingTimer := false }
    else { client with pingTimer := false }.scheduleReconnect := rfl

/-- With no socket to close and no timer there is room for one reconnect. -/
theorem quiet_scheduleReconnect (client : GatewayClient) (wanted : client.wanted = true)
    (sockets : client.sockets.countP ReadyState.unclosed = 0) (timers : client.timers = [])
    (unwanted : client.unwanted = 0) : Quiet client.scheduleReconnect := by
  rcases client.scheduleReconnect_cases with same | later
  · rw [same]
    exact ⟨by simp [sockets, timers], by simp [timers], unwanted, by simp [wanted]⟩
  · rw [later]
    exact ⟨by simp [sockets, timers], by simp [timers], unwanted, by simp [wanted]⟩

/-- With no socket to close and no timer a connection may be attempted. -/
theorem quiet_connect (client : GatewayClient) (wanted : client.wanted = true)
    (sockets : client.sockets.countP ReadyState.unclosed = 0) (timers : client.timers = [])
    (unwanted : client.unwanted = 0) (token created : Bool) :
    Quiet (client.connect token created) := by
  cases token with
  | false => exact ⟨by simp [connect, sockets, timers], by simp [connect, timers], unwanted,
      by simp [connect, wanted]⟩
  | true =>
    cases created with
    | false =>
      refine quiet_scheduleReconnect { client with
        isExplicitDisconnect := false
        unwanted := if client.wanted then client.unwanted else client.unwanted + 1 }
        wanted sockets timers ?_
      simp [wanted, unwanted]
    | true =>
      refine ⟨?_, ?_, ?_, ?_⟩
      · simp [connect, sockets, timers, ReadyState.unclosed]
      · simp [connect, timers]
      · simp [connect, wanted, unwanted]
      · simp [connect, wanted]

theorem quiet_closeSocket (h : Quiet client) : Quiet client.closeSocket := by
  unfold closeSocket
  split
  · obtain ⟨one, timers, unwanted, explicit⟩ := h
    refine ⟨?_, timers, unwanted, ?_⟩
    · rwa [countP_unclosed_modify]
    · rwa [countP_unclosed_modify]
  · exact h

/-- One orderly step. -/
theorem quiet_step {e : Event} {client' : GatewayClient} (h : Quiet client)
    (orderly : Orderly client e) (step : client.step e = some client') : Quiet client' := by
  obtain ⟨one, timers, unwanted, explicit⟩ := h
  cases e with
  | connect token created =>
    cases step
    rcases orderly with rfl | ⟨closed, none⟩
    · exact ⟨one, timers, unwanted, nofun⟩
    · exact quiet_connect { client with wanted := true } rfl closed none unwanted token created
  | disconnect =>
    cases step
    have none : client.timers = [] := orderly
    obtain ⟨one', timers', unwanted', -⟩ := quiet_closeSocket ⟨one, timers, unwanted, explicit⟩
    refine ⟨one', timers', unwanted', fun _ => ⟨?_, .inl rfl⟩⟩
    change client.closeSocket.timers = []
    unfold closeSocket
    split <;> exact none
  | opened i =>
    obtain ⟨connecting, step⟩ := Option.ite_none_right_eq_some.mp step
    cases step
    have same := countP_unclosed_opened connecting
    exact ⟨by simpa [onopen, same] using one, timers, unwanted, by simpa [onopen, same] using explicit⟩
  | error i =>
    obtain ⟨-, step⟩ := Option.ite_none_right_eq_some.mp step
    cases step
    exact ⟨one, timers, unwanted, explicit⟩
  | closed i =>
    obtain ⟨unclosed, step⟩ := Option.ite_none_right_eq_some.mp step
    cases step
    have fewer := countP_unclosed_closed unclosed
    -- The one socket was still to close, so no timer is pending.
    have none : client.timers = [] := List.length_eq_zero_iff.mp (by omega)
    have closed : (client.sockets.set i .closed).countP ReadyState.unclosed = 0 := by omega
    rw [onclose_eq]
    split
    · rename_i disconnected
      exact ⟨by simp [none, closed], by simp [none], unwanted, fun _ => ⟨none, .inl disconnected⟩⟩
    · rename_i connected
      have wanted : client.wanted = true := by
        by_contra refused
        obtain ⟨-, disconnected | zero⟩ := explicit (by simpa using refused)
        · exact connected disconnected
        · omega
      exact quiet_scheduleReconnect { client with
        sockets := client.sockets.set i .closed, pingTimer := false } wanted closed none unwanted
  | reconnectFrame i => exact orderly.elim
  | expired n token created =>
    obtain ⟨timer, pending, rfl⟩ := Option.map_eq_some_iff.mp step
    have lt := (List.getElem?_eq_some_iff.mp pending).1
    have wanted : client.wanted = true := by
      by_contra refused
      have none := (explicit (by simpa using refused)).1
      simp [none] at lt
    have last : client.timers.eraseIdx n = [] := by
      rw [← List.length_eq_zero_iff, List.length_eraseIdx_of_lt lt]
      omega
    rw [timers timer (List.mem_of_getElem? pending)]
    exact quiet_connect { client with timers := client.timers.eraseIdx n } wanted
      (by simp only; omega) last unwanted token created

end GatewayClient

theorem quiet_reach {client : GatewayClient} (h : lifecycle.Reach Orderly client) :
    Quiet client := by
  refine h.invariant ?_ fun client e client' quiet orderly step =>
    GatewayClient.quiet_step quiet orderly step
  rintro _ rfl
  exact ⟨by decide, nofun, rfl, fun _ => ⟨rfl, .inr rfl⟩⟩

/-- Orderly clients have one connection at a time. -/
theorem single_connection {client : GatewayClient} (h : lifecycle.Reach Orderly client) :
    SingleConnection client := by
  obtain ⟨one, timers, unwanted, -⟩ := quiet_reach h
  refine ⟨?_, ?_, unwanted⟩
  · have fewer : client.sockets.countP ReadyState.live ≤
        client.sockets.countP ReadyState.unclosed :=
      List.countP_mono_left fun s _ => ReadyState.unclosed_of_live
    omega
  · have fewer : client.timers.count .reconnect ≤ client.timers.length := List.count_le_length
    omega

/-! ## Runs -/

/-- A connection is lost and made again, and the user disconnects. -/
def orderlyRun : List Event := [.connect true true, .opened 0, .error 0, .closed 0,
  .expired 0 true true, .opened 1, .disconnect, .closed 1]

/-- The server asks for a reconnect: the timer closes the socket and schedules one, and the close
event of the socket schedules another. -/
def drainedRun : List Event := [.connect true true, .opened 0, .reconnectFrame 0,
  .expired 0 true true, .closed 0, .expired 0 true true, .expired 0 true true]

theorem orderlyRun_isSome : (lifecycle.follow Orderly .new orderlyRun).isSome := by rfl

theorem single_connection_sample :
    SingleConnection ((lifecycle.follow Orderly .new orderlyRun).get orderlyRun_isSome) :=
  single_connection ((Machine.Reach.start rfl).follow (Option.some_get orderlyRun_isSome).symm)

theorem two_connections : ∃ client, lifecycle.Reachable client ∧
    lifecycle.follow (fun _ _ => True) .new drainedRun = some client ∧
    client.sockets = [.closed, .connecting, .connecting] ∧ ¬ SingleConnection client := by
  have run : lifecycle.follow (fun _ _ => True) .new drainedRun = some
      ⟨[.closed, .connecting, .connecting], some 2, 2, [], false, false, true, 0⟩ := by
    rfl
  refine ⟨_, (Machine.Reach.start rfl).follow run, run, rfl, fun single => ?_⟩
  exact absurd single.sockets (by decide)

end GenChat.Client
