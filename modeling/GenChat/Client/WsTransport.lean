import GenChat.Client.Connection

/-!
# The promise of `WsTransport.send`

A call of `send` returns a promise, which the ack of its frame resolves and a timer rejects after
15 s. The resolver waits in `pendingAcks` under the `client_msg_id` of the frame, and a frame that
cannot be sent yet waits in `sendQueue`. Neither knows of the other, so a promise is kept only while
no two calls wait under one id and no frame waits in the queue for longer than its timer runs.
-/
namespace GenChat.Client
open Library

/-- What settled a promise: the ack of a frame, or the timer. -/
inductive Outcome where
  | resolved (frame : Nat)
  | rejected
  deriving DecidableEq, Repr

/-- A call of `send`; its frame has the same number. The id is empty if the payload has none. -/
structure SendCall where
  clientMsgId : String
  sentAt : Nat
  /-- The timer has not run out. -/
  running : Bool
  outcome : Option Outcome
  deriving DecidableEq, Repr

/-- The first outcome of a promise counts. -/
def SendCall.settle (call : SendCall) (outcome : Outcome) : SendCall :=
  { call with outcome := call.outcome.or (some outcome) }

def SendCall.expire (call : SendCall) : SendCall := { call with running := false }

/-- A frame that was put on a socket, and whether its promise had been rejected by then. -/
structure Transmission where
  frame : Nat
  socket : Nat
  rejected : Bool
  deriving DecidableEq, Repr

structure WsTransport where
  sockets : List ReadyState
  ws : Option Nat
  destroyed : Bool
  /-- The reconnects that `setTimeout` has still to run, by their handles. -/
  timeouts : List Nat
  reconnectTimer : Option Nat
  handles : Nat
  calls : List SendCall
  pendingAcks : String → Option Nat
  sendQueue : List Nat
  transmitted : List Transmission
  /-- In milliseconds. -/
  clock : Nat
  /-- For the proofs: the frames whose acks have arrived. -/
  acked : List Nat

/-- How long `send` waits for the ack, in milliseconds. -/
def ackTimeout : Nat := 15000

namespace WsTransport

def new : WsTransport := ⟨[], none, false, [], none, 0, [], fun _ => none, [], [], 0, []⟩

variable (t : WsTransport)

/-- `_connect`. -/
def connect' : WsTransport :=
  if t.destroyed then t
  else { t with sockets := t.sockets ++ [.connecting], ws := some t.sockets.length }

/-- `connect`; the token matters to the server only. -/
def connect : WsTransport := { t with destroyed := false }.connect'

def clearTimers : WsTransport :=
  { t with
    timeouts := t.timeouts.filter (some · ≠ t.reconnectTimer)
    reconnectTimer := none }

def closeSocket : WsTransport :=
  match t.ws with
  | some i => { t with sockets := t.sockets.modify i ReadyState.close }
  | none => t

def disconnect : WsTransport :=
  { { t with destroyed := true }.clearTimers.closeSocket with ws := none }

def scheduleReconnect : WsTransport :=
  { t with
    timeouts := t.timeouts ++ [t.handles]
    reconnectTimer := some t.handles
    handles := t.handles + 1 }

/-- The socket that `send` finds open. -/
def openSocket : Option Nat := t.ws.filter fun i => t.sockets[i]? = some .opened

def isRejected (frame : Nat) : Bool := t.calls[frame]?.any (·.outcome = some .rejected)

/-- `ws.send` of some frames. -/
def transmit (socket : Nat) (frames : List Nat) : WsTransport :=
  { t with transmitted := t.transmitted ++
      frames.map fun frame => Transmission.mk frame socket (t.isRejected frame) }

def send (clientMsgId : String) : WsTransport :=
  let frame := t.calls.length
  let t := { t with
    calls := t.calls ++ [SendCall.mk clientMsgId t.clock true none]
    pendingAcks := if clientMsgId = "" then t.pendingAcks
      else Function.update t.pendingAcks clientMsgId (some frame) }
  match t.openSocket with
  | some socket => t.transmit socket [frame]
  | none => { t with sendQueue := t.sendQueue ++ [frame] }

/-- The timer of a call runs out. -/
def timeout (frame : Nat) (call : SendCall) : WsTransport :=
  let t := { t with calls := t.calls.modify frame .expire }
  if (t.pendingAcks call.clientMsgId).isSome then
    { t with
      pendingAcks := Function.update t.pendingAcks call.clientMsgId none
      calls := t.calls.modify frame (·.settle .rejected) }
  else t

/-- Flush the queued frames. -/
def onopen (socket : Nat) : WsTransport := { t.transmit socket t.sendQueue with sendQueue := [] }

/-- The ack of a frame arrives. -/
def onack (frame : Nat) (call : SendCall) : WsTransport :=
  let t := { t with acked := t.acked ++ [frame] }
  match t.pendingAcks call.clientMsgId with
  | some k => { t with
      pendingAcks := Function.update t.pendingAcks call.clientMsgId none
      calls := t.calls.modify k (·.settle (.resolved frame)) }
  | none => t

def onevicted : WsTransport := { t with destroyed := true }.clearTimers

def onclose (code : Nat) : WsTransport :=
  let t := t.clearTimers
  if !t.destroyed && code ≠ 1000 then t.scheduleReconnect else t

/-! ## Events -/

inductive Event where
  | connect
  | disconnect
  | send (clientMsgId : String)
  | opened (socket : Nat)
  | error (socket : Nat)
  | closed (socket code : Nat)
  | evicted (socket : Nat)
  /-- The ack of a frame; the server may send it more than once. -/
  | ack (frame : Nat)
  | timeout (frame : Nat)
  | reconnect (handle : Nat)
  | tick (milliseconds : Nat)
  deriving DecidableEq, Repr

/-- Time does not pass the end of a running timer of `send`. -/
def timely (clock : Nat) (call : SendCall) : Prop :=
  call.running = true → clock ≤ call.sentAt + ackTimeout

instance (clock : Nat) (call : SendCall) : Decidable (timely clock call) :=
  inferInstanceAs (Decidable (_ → _))

/-- An event of a socket that has not closed. -/
def onSocket (i : Nat) (next : WsTransport) : Option WsTransport :=
  if t.sockets[i]?.any ReadyState.unclosed then some next else none

def step : Event → Option WsTransport
  | .connect => some t.connect
  | .disconnect => some t.disconnect
  | .send id => some (t.send id)
  | .opened i =>
    if t.sockets[i]? = some .connecting then
      some ({ t with sockets := t.sockets.set i .opened }.onopen i)
    else none
  | .error i => t.onSocket i t
  | .closed i code => t.onSocket i ({ t with sockets := t.sockets.set i .closed }.onclose code)
  | .evicted i => t.onSocket i t.onevicted
  | .ack frame =>
    if frame ∈ t.transmitted.map (·.frame) then t.calls[frame]?.map (t.onack frame) else none
  | .timeout frame => t.calls[frame]?.bind fun call =>
    if call.running ∧ t.clock = call.sentAt + ackTimeout then some (t.timeout frame call) else none
  | .reconnect handle =>
    if handle ∈ t.timeouts then some { t with timeouts := t.timeouts.erase handle }.connect'
    else none
  | .tick n =>
    if ∀ call ∈ t.calls, timely (t.clock + n) call then some { t with clock := t.clock + n }
    else none

end WsTransport

def transport : Machine WsTransport WsTransport.Event := ⟨(· = .new), WsTransport.step⟩

/-! ## The promise -/

/-- Each frame is put on a socket once at most, and never after its promise was rejected; an ack
resolves the call it belongs to and no other; and no promise is open for more than 15 s. -/
structure KeepsPromise (t : WsTransport) : Prop where
  once : (t.transmitted.map (·.frame)).Nodup
  never : ∀ sent ∈ t.transmitted, sent.rejected = false
  own : ∀ k frame : Nat, ∀ call ∈ t.calls[k]?, call.outcome = some (.resolved frame) → frame = k
  acked : ∀ k ∈ t.acked, ∀ call ∈ t.calls[k]?, call.outcome ≠ none
  settled : ∀ call ∈ t.calls, call.outcome = none → t.clock ≤ call.sentAt + ackTimeout

namespace WsTransport

/-- The other calls do not wait under the id of this one. -/
def Alone (t : WsTransport) (frame : Nat) : Prop :=
  ∀ call ∈ t.calls[frame]?, ∀ k ∈ t.pendingAcks call.clientMsgId, k = frame

instance (t : WsTransport) (frame : Nat) : Decidable (t.Alone frame) :=
  inferInstanceAs (Decidable (∀ _ ∈ _, ∀ _ ∈ _, _))

/-- Every call has an id, no other call waits under it when it is made, when its ack arrives and
when its timer runs out, and when a socket opens the timers of all queued frames still run. -/
def Separate (t : WsTransport) : Event → Prop
  | .send id => id ≠ "" ∧ t.pendingAcks id = none
  | .ack frame | .timeout frame => t.Alone frame
  | .opened _ => ∀ frame ∈ t.sendQueue, ∀ call ∈ t.calls[frame]?, call.running = true
  | _ => True

instance (t : WsTransport) (e : Event) : Decidable (Separate t e) := by
  cases e <;> unfold Separate <;> infer_instance

/-- What holds of one call. -/
structure Tracked (t : WsTransport) (k : Nat) (call : SendCall) : Prop where
  pending : t.pendingAcks call.clientMsgId = some k ↔ call.outcome = none
  open' : call.outcome = none → call.running = true
  rejected : call.outcome = some .rejected → call.running = false
  own : ∀ frame, call.outcome = some (.resolved frame) → frame = k
  acked : k ∈ t.acked → call.outcome ≠ none
  timely : timely t.clock call

/-- Every call is tracked, and every frame is queued or was sent once. -/
structure Orderly (t : WsTransport) : Prop where
  frames : (t.transmitted.map (·.frame) ++ t.sendQueue).Nodup
  lt : ∀ k ∈ t.transmitted.map (·.frame) ++ t.sendQueue, k < t.calls.length
  ackedLt : ∀ k ∈ t.acked, k < t.calls.length
  never : ∀ sent ∈ t.transmitted, sent.rejected = false
  calls : ∀ k call, t.calls[k]? = some call → t.Tracked k call

/-! ## One step -/

theorem getElem?_modify_cases {calls : List SendCall} {f : SendCall → SendCall} {i k : Nat}
    {call : SendCall} (h : (calls.modify i f)[k]? = some call) :
    (∃ old, calls[i]? = some old ∧ k = i ∧ call = f old) ∨ k ≠ i ∧ calls[k]? = some call := by
  rw [List.getElem?_modify] at h
  obtain ⟨old, found, rfl⟩ := Option.map_eq_some_iff.mp h
  by_cases same : i = k
  · subst same
    exact .inl ⟨old, found, rfl, if_pos rfl⟩
  · exact .inr ⟨Ne.symm same, by rw [if_neg same, found]⟩

variable {t t' : WsTransport}

theorem Tracked.congr {k : Nat} {call : SendCall} (h : t.Tracked k call)
    (pendingAcks : t'.pendingAcks = t.pendingAcks) (clock : t'.clock = t.clock)
    (acked : t'.acked = t.acked) : t'.Tracked k call := by
  obtain ⟨pending, unsettled, rejected, own, answered, timely⟩ := h
  exact ⟨by rwa [pendingAcks], unsettled, rejected, own, by rwa [acked], by rwa [clock]⟩

/-- Steps that change neither the calls nor the frames. -/
theorem Orderly.congr (h : t.Orderly) (calls : t'.calls = t.calls)
    (pendingAcks : t'.pendingAcks = t.pendingAcks) (sendQueue : t'.sendQueue = t.sendQueue)
    (transmitted : t'.transmitted = t.transmitted) (clock : t'.clock = t.clock)
    (acked : t'.acked = t.acked) : t'.Orderly := by
  refine ⟨?_, ?_, ?_, ?_, ?_⟩
  · rw [transmitted, sendQueue]
    exact h.frames
  · rw [transmitted, sendQueue, calls]
    exact h.lt
  · rw [acked, calls]
    exact h.ackedLt
  · rw [transmitted]
    exact h.never
  · intro k call found
    exact (h.calls k call (calls ▸ found)).congr pendingAcks clock acked

theorem Orderly.connect' (h : t.Orderly) : t.connect'.Orderly := by
  unfold WsTransport.connect'
  split
  · exact h
  · exact h.congr rfl rfl rfl rfl rfl rfl

theorem Orderly.closeSocket (h : t.Orderly) : t.closeSocket.Orderly := by
  unfold WsTransport.closeSocket
  split
  · exact h.congr rfl rfl rfl rfl rfl rfl
  · exact h

theorem Orderly.onclose (h : t.Orderly) (code : Nat) : (t.onclose code).Orderly := by
  simp only [WsTransport.onclose]
  split
  · exact h.congr rfl rfl rfl rfl rfl rfl
  · exact h.congr rfl rfl rfl rfl rfl rfl

theorem Orderly.not_rejected (h : t.Orderly) {frame : Nat}
    (runs : ∀ call ∈ t.calls[frame]?, call.running = true) : t.isRejected frame = false := by
  unfold isRejected
  cases found : t.calls[frame]? with
  | none => rfl
  | some call =>
    have running : call.running = true := runs call found
    have tracked := h.calls frame call found
    simp only [Option.any_some, decide_eq_false_iff_not]
    intro rejected
    rw [tracked.rejected rejected] at running
    cases running

/-- The queued frames go out while their timers run. -/
theorem Orderly.onopen (h : t.Orderly) (socket : Nat)
    (runs : ∀ frame ∈ t.sendQueue, ∀ call ∈ t.calls[frame]?, call.running = true) :
    (t.onopen socket).Orderly := by
  have frames : (t.onopen socket).transmitted.map (·.frame) ++ (t.onopen socket).sendQueue =
      t.transmitted.map (·.frame) ++ t.sendQueue := by
    simp [WsTransport.onopen, transmit, Function.comp_def]
  refine ⟨by rw [frames]; exact h.frames, by rw [frames]; exact h.lt, h.ackedLt, ?_, ?_⟩
  · intro sent mem
    rcases List.mem_append.mp mem with old | new
    · exact h.never sent old
    · obtain ⟨frame, queued, rfl⟩ := List.mem_map.mp new
      exact h.not_rejected (runs frame queued)
  · intro k call found
    exact (h.calls k call found).congr rfl rfl rfl

/-- A call under an id that no call waits under. -/
theorem Orderly.tracked_call (h : t.Orderly) {id : String} (free : t.pendingAcks id = none)
    (k : Nat) (call : SendCall)
    (found : (t.calls ++ [SendCall.mk id t.clock true none])[k]? = some call) : Tracked { t with
      pendingAcks := Function.update t.pendingAcks id (some t.calls.length) } k call := by
  rcases Nat.lt_trichotomy k t.calls.length with old | rfl | beyond
  · rw [List.getElem?_append_left old] at found
    obtain ⟨pending, unsettled, rejected, own, answered, timely⟩ := h.calls k call found
    refine ⟨?_, unsettled, rejected, own, answered, timely⟩
    by_cases same : call.clientMsgId = id
    · rw [same, free] at pending
      simp only [same, Function.update_self, Option.some.injEq]
      exact ⟨fun eq => absurd eq (Nat.ne_of_gt old), fun none => absurd (pending.mpr none) nofun⟩
    · simp only [Function.update_of_ne same]
      exact pending
  · rw [List.getElem?_concat_length] at found
    cases found
    refine ⟨by simp, fun _ => rfl, nofun, nofun, ?_, fun _ => Nat.le_add_right _ _⟩
    exact fun acked => absurd (h.ackedLt _ acked) (Nat.lt_irrefl _)
  · rw [List.getElem?_eq_none (by simpa using beyond)] at found
    cases found

theorem Orderly.with_call (h : t.Orderly) {id : String} (free : t.pendingAcks id = none)
    (frames : (t'.transmitted.map (·.frame) ++ t'.sendQueue).Perm
      (t.calls.length :: (t.transmitted.map (·.frame) ++ t.sendQueue)))
    (never : ∀ sent ∈ t'.transmitted, sent.rejected = false)
    (calls : t'.calls = t.calls ++ [SendCall.mk id t.clock true none])
    (pendingAcks : t'.pendingAcks = Function.update t.pendingAcks id (some t.calls.length))
    (clock : t'.clock = t.clock) (acked : t'.acked = t.acked) : t'.Orderly := by
  refine ⟨?_, ?_, ?_, never, ?_⟩
  · have new : t.calls.length ∉ t.transmitted.map (·.frame) ++ t.sendQueue :=
      fun mem => Nat.lt_irrefl _ (h.lt _ mem)
    exact frames.nodup_iff.mpr (List.nodup_cons.mpr ⟨new, h.frames⟩)
  · intro k mem
    rw [calls, List.length_append]
    rcases List.mem_cons.mp (frames.mem_iff.mp mem) with rfl | old
    · exact Nat.lt_succ_self _
    · exact Nat.lt_succ_of_lt (h.lt k old)
  · intro k mem
    rw [acked] at mem
    rw [calls, List.length_append]
    exact Nat.lt_succ_of_lt (h.ackedLt k mem)
  · intro k call found
    rw [calls] at found
    exact (h.tracked_call free k call found).congr pendingAcks clock acked

theorem Orderly.send (h : t.Orderly) {id : String} (named : id ≠ "")
    (free : t.pendingAcks id = none) : (t.send id).Orderly := by
  simp only [WsTransport.send, if_neg named]
  split
  · refine h.with_call free ?_ ?_ rfl rfl rfl rfl
    · simp only [transmit, List.map_append, List.map_cons, List.map_nil, List.append_assoc]
      exact List.perm_middle
    · intro sent mem
      rcases List.mem_append.mp mem with old | new
      · exact h.never sent old
      · rw [List.map_singleton, List.mem_singleton] at new
        subst new
        simp [isRejected]
  · refine h.with_call free ?_ h.never rfl rfl rfl rfl
    rw [← List.append_assoc]
    exact List.perm_append_comm

/-- The calls other than one keep their entries. -/
theorem Tracked.frame {k frame : Nat} {call : SendCall} {id : String} (h : t.Tracked k call)
    (waiting : t.pendingAcks id = some frame) (ne : k ≠ frame) : Tracked { t with
      pendingAcks := Function.update t.pendingAcks id none } k call := by
  obtain ⟨pending, unsettled, rejected, own, answered, timely⟩ := h
  refine ⟨?_, unsettled, rejected, own, answered, timely⟩
  by_cases same : call.clientMsgId = id
  · rw [same, waiting] at pending
    simp only [same, Function.update_self]
    exact ⟨nofun, fun none => absurd (Option.some.inj (pending.mpr none)).symm ne⟩
  · simp only [Function.update_of_ne same]
    exact pending

/-- The timer of a settled call runs out. -/
theorem Tracked.expire {k : Nat} {call : SendCall} (h : t.Tracked k call)
    (settled : call.outcome ≠ none) : t.Tracked k call.expire :=
  ⟨h.pending, fun none => absurd none settled, fun _ => rfl, h.own, h.acked, nofun⟩

theorem tracked_reject (k : Nat) {call : SendCall} (unsettled : call.outcome = none) :
    Tracked { t with
      pendingAcks := Function.update t.pendingAcks call.clientMsgId none } k
      (call.expire.settle .rejected) := by
  have outcome : (call.expire.settle .rejected).outcome = some .rejected := by
    simp [SendCall.settle, SendCall.expire, unsettled]
  refine ⟨?_, ?_, fun _ => rfl, ?_, ?_, nofun⟩
  · simp [SendCall.settle, SendCall.expire]
  · rw [outcome]
    exact nofun
  · rw [outcome]
    exact nofun
  · rw [outcome]
    exact nofun

theorem Tracked.resolve {k : Nat} {call : SendCall} (h : t.Tracked k call)
    (unsettled : call.outcome = none) : Tracked { t with
      acked := t.acked ++ [k]
      pendingAcks := Function.update t.pendingAcks call.clientMsgId none } k
      (call.settle (.resolved k)) := by
  have outcome : (call.settle (.resolved k)).outcome = some (.resolved k) := by
    simp [SendCall.settle, unsettled]
  refine ⟨?_, ?_, ?_, ?_, ?_, h.timely⟩
  · simp [SendCall.settle]
  · rw [outcome]
    exact nofun
  · rw [outcome]
    exact nofun
  · rw [outcome]
    intro frame same
    cases same
    rfl
  · rw [outcome]
    exact nofun

/-- The ack of a frame is counted; its call has been settled, or is another. -/
theorem Tracked.count {k frame : Nat} {call : SendCall} (h : t.Tracked k call)
    (settled : k = frame → call.outcome ≠ none) :
    Tracked { t with acked := t.acked ++ [frame] } k call := by
  refine ⟨h.pending, h.open', h.rejected, h.own, ?_, h.timely⟩
  intro mem
  rcases List.mem_append.mp mem with old | new
  · exact h.acked old
  · exact settled (List.mem_singleton.mp new)

/-- The timer of a call runs out while no other call waits under its id. -/
theorem Orderly.timeout (h : t.Orderly) {frame : Nat} {call : SendCall}
    (found : t.calls[frame]? = some call) (alone : t.Alone frame) :
    (t.timeout frame call).Orderly := by
  have tracked := h.calls frame call found
  simp only [WsTransport.timeout]
  cases waiting : t.pendingAcks call.clientMsgId with
  | none =>
    have settled : call.outcome ≠ none := fun none => by
      rw [tracked.pending.mpr none] at waiting
      cases waiting
    simp only [Option.isSome_none, Bool.false_eq_true, if_false]
    refine ⟨h.frames, by simpa using h.lt, by simpa using h.ackedLt, h.never, ?_⟩
    intro k call' found'
    rcases getElem?_modify_cases found' with ⟨old, same, rfl, rfl⟩ | ⟨-, same⟩
    · obtain rfl := Option.some.inj (found.symm.trans same)
      exact (tracked.expire settled).congr rfl rfl rfl
    · exact (h.calls k call' same).congr rfl rfl rfl
  | some other =>
    obtain rfl := alone call found other waiting
    simp only [Option.isSome_some, if_true]
    refine ⟨h.frames, by simpa using h.lt, by simpa using h.ackedLt, h.never, ?_⟩
    intro k call' found'
    rcases getElem?_modify_cases found' with ⟨expired, inner, rfl, rfl⟩ | ⟨ne, inner⟩
    · rcases getElem?_modify_cases inner with ⟨old, same, -, rfl⟩ | ⟨ne, -⟩
      · obtain rfl := Option.some.inj (found.symm.trans same)
        exact (tracked_reject k (tracked.pending.mp waiting)).congr rfl rfl rfl
      · exact absurd rfl ne
    · rcases getElem?_modify_cases inner with ⟨old, same, eq, -⟩ | ⟨-, same⟩
      · exact absurd eq ne
      · exact ((h.calls k call' same).frame waiting ne).congr rfl rfl rfl

/-- An ack arrives while no other call waits under its id. -/
theorem Orderly.onack (h : t.Orderly) {frame : Nat} {call : SendCall}
    (found : t.calls[frame]? = some call) (alone : t.Alone frame) :
    (t.onack frame call).Orderly := by
  have tracked := h.calls frame call found
  have lt : ∀ k ∈ t.acked ++ [frame], k < t.calls.length := by
    intro k mem
    rcases List.mem_append.mp mem with old | new
    · exact h.ackedLt k old
    · rw [List.mem_singleton.mp new]
      exact (List.getElem?_eq_some_iff.mp found).1
  simp only [WsTransport.onack]
  cases waiting : t.pendingAcks call.clientMsgId with
  | none =>
    have settled : call.outcome ≠ none := fun none => by
      rw [tracked.pending.mpr none] at waiting
      cases waiting
    refine ⟨h.frames, h.lt, lt, h.never, ?_⟩
    intro k call' found'
    refine (h.calls k call' found').count ?_
    rintro rfl
    obtain rfl := Option.some.inj (found.symm.trans found')
    exact settled
  | some other =>
    obtain rfl := alone call found other waiting
    refine ⟨h.frames, by simpa using h.lt, by simpa using lt, h.never, ?_⟩
    intro k call' found'
    rcases getElem?_modify_cases found' with ⟨old, same, rfl, rfl⟩ | ⟨ne, same⟩
    · obtain rfl := Option.some.inj (found.symm.trans same)
      exact (tracked.resolve (tracked.pending.mp waiting)).congr rfl rfl rfl
    · exact (((h.calls k call' same).frame waiting ne).count (absurd · ne)).congr rfl rfl rfl

theorem Orderly.tick (h : t.Orderly) {n : Nat}
    (running : ∀ call ∈ t.calls, WsTransport.timely (t.clock + n) call) :
    Orderly { t with clock := t.clock + n } := by
  refine ⟨h.frames, h.lt, h.ackedLt, h.never, ?_⟩
  intro k call found
  obtain ⟨pending, unsettled, rejected, own, answered, -⟩ := h.calls k call found
  exact ⟨pending, unsettled, rejected, own, answered, running call (List.mem_of_getElem? found)⟩

theorem Orderly.step {e : Event} (h : t.Orderly) (separate : Separate t e)
    (step : t.step e = some t') : t'.Orderly := by
  cases e with
  | connect =>
    cases step
    exact Orderly.connect' (h.congr rfl rfl rfl rfl rfl rfl)
  | disconnect =>
    cases step
    have cleared : Orderly { t with destroyed := true }.clearTimers :=
      h.congr rfl rfl rfl rfl rfl rfl
    exact cleared.closeSocket.congr rfl rfl rfl rfl rfl rfl
  | send id =>
    cases step
    exact h.send separate.1 separate.2
  | opened i =>
    obtain ⟨-, step⟩ := Option.ite_none_right_eq_some.mp step
    cases step
    have opened : Orderly { t with sockets := t.sockets.set i .opened } :=
      h.congr rfl rfl rfl rfl rfl rfl
    exact opened.onopen i separate
  | error i =>
    obtain ⟨-, step⟩ := Option.ite_none_right_eq_some.mp step
    cases step
    exact h
  | closed i code =>
    obtain ⟨-, step⟩ := Option.ite_none_right_eq_some.mp step
    cases step
    have closed : Orderly { t with sockets := t.sockets.set i .closed } :=
      h.congr rfl rfl rfl rfl rfl rfl
    exact closed.onclose code
  | evicted i =>
    obtain ⟨-, step⟩ := Option.ite_none_right_eq_some.mp step
    cases step
    exact h.congr rfl rfl rfl rfl rfl rfl
  | ack frame =>
    obtain ⟨-, step⟩ := Option.ite_none_right_eq_some.mp step
    obtain ⟨call, found, rfl⟩ := Option.map_eq_some_iff.mp step
    exact h.onack found separate
  | timeout frame =>
    obtain ⟨call, found, step⟩ := Option.bind_eq_some_iff.mp step
    obtain ⟨-, step⟩ := Option.ite_none_right_eq_some.mp step
    cases step
    exact h.timeout found separate
  | reconnect handle =>
    obtain ⟨-, step⟩ := Option.ite_none_right_eq_some.mp step
    cases step
    exact Orderly.connect' (h.congr rfl rfl rfl rfl rfl rfl)
  | tick n =>
    obtain ⟨running, step⟩ := Option.ite_none_right_eq_some.mp step
    cases step
    exact h.tick running

theorem new_orderly : new.Orderly :=
  ⟨List.nodup_nil, nofun, nofun, nofun, nofun⟩

end WsTransport

/-- The promises are kept while no two calls get in each other's way. -/
theorem promise_kept {t : WsTransport} (h : transport.Reach WsTransport.Separate t) :
    KeepsPromise t := by
  have orderly : t.Orderly := by
    refine h.invariant ?_ fun t e t' h separate step => h.step separate step
    rintro _ rfl
    exact WsTransport.new_orderly
  refine ⟨?_, orderly.never, ?_, ?_, ?_⟩
  · exact (List.nodup_append.mp orderly.frames).1
  · intro k frame call found resolved
    exact (orderly.calls k call found).own frame resolved
  · intro k acked call found
    exact (orderly.calls k call found).acked acked
  · intro call mem unsettled
    obtain ⟨k, found⟩ := List.mem_iff_getElem?.mp mem
    have tracked := orderly.calls k call found
    exact tracked.timely (tracked.open' unsettled)

/-! ## Runs -/

namespace Sample
open WsTransport (Separate)

/-- A frame is queued and acked, the next one is sent at once and gets no ack, and its id is used
again; a third frame waits for a reconnect. -/
def keptRun : List WsTransport.Event := [.send "a", .connect, .opened 0, .ack 0, .tick 5,
  .send "b", .tick 14995, .timeout 0, .tick 5, .timeout 1, .send "b", .closed 0 1006, .send "c",
  .reconnect 0, .opened 1, .ack 2]

/-- A frame is queued until its timer runs out, and then a socket opens. -/
def lateRun : List WsTransport.Event := [.send "a", .tick 15000, .timeout 0, .connect, .opened 0]

theorem new_reaches (ok : WsTransport → WsTransport.Event → Prop) : transport.Reach ok .new :=
  .start rfl

theorem keptRun_isSome : (transport.follow Separate .new keptRun).isSome := by rfl

theorem lateRun_isSome : (transport.follow (fun _ _ => True) .new lateRun).isSome := by
  rfl

end Sample

open Sample in
theorem promise_kept_sample : KeepsPromise
    ((transport.follow WsTransport.Separate .new keptRun).get keptRun_isSome) :=
  promise_kept ((new_reaches _).follow (Option.some_get keptRun_isSome).symm)

open Sample in
/-- The promise of the frame was rejected after 15 s, and the frame goes out all the same. -/
theorem rejected_frame_sent : ∃ t, transport.Reachable t ∧
    t.calls = [⟨"a", 0, false, some .rejected⟩] ∧ t.transmitted = [⟨0, 0, true⟩] ∧
    ¬ KeepsPromise t := by
  have sent : ((transport.follow (fun _ _ => True) .new lateRun).get lateRun_isSome).transmitted =
      [⟨0, 0, true⟩] := by rfl
  refine ⟨(transport.follow (fun _ _ => True) .new lateRun).get lateRun_isSome,
    (new_reaches _).follow (Option.some_get lateRun_isSome).symm, ?_, sent, ?_⟩
  · rfl
  · intro kept
    have never := kept.never ⟨0, 0, true⟩ (by rw [sent]; exact List.mem_singleton.mpr rfl)
    cases never

end GenChat.Client
