import GenChat.Gateway.Formats
import GenChat.Library.Phases
import GenChat.Ws.Handler

/-!
# Wire formats on the queues

A payload is encoded once, in the format of the connection it comes from, and then delivered to
every connection of a user. What the router puts on the queue of its own connection is a packet for
a connection that has sent one.
-/
namespace GenChat.Ws
open Library Ledger
open Gateway (WireFormat Frame)

def Payload.format : Payload → WireFormat
  | .frame f => f.format
  | _ => .json

namespace Pod

/-- The connection is in the format of the payload. -/
def fits (s : Pod) (conn : Conn) (payload : Payload) : Prop :=
  s.formats.lookup conn.id = some payload.format

/-- Every payload on a queue is in the format of the connection. -/
def Homogeneous (s : Pod) : Prop :=
  ∀ id ch, s.channels.lookup id = some ch → ∀ payload ∈ ch.buffer,
    s.formats.lookup id = some payload.format

variable {s s' : Pod} {conn : Conn} {payload : Payload}

@[simp] theorem send_formats : (s.send conn payload).formats = s.formats := by
  unfold send
  split
  · rfl
  · split_ifs <;> rfl

@[simp] theorem sendAll_formats {conns : List Conn} :
    (s.sendAll conns payload).formats = s.formats := by
  induction conns generalizing s with
  | nil => rfl
  | cons conn rest ih => exact ih.trans send_formats

@[simp] theorem close_formats : (s.close conn).formats = s.formats := by
  unfold close
  split
  · rfl
  · split_ifs <;> rfl

/-- The queues of a step hold what the queues before it held, and payloads that fit. -/
theorem Homogeneous.mono (h : s.Homogeneous) (formats : s'.formats = s.formats)
    (queues : ∀ id ch, s'.channels.lookup id = some ch → ∀ payload ∈ ch.buffer,
      (∃ ch', s.channels.lookup id = some ch' ∧ payload ∈ ch'.buffer) ∨
        s.formats.lookup id = some payload.format) : s'.Homogeneous := by
  intro id ch found payload mem
  rw [formats]
  rcases queues id ch found payload mem with ⟨ch', old, mem'⟩ | fits
  · exact h id ch' old payload mem'
  · exact fits

theorem Homogeneous.send (h : s.Homogeneous) (fits : s.fits conn payload) :
    (s.send conn payload).Homogeneous := by
  refine h.mono send_formats fun id ch found p mem => ?_
  unfold Pod.send at found
  split at found
  · exact .inl ⟨ch, found, mem⟩
  · rename_i ch₀ here
    split_ifs at found
    · exact .inl ⟨ch, found, mem⟩
    · rcases lookup_insert_cases found with old | ⟨rfl, rfl⟩
      · exact .inl ⟨ch, old, mem⟩
      · rcases List.mem_append.mp mem with old | new
        · exact .inl ⟨ch₀, here, old⟩
        · rw [List.mem_singleton.mp new]
          exact .inr fits
    · exact .inl ⟨ch, found, mem⟩

theorem Homogeneous.sendAll {conns : List Conn} (h : s.Homogeneous)
    (fits : ∀ conn ∈ conns, s.fits conn payload) : (s.sendAll conns payload).Homogeneous := by
  induction conns generalizing s with
  | nil => exact h
  | cons conn rest ih =>
    refine ih (h.send (fits conn (by simp))) fun conn' mem => ?_
    rw [Pod.fits, send_formats]
    exact fits conn' (by simp [mem])

theorem Homogeneous.close (h : s.Homogeneous) : (s.close conn).Homogeneous := by
  refine h.mono close_formats fun id ch found p mem => ?_
  unfold Pod.close at found
  split at found
  · exact .inl ⟨ch, found, mem⟩
  · rename_i ch₀ here
    split_ifs at found
    · exact .inl ⟨ch, found, mem⟩
    · rcases lookup_insert_cases found with old | ⟨rfl, rfl⟩
      · exact .inl ⟨ch, old, mem⟩
      · exact .inl ⟨ch₀, here, mem⟩

theorem Homogeneous.write {id : String} (h : s.Homogeneous) (step : s.write id = some s') :
    s'.Homogeneous := by
  obtain ⟨first, buffer, closed, here, rfl⟩ := write_eq step
  refine h.mono rfl fun id' ch found p mem => ?_
  rcases lookup_insert_cases found with old | ⟨rfl, rfl⟩
  · exact .inl ⟨ch, old, mem⟩
  · exact .inl ⟨_, here, List.mem_cons_of_mem _ mem⟩

/-- Queues stay. -/
theorem isSome_insert {κ α : Type} [DecidableEq κ] {t : Table κ α} {k k' : κ} {a : α}
    (h : (t.lookup k).isSome) : ((t.insert k' a).lookup k).isSome := by
  by_cases same : k = k'
  · rw [same, AList.lookup_insert]
    rfl
  · rwa [AList.lookup_insert_ne same]

theorem send_known {id : String} (h : (s.channels.lookup id).isSome) :
    ((s.send conn payload).channels.lookup id).isSome := by
  unfold send
  split
  · exact h
  · split_ifs
    · exact h
    · exact isSome_insert h
    · exact h

theorem sendAll_known {conns : List Conn} {id : String} (h : (s.channels.lookup id).isSome) :
    ((s.sendAll conns payload).channels.lookup id).isSome := by
  induction conns generalizing s with
  | nil => exact h
  | cons conn rest ih => exact ih (send_known h)

theorem close_known {id : String} (h : (s.channels.lookup id).isSome) :
    ((s.close conn).channels.lookup id).isSome := by
  unfold close
  split
  · exact h
  · split_ifs
    · exact h
    · exact isSome_insert h

theorem loop_known {id : String} (step : s.loop = some s') (h : (s.channels.lookup id).isSome) :
    (s'.channels.lookup id).isSome := by
  obtain ⟨event, -, rfl⟩ := Option.map_eq_some_iff.mp step
  cases event with
  | register c => exact h
  | unregister c reason =>
    simp only [process]
    split
    · exact close_known h
    · exact h
  | broadcast u payload => exact sendAll_known h

theorem loop_formats (step : s.loop = some s') : s'.formats = s.formats := by
  obtain ⟨event, -, rfl⟩ := Option.map_eq_some_iff.mp step
  cases event with
  | register c => rfl
  | unregister c reason =>
    simp only [process]
    split
    · exact close_formats
    · rfl
  | broadcast u payload => exact sendAll_formats

/-- The loop delivers a payload to connections that it fits. -/
theorem Homogeneous.loop (h : s.Homogeneous) (step : s.loop = some s')
    (fits : ∀ u payload, s.inbox = some (.broadcast u payload) →
      ∀ conn ∈ s.hub.conns u, s.fits conn payload) : s'.Homogeneous := by
  obtain ⟨event, here, rfl⟩ := Option.map_eq_some_iff.mp step
  have taken : Homogeneous { s with inbox := none } := h
  cases event with
  | register c => exact h
  | unregister c reason =>
    simp only [process]
    split
    · exact Homogeneous.close (s := { s with inbox := none, hub := s.hub.unregister c }) h
    · exact h
  | broadcast u payload => exact taken.sendAll (fits u payload here)

end Pod

/-! ## What a read pump replies -/

/-- A handshake before its connection, or the read pump of a connection in its format. -/
inductive Pumping where
  | outside
  | pumping (conn : Conn) (format : WireFormat)

namespace Pumping

def allows : Pumping → Op → Prop
  | .outside, op => ∀ conn, (∀ payload, op ≠ .reply conn payload) ∧ op ≠ .setWireFormat conn
  | .pumping conn format, op => match op with
    | .reply conn' payload => conn' = conn ∧ (payload = .rateLimitExceeded ∨ payload.format = format)
    | .setWireFormat conn' => conn' = conn
    | .newConn _ _ => False
    | _ => True

def next : Pumping → (op : Op) → Ret op → Pumping
  | .outside, .newConn _ _, conn => .pumping conn .json
  | .pumping conn _, .setWireFormat _, _ => .pumping conn .protobuf
  | φ, _, _ => φ

end Pumping

abbrev replies : Typestate Tag Op Ret where
  Phase := Pumping
  start _ := .outside
  allows _ φ op := φ.allows op
  next φ op r := φ.next op r

/-- Nothing is known of a thread at its end. -/
def anyEnd (_ : Tag) (_ : Unit) (_ : Pumping) : Prop := True

section Programs
variable {S : Gateway.Platform} {r : Gateway.Router} {h : Handler} {t : Tag} {conn : Conn}
  {format : WireFormat} {next : Proc Unit}

/-- What the router does for a connection; its replies are packets. -/
def routes (conn : Conn) (replies : Bool) : Op → Prop
  | .reply conn' payload => conn' = conn ∧ payload.format = .protobuf ∧ replies = true
  | .setWireFormat _ => False
  | .newConn _ _ => False
  | _ => True

theorem hubOp_routes {op : Gateway.Op} (sends : op.sendsIn format) :
    (hubOp conn op).All (routes conn (format = .protobuf)) := by
  cases op with
  | connSend frame =>
    obtain ⟨fits, packet⟩ := sends
    exact ⟨⟨rfl, fits.trans packet, by simpa using packet⟩, fun _ => trivial⟩
  | broadcastAll x frame =>
    refine ⟨trivial, fun uids => ?_⟩
    change (broadcastEach uids (.frame frame)).All _
    induction uids with
    | nil => trivial
    | cons uid rest ih => exact ⟨trivial, fun _ => ih⟩
  | _ => exact ⟨trivial, fun _ => trivial⟩

theorem route_routes (data : List UInt8) : (route S r conn format data).All
    (routes conn (decodes S format data)) := by
  have sent := @Gateway.Router.Handle_sends S r ⟨conn.userID, format⟩ data
  have packets : decide ((if decodes S format data then .protobuf else .json) =
      WireFormat.protobuf) = decodes S format data := by cases decodes S format data <;> rfl
  refine Prog.All.bind (sent.implement fun op sends => ?_) fun _ => trivial
  have routed : (hubOp conn op).All (routes conn (decide
      ((if decodes S format data then .protobuf else .json) = WireFormat.protobuf))) :=
    hubOp_routes sends
  rwa [packets] at routed

/-- The router leaves the pump in its format and replies in it. -/
theorem route_keeps {replies : Bool} (packets : replies = true → format = .protobuf) {op : Op}
    (routed : routes conn replies op) : (Pumping.pumping conn format).allows op ∧
      ∀ a, (Pumping.pumping conn format).next op a = .pumping conn format := by
  cases op with
  | reply conn' payload =>
    obtain ⟨same, packet, replied⟩ := routed
    exact ⟨⟨same, .inr (packet.trans (packets replied).symm)⟩, fun _ => rfl⟩
  | setWireFormat _ => exact routed.elim
  | newConn _ _ => exact routed.elim
  | _ => exact ⟨trivial, fun _ => rfl⟩

theorem handleMessage_replies {α : Type} {Q : α → Pumping → Prop} {f : WireFormat → Proc α}
    (data : List UInt8)
    (hf : ∀ format, Follows replies t Q (f format) (Pumping.pumping conn format)) :
    Follows replies t Q ((handleMessage S r conn format data).bind f)
      (Pumping.pumping conn format) := by
  have routed : (route S r conn format data).All (routes conn (decodes S format data)) :=
    route_routes data
  unfold handleMessage
  cases packet : decodes S format data with
  | true =>
    refine ⟨rfl, fun _ => ?_⟩
    change Follows replies t Q (((route S r conn format data).bind fun _ => .pure .protobuf).bind f)
      (Pumping.pumping conn .protobuf)
    rw [Prog.bind_assoc]
    exact Follows.of_all routed (fun _ => route_keeps fun _ => rfl) fun _ => hf .protobuf
  | false =>
    rw [packet] at routed
    change Follows replies t Q (((route S r conn format data).bind fun _ => .pure format).bind f)
      (Pumping.pumping conn format)
    rw [Prog.bind_assoc]
    exact Follows.of_all routed (fun _ => route_keeps fun packet => absurd packet Bool.false_ne_true)
      fun _ => hf format

theorem readPump_replies (messages : List Inbound) :
    Follows replies t (anyEnd t) (readPump S r conn format messages)
      (Pumping.pumping conn format) := by
  have closed {format : WireFormat} : Follows replies t (anyEnd t) (closePump conn)
      (Pumping.pumping conn format) := ⟨trivial, fun _ => trivial⟩
  induction messages generalizing format with
  | nil => exact closed
  | cons message rest ih =>
    refine ⟨trivial, fun ok => ?_⟩
    change Follows replies t _ (if ok then _ else _) (Pumping.pumping conn format)
    cases ok with
    | false => exact closed
    | true =>
      cases message with
      | unsupported => exact ih
      | data bytes =>
        refine ⟨trivial, fun allowed => ?_⟩
        change Follows replies t _ (if allowed then _ else _) (Pumping.pumping conn format)
        cases allowed with
        | false => exact ⟨⟨rfl, .inl rfl⟩, fun _ => ih⟩
        | true => exact handleMessage_replies bytes fun format => ih

/-! ### Handshakes -/

theorem connect_replies {u d : String} (messages : List Inbound) :
    Follows replies t (anyEnd t) (connect S r u d messages) Pumping.outside := by
  refine ⟨fun _ => ⟨nofun, nofun⟩, fun ok => ?_⟩
  cases ok with
  | false => trivial
  | true => exact ⟨fun _ => ⟨nofun, nofun⟩, fun conn => ⟨trivial, fun _ => readPump_replies messages⟩⟩

section Continue
variable (hn : Follows replies t (anyEnd t) next Pumping.outside)
include hn

theorem unregisterEach_replies (reason : Reason) (conns : List Conn) :
    Follows replies t (anyEnd t) (unregisterEach reason conns next) Pumping.outside := by
  induction conns with
  | nil => exact hn
  | cons conn rest ih => exact ⟨fun _ => ⟨nofun, nofun⟩, fun _ => ih⟩

theorem noticeEach_replies (notice : Payload) (conns : List Conn) :
    Follows replies t (anyEnd t) (noticeEach notice conns next) Pumping.outside := by
  induction conns with
  | nil => exact hn
  | cons conn rest ih =>
    exact ⟨fun _ => ⟨nofun, nofun⟩, fun _ => ⟨fun _ => ⟨nofun, nofun⟩, fun _ => ih⟩⟩

theorem evictOldest_replies (u : String) :
    Follows replies t (anyEnd t) (evictOldest u next) Pumping.outside := by
  refine ⟨fun _ => ⟨nofun, nofun⟩, fun oldest => ?_⟩
  change Option String at oldest
  cases oldest with
  | none => exact hn
  | some dev =>
    change Follows replies t _ (if dev ≠ "" then _ else _) Pumping.outside
    split
    · unfold evictDeviceWithNotice
      split
      · exact hn
      · exact ⟨fun _ => ⟨nofun, nofun⟩, fun conns => noticeEach_replies hn _ conns⟩
    · exact hn

theorem deviceCap_replies (policy u : String) :
    Follows replies t (anyEnd t) (deviceCap h policy u next) Pumping.outside := by
  refine ⟨fun _ => ⟨nofun, nofun⟩, fun n => ?_⟩
  change Nat at n
  change Follows replies t _ (if h.maxDevicesPerUser ≤ n then _ else _) Pumping.outside
  split
  · split
    · exact evictOldest_replies hn u
    · trivial
  · exact hn

theorem admit_replies (policy u d : String) :
    Follows replies t (anyEnd t) (admitDevice h policy u d next) Pumping.outside := by
  unfold admitDevice
  split
  · refine ⟨fun _ => ⟨nofun, nofun⟩, fun found => ?_⟩
    change Bool at found
    cases found with
    | true => exact ⟨fun _ => ⟨nofun, nofun⟩, fun conns => unregisterEach_replies hn _ conns⟩
    | false => exact deviceCap_replies hn policy u
  · exact deviceCap_replies hn policy u

theorem ceiling_replies (req : Request) :
    Follows replies t (anyEnd t) (ceiling h req next) Pumping.outside := by
  unfold ceiling
  split
  · trivial
  · split
    · refine ⟨fun _ => ⟨nofun, nofun⟩, fun n => ?_⟩
      change Nat at n
      change Follows replies t _ (if effectiveMaxConns h req ≤ n then _ else _) Pumping.outside
      split
      · trivial
      · exact hn
    · exact hn

theorem shed_replies : Follows replies t (anyEnd t) (shed h next) Pumping.outside := by
  unfold shed
  split
  · refine ⟨fun _ => ⟨nofun, nofun⟩, fun overloaded => ?_⟩
    cases overloaded with
    | true => trivial
    | false => exact hn
  · exact hn

theorem preAuth_replies (req : Request) :
    Follows replies t (anyEnd t) (preAuth h req next) Pumping.outside := by
  unfold preAuth
  split
  · exact hn
  · refine ⟨fun _ => ⟨nofun, nofun⟩, fun ok => ?_⟩
    cases ok with
    | true => exact hn
    | false => trivial

end Continue

theorem pod_replies (t : Tag) :
    Follows replies t (anyEnd t) ((pod S r h).body t) (replies.start t) := by
  match t with
  | .handshake req messages =>
    refine preAuth_replies (shed_replies (ceiling_replies ?_ req)) req
    unfold authenticate
    split
    · trivial
    · split
      · trivial
      · exact admit_replies (connect_replies messages) _ _ _
  | .sendToDevice u d p => exact ⟨fun _ => ⟨nofun, nofun⟩, fun _ => trivial⟩
  | .deliverLocal u p => exact ⟨fun _ => ⟨nofun, nofun⟩, fun _ => trivial⟩
  | .drain none => trivial
  | .drain (some p) => exact ⟨fun _ => ⟨nofun, nofun⟩, fun _ => trivial⟩

end Programs

/-! ## The invariant -/

/-- The queues are homogeneous, and read pumps know the formats of their connections. -/
structure Fitting (s : Pod) (phases : List (Tag × Pumping)) : Prop where
  queues : s.Homogeneous
  pumping : ∀ (i : Nat) t conn format, phases[i]? = some (t, .pumping conn format) →
    s.formats.lookup conn.id = some format ∧ (s.channels.lookup conn.id).isSome
  distinct : ∀ (i j : Nat) t t' conn conn' format format',
    phases[i]? = some (t, .pumping conn format) → phases[j]? = some (t', .pumping conn' format') →
      conn.id = conn'.id → i = j

/-- The payloads of the step fit the connections they are sent to, the router's replies apart, and a
connection turns to protobuf with no JSON on its queue. -/
def OpFits (s : Pod) (op : Op) : Prop :=
  (∀ conn payload, op.sends s.hub payload conn → (∀ f, op ≠ .reply conn (.frame f)) →
    s.fits conn payload) ∧
  ∀ conn, op = .setWireFormat conn → ∀ ch, s.channels.lookup conn.id = some ch →
    ∀ payload ∈ ch.buffer, payload.format = .protobuf

namespace Fitting
variable {s s' : Pod} {phases : List (Tag × Pumping)} {i : Nat} {t : Tag} {φ : Pumping} {op : Op}
  {a : Ret op}

theorem start {clock : Nat} : Fitting (Pod.start clock) [] where
  queues _ _ found := by cases found
  pumping _ _ _ _ there := by simp at there
  distinct _ _ _ _ _ _ _ _ there := by simp at there

theorem spawn (f : Fitting s phases) : Fitting s (phases ++ [(t, .outside)]) where
  queues := f.queues
  pumping i t conn format there := by
    rcases getElem?_concat_cases there with old | new
    · exact f.pumping i t conn format old
    · cases new
  distinct i j t t' conn conn' format format' there there' := by
    rcases getElem?_concat_cases there with old | new
    · rcases getElem?_concat_cases there' with old' | new'
      · exact f.distinct i j t t' conn conn' format format' old old'
      · cases new'
    · cases new

/-- The step keeps the phase of its thread, the formats and the ids of the queues. -/
theorem keep (f : Fitting s phases) (queues : s'.Homogeneous) (formats : s'.formats = s.formats)
    (known : ∀ id, (s.channels.lookup id).isSome → (s'.channels.lookup id).isSome) :
    Fitting s' phases where
  queues := queues
  pumping i t conn format there := by
    obtain ⟨format, channel⟩ := f.pumping i t conn format there
    exact ⟨formats ▸ format, known _ channel⟩
  distinct := f.distinct

/-- The step leaves the phase of its thread. -/
theorem stay (f : Fitting s phases) (now : phases[i]? = some (t, φ)) :
    Fitting s (phases.set i (t, φ)) := by
  obtain ⟨lt, here⟩ := List.getElem?_eq_some_iff.mp now
  rwa [← here, List.set_getElem_self]

theorem next_same (old : ∀ u d, op ≠ .newConn u d) (unconverted : ∀ conn, op ≠ .setWireFormat conn) :
    φ.next op a = φ := by
  cases φ with
  | outside => cases op <;> first | rfl | exact absurd rfl (old _ _)
  | pumping conn format => cases op <;> first | rfl | exact absurd rfl (unconverted _)

/-- A reply of the router fits its connection. -/
theorem sends_fit (f : Fitting s phases) (now : phases[i]? = some (t, φ)) (allowed : φ.allows op)
    (fits : OpFits s op) {conn : Conn} {payload : Payload} (sends : op.sends s.hub payload conn) :
    s.fits conn payload := by
  by_cases replies : ∃ frame, op = .reply conn (.frame frame)
  · obtain ⟨frame, rfl⟩ := replies
    obtain ⟨rfl, -⟩ := sends
    cases φ with
    | outside => exact absurd rfl ((allowed conn).1 _)
    | pumping conn' format =>
      obtain ⟨rfl, fits⟩ := allowed
      have same : Payload.format (.frame frame) = format := fits.resolve_left nofun
      rw [Pod.fits, same]
      exact (f.pumping i t conn format now).1
  · exact fits.1 conn payload sends fun frame same => replies ⟨frame, same⟩

theorem create (f : Fitting s phases) {conn : Conn} (fresh : s.channels.lookup conn.id = none) :
    Fitting
      { s with
        channels := s.channels.insert conn.id ⟨[], false⟩
        formats := s.formats.insert conn.id .json }
      (phases.set i (t, .pumping conn .json)) where
  queues id ch found payload mem := by
    by_cases new : id = conn.id
    · subst new
      rw [AList.lookup_insert] at found
      cases found
      cases mem
    · rw [AList.lookup_insert_ne new] at found ⊢
      exact f.queues id ch found payload mem
  pumping j t' conn' format' there := by
    rcases getElem?_set_cases there with ⟨-, same⟩ | ⟨-, old⟩
    · cases same
      exact ⟨AList.lookup_insert _, by rw [AList.lookup_insert]; rfl⟩
    · obtain ⟨format, channel⟩ := f.pumping j t' conn' format' old
      have ne : conn'.id ≠ conn.id := by
        intro same
        rw [same, fresh] at channel
        cases channel
      exact ⟨by rwa [AList.lookup_insert_ne ne], Pod.isSome_insert channel⟩
  distinct j k t' t'' conn' conn'' format' format'' there there' same := by
    have known {l : Nat} {t : Tag} {c : Conn} {f' : WireFormat}
        (old : phases[l]? = some (t, .pumping c f')) : c.id ≠ conn.id := by
      intro same
      have channel := (f.pumping l t c f' old).2
      rw [same, fresh] at channel
      cases channel
    rcases getElem?_set_cases there with ⟨rfl, new⟩ | ⟨-, old⟩ <;>
      rcases getElem?_set_cases there' with ⟨rfl, new'⟩ | ⟨-, old'⟩
    · rfl
    · cases new
      exact absurd same.symm (known old')
    · cases new'
      exact absurd same (known old)
    · exact f.distinct j k t' t'' conn' conn'' format' format'' old old' same

theorem convert (f : Fitting s phases) {conn : Conn} {format : WireFormat}
    (now : phases[i]? = some (t, .pumping conn format))
    (packets : ∀ ch, s.channels.lookup conn.id = some ch → ∀ payload ∈ ch.buffer,
      payload.format = .protobuf) :
    Fitting { s with formats := s.formats.insert conn.id .protobuf }
      (phases.set i (t, .pumping conn .protobuf)) where
  queues id ch found payload mem := by
    by_cases own : id = conn.id
    · subst own
      rw [AList.lookup_insert, packets ch found payload mem]
    · rw [AList.lookup_insert_ne own]
      exact f.queues id ch found payload mem
  pumping j t' conn' format' there := by
    rcases getElem?_set_cases there with ⟨-, same⟩ | ⟨other, old⟩
    · cases same
      exact ⟨AList.lookup_insert _, (f.pumping i t conn format now).2⟩
    · obtain ⟨format'', channel⟩ := f.pumping j t' conn' format' old
      have ne : conn'.id ≠ conn.id := fun same =>
        other (f.distinct j i t' t conn' conn format' format old now same)
      exact ⟨by rwa [AList.lookup_insert_ne ne], channel⟩
  distinct j k t' t'' conn' conn'' format' format'' there there' same := by
    have before {l : Nat} {t₀ : Tag} {c : Conn} {f' : WireFormat}
        (there : (phases.set i (t, .pumping conn .protobuf))[l]? = some (t₀, .pumping c f')) :
        ∃ f'', phases[l]? = some (t₀, .pumping c f'') := by
      rcases getElem?_set_cases there with ⟨rfl, new⟩ | ⟨-, old⟩
      · cases new
        exact ⟨format, now⟩
      · exact ⟨f', old⟩
    obtain ⟨f₁, old⟩ := before there
    obtain ⟨f₂, old'⟩ := before there'
    exact f.distinct j k t' t'' conn' conn'' f₁ f₂ old old' same

theorem exec (f : Fitting s phases) (now : phases[i]? = some (t, φ)) (allowed : φ.allows op)
    (effect : Pod.Effect s op a s') (fits : OpFits s op) :
    Fitting s' (phases.set i (t, φ.next op a)) := by
  cases effect with
  | nothing plain =>
    rw [next_same plain.old plain.unconverted]
    exact f.stay now
  | handed event hands free =>
    rw [next_same (by rintro u d rfl; cases hands) (by rintro conn rfl; cases hands)]
    have kept : Fitting { s with inbox := some event } phases := f.keep f.queues rfl fun _ => id
    exact kept.stay now
  | sent conns payload plain targets =>
    rw [next_same plain.old plain.unconverted]
    have queues : (s.sendAll conns payload).Homogeneous := f.queues.sendAll fun conn mem =>
      f.sends_fit now allowed fits (targets conn mem)
    exact (f.keep queues Pod.sendAll_formats fun _ => Pod.sendAll_known).stay now
  | created conn fresh =>
    cases φ with
    | outside => exact f.create fresh
    | pumping _ _ => exact allowed.elim
  | converted conn =>
    cases φ with
    | outside => exact absurd rfl (allowed conn).2
    | pumping conn' format =>
      cases allowed
      exact f.convert now (fits.2 conn rfl)
  | relayed op server =>
    rw [next_same (by simp) (by simp)]
    have kept : Fitting { s with server := server } phases := f.keep f.queues rfl fun _ => id
    exact kept.stay now

end Fitting

/-! ## Runs -/

section Runs
variable {S : Gateway.Platform} {r : Gateway.Router} {h : Handler}

/-- What the hub delivers fits all connections it is delivered to. -/
def DeliversFitting (p : Pool (pod S r h)) : PoolLabel (pod S r h) → Prop
  | .run i _ => ∀ t op, p.next i = some (t, op) → OpFits p.shared op
  | .env .loop => ∀ u payload, p.shared.inbox = some (.broadcast u payload) →
      ∀ conn ∈ p.shared.hub.conns u, p.shared.fits conn payload
  | _ => True

theorem fitting_reach {p : Pool (pod S r h)}
    (hp : (Pool.machine (pod S r h)).Reach DeliversFitting p) :
    ∃ phases, Pool.Phased replies anyEnd p phases ∧ Fitting p.shared phases := by
  refine Pool.phased (T := replies) (Q := anyEnd) (I := Fitting) ?_ ?_ ?_ ?_ ?_ hp
  · exact fun _ t _ => pod_replies t
  · rintro _ ⟨clock, rfl⟩
    exact .start
  · exact fun _ _ _ _ f => f.spawn
  · intro p phases i choice t op k φ a s _ ok thread now allowed hr f
    exact f.exec now allowed (Pod.exec_effect hr) (ok t op (Pool.next_call thread))
  · intro p phases e s _ ok step f
    have changed := (Pod.env_eq step).2
    cases e with
    | loop =>
      exact f.keep (f.queues.loop changed ok) (Pod.loop_formats changed) fun _ =>
        Pod.loop_known changed
    | write uuid =>
      obtain ⟨first, buffer, closed, here, rfl⟩ := Pod.write_eq changed
      exact f.keep (f.queues.write changed) rfl fun _ => Pod.isSome_insert
    | server change =>
      obtain ⟨server, rfl⟩ := changed
      exact f.keep f.queues rfl fun _ => id

instance (s : Pod) (conn : Conn) (payload : Payload) : Decidable (s.fits conn payload) :=
  inferInstanceAs (Decidable (_ = _))

def opFits (s : Pod) : Op → Bool
  | .notice conn payload => s.fits conn payload
  | .reply _ (.frame _) => true
  | .reply conn payload => s.fits conn payload
  | .sendToDevice u _ payload => (s.hub.conns u).all fun conn => s.fits conn payload
  | .deliverLocal u payload => (s.hub.conns u).all fun conn => s.fits conn payload
  | .drain payload => (Store.rows s.hub.connections).all fun conn => s.fits conn payload
  | .setWireFormat conn => (s.channels.lookup conn.id).all fun ch =>
    ch.buffer.all fun payload => payload.format = .protobuf
  | _ => true

theorem opFits_sound {s : Pod} {op : Op} (ok : opFits s op = true) : OpFits s op := by
  refine ⟨fun conn payload sends unreplied => ?_, ?_⟩
  · cases op with
    | notice conn' payload' =>
      obtain ⟨rfl, rfl⟩ := sends
      simpa [opFits] using ok
    | reply conn' payload' =>
      obtain ⟨rfl, rfl⟩ := sends
      cases payload with
      | frame f => exact absurd rfl (unreplied f)
      | _ => simpa [opFits] using ok
    | sendToDevice u d payload' =>
      obtain ⟨rfl, held, user, -⟩ := sends
      simpa using List.all_eq_true.mp ok conn (Hub.mem_conns.mpr ⟨held, user⟩)
    | deliverLocal u payload' =>
      obtain ⟨rfl, held, user⟩ := sends
      simpa using List.all_eq_true.mp ok conn (Hub.mem_conns.mpr ⟨held, user⟩)
    | drain payload' =>
      obtain ⟨rfl, held⟩ := sends
      simpa using List.all_eq_true.mp ok conn (Hub.mem_rows.mpr held)
    | _ => exact sends.elim
  · rintro conn rfl ch found payload mem
    simp only [opFits, found, Option.all_some] at ok
    simpa using List.all_eq_true.mp ok payload mem

def deliversFitting (p : Pool (pod S r h)) : PoolLabel (pod S r h) → Bool
  | .run i _ => (p.next i).all fun x => opFits p.shared x.2
  | .env .loop => match p.shared.inbox with
    | some (.broadcast u payload) =>
      (p.shared.hub.conns u).all fun conn => p.shared.fits conn payload
    | _ => true
  | _ => true

theorem deliversFitting_sound {p : Pool (pod S r h)} {l : PoolLabel (pod S r h)}
    (ok : deliversFitting p l = true) : DeliversFitting p l := by
  match l with
  | .spawn _ => trivial
  | .env (.write _) => trivial
  | .env (.server _) => trivial
  | .env .loop =>
    intro u payload here conn mem
    simp only [deliversFitting, here] at ok
    simpa using List.all_eq_true.mp ok conn mem
  | .run i choice =>
    intro t op next
    simp only [deliversFitting, next, Option.all_some] at ok
    exact opFits_sound ok

end Runs

/-- A platform on which every packet says that its sender is typing to Bob. -/
def typingPlatform : Gateway.Platform :=
  { Gateway.samplePlatform with
    unmarshalPacket := fun _ =>
      some ⟨"t1", .clientAction ⟨"r1", .typingIndicator ⟨"bob", true⟩⟩⟩ }

abbrev typingPod := pod typingPlatform Gateway.sampleRouter (sampleHandler 10 5)

/-- The read pump of thread `i` handles a packet. -/
def packetLabels (i : Nat) : List (PoolLabel typingPod) :=
  [.run i (.answer true), .run i (.answer true), .run i .ok, .run i (.relay .ok), .run i .ok,
    .env .loop]

/-- Alice and Bob connect. -/
def bothConnect (messages : List Inbound) : List (PoolLabel typingPod) :=
  List.flatten [[.spawn (.handshake (sampleRequest "alice" "") [.data [8]]),
    .spawn (.handshake (sampleRequest "bob" "") messages)],
    checkLabels 0, connectLabels 0 "c1", checkLabels 1, connectLabels 1 "c2"]

/-- Bob has sent a packet before he receives one. -/
def packetToPacket : Option (Pool typingPod) :=
  podFrom deliversFitting <| List.flatten [bothConnect [.data [8]], packetLabels 1, packetLabels 0]

theorem packetToPacket_isSome : packetToPacket.isSome := by rfl

/-- Bob speaks JSON, and gets a packet. -/
def packetToJson : Option (Pool typingPod) :=
  podFrom (fun _ _ => true) <| List.flatten [bothConnect [], packetLabels 0]

theorem packetToJson_isSome : packetToJson.isSome := by rfl

end GenChat.Ws
