import GenChat.Gateway.Router

/-!
# The framing of packets

A packet travels with a length prefix, or bare. `Handle` decides by the connection and by the first
byte whether to try a frame as a packet at all. The prefix of a packet below 2^24 bytes begins with
a zero byte, which no JSON text does; a bare packet with a trace id begins with the tag of that
field, which is the byte of a line feed.
-/
namespace GenChat.Gateway
open Library Ledger

/-! ## Protobuf -/

/-- Seven bits at a time, low bits first; a varint takes ten bytes at most. -/
def varintBytes : Nat → Nat → Bytes
  | 0, _ => []
  | fuel + 1, n =>
    if n < 128 then [UInt8.ofNat n]
    else UInt8.ofNat (n % 128 + 128) :: varintBytes fuel (n / 128)

def varint (n : Nat) : Bytes := varintBytes 10 n

/-- A field of wire type 2, which strings and messages have. -/
def lengthDelimited (field : Nat) (body : Bytes) : Bytes :=
  varint (field * 8 + 2) ++ varint body.length ++ body

/-- The `payload` of a packet, whose body is the encoding of its message. -/
inductive WirePayload where
  | clientAction (body : Bytes)
  | serverEvent (body : Bytes)
  | heartbeat (body : Bytes)

/-- A `Packet` with a payload; `sentAt` is the encoding of its timestamp. -/
structure WirePacket where
  traceId : String
  sentAt : Option Bytes
  payload : WirePayload

def WirePayload.marshal : WirePayload → Bytes
  | .clientAction body => lengthDelimited 10 body
  | .serverEvent body => lengthDelimited 11 body
  | .heartbeat body => lengthDelimited 12 body

/-- `proto.Marshal`: the fields in their order, an empty string left out. -/
def WirePacket.marshal (w : WirePacket) : Bytes :=
  (if w.traceId = "" then [] else lengthDelimited 1 w.traceId.toUTF8.data.toList) ++
    (match w.sentAt with
      | some sentAt => lengthDelimited 2 sentAt
      | none => []) ++
    w.payload.marshal

namespace Router

def encodePacket (w : WirePacket) : Bytes := toBeBytes 4 w.marshal.length ++ w.marshal

/-! ## Detection -/

variable (S : Platform)

/-- The packet that `Handle` passes on, if it takes the frame for one. -/
def packetOf (conn : Conn) (data : Bytes) : Option Packet :=
  if conn.wireFormat = .protobuf ∨ isProtobufPayload data then decodePacket S data else none

theorem Handle_packetOf (r : Router) (conn : Conn) (data : Bytes) : r.Handle S conn data =
    match packetOf S conn data with
    | some packet => r.handleProtobufPacket S conn packet
    | none => r.handleJson S conn data := by
  unfold Handle packetOf
  split
  · rfl
  · rfl

/-- `Handle` takes the frame for this packet. -/
structure Hands (r : Router) (conn : Conn) (data : Bytes) (p : Packet) : Prop where
  packet : packetOf S conn data = some p
  handled : r.Handle S conn data = r.handleProtobufPacket S conn p

theorem hands_iff {r : Router} {conn : Conn} {data : Bytes} {p : Packet} :
    Hands S r conn data p ↔ packetOf S conn data = some p := by
  refine ⟨Hands.packet, fun h => ⟨h, ?_⟩⟩
  rw [Handle_packetOf, h]

variable {S} {conn : Conn} {w : WirePacket} {p : Packet} {data : Bytes}

theorem isProtobufPayload_cons (b : UInt8) (data : Bytes) : isProtobufPayload (b :: data) =
    decide (b ∉ ([0x7B, 0x20, 0x09, 0x0A, 0x0D, 0x5B] : List UInt8)) := rfl

theorem decodePacket_parsed (reads : S.unmarshalPacket data = some p)
    (carries : Packet.isEmpty p = false)
    (bare : data.take 4 ≠ toBeBytes 4 (data.length - 4)) : decodePacket S data = some p := by
  unfold decodePacket
  simp [bare, reads, carries]

theorem decodePacket_prefixed (reads : S.unmarshalPacket data = some p)
    (carries : Packet.isEmpty p = false) :
    decodePacket S (toBeBytes 4 data.length ++ data) = some p := by
  have length : (toBeBytes 4 data.length).length = 4 := length_toBeBytes 4 _
  have first : (toBeBytes 4 data.length ++ data).take 4 = toBeBytes 4 data.length := by
    rw [List.take_append_of_le_length length.ge, List.take_of_length_le length.le]
  have rest : (toBeBytes 4 data.length ++ data).drop 4 = data := by
    rw [List.drop_append_of_le_length length.ge, List.drop_eq_nil_of_le length.le, List.nil_append]
  have kept : (some p).filter (fun p => !Packet.isEmpty p) = some p := by simp [carries]
  unfold decodePacket
  simp [first, rest, reads, kept]

/-! ## First bytes -/

theorem length_prefix {n : Nat} (small : n < 2 ^ 24) : (toBeBytes 4 n).head? = some 0 := by
  have zero : n / 256 ^ 3 = 0 := Nat.div_eq_of_lt (by omega)
  rw [toBeBytes, zero]
  rfl

/-- The first byte of a bare packet is the tag of its first field. -/
theorem marshal_head (w : WirePacket) : ∃ rest, w.marshal = (if w.traceId = "" then
    (match w.sentAt, w.payload with
      | some _, _ => 0x12
      | none, .clientAction _ => 0x52
      | none, .serverEvent _ => 0x5A
      | none, .heartbeat _ => 0x62) else 0x0A) :: rest := by
  obtain ⟨traceId, sentAt, payload⟩ := w
  by_cases traced : traceId = ""
  · cases sentAt with
    | some sentAt => exact ⟨_, by simp [WirePacket.marshal, traced, lengthDelimited]; rfl⟩
    | none => cases payload <;> exact ⟨_, by
        simp [WirePacket.marshal, WirePayload.marshal, traced, lengthDelimited]; rfl⟩
  · exact ⟨_, by simp [WirePacket.marshal, traced, lengthDelimited]; rfl⟩

theorem isProtobufPayload_marshal (w : WirePacket) :
    isProtobufPayload w.marshal = decide (w.traceId = "") := by
  obtain ⟨rest, marshal⟩ := marshal_head w
  rw [marshal, isProtobufPayload_cons]
  by_cases traced : w.traceId = ""
  · rw [if_pos traced]
    cases sentAt : w.sentAt <;> cases payload : w.payload <;> simp [traced]
  · simp [traced]

/-- A bare packet below 2^24 bytes does not look as if it had a length prefix. -/
theorem marshal_bare (small : w.marshal.length < 2 ^ 24) :
    w.marshal.take 4 ≠ toBeBytes 4 (w.marshal.length - 4) := by
  intro same
  obtain ⟨rest, marshal⟩ := marshal_head w
  have zero : (w.marshal.take 4).head? = some 0 := by
    rw [same]
    exact length_prefix (by omega)
  rw [marshal, List.take_succ_cons, List.head?_cons, Option.some.injEq] at zero
  split at zero
  · cases sentAt : w.sentAt <;> cases payload : w.payload <;> simp [sentAt, payload] at zero
  · simp at zero

/-! ## Frames -/

/-- A JSON object text begins with a brace, after white space. -/
def ObjectText (data : Bytes) : Prop :=
  ∃ space rest, data = space ++ 0x7B :: rest ∧ ∀ b ∈ space, b ∈ ([0x20, 0x09, 0x0A, 0x0D] : Bytes)

theorem packetOf_object (json : conn.wireFormat ≠ .protobuf) (text : ObjectText data) :
    packetOf S conn data = none := by
  obtain ⟨space, rest, rfl, blank⟩ := text
  unfold packetOf
  rw [if_neg]
  rintro (protobuf | detected)
  · exact json protobuf
  · cases space with
    | nil => simp [isProtobufPayload_cons] at detected
    | cons b space =>
      have b_blank := blank b (by simp)
      rw [List.cons_append, isProtobufPayload_cons] at detected
      refine of_decide_eq_true detected ?_
      fin_cases b_blank <;> simp

theorem packetOf_prefixed (reads : S.unmarshalPacket w.marshal = some p)
    (carries : Packet.isEmpty p = false) (small : w.marshal.length < 2 ^ 24) :
    packetOf S conn (encodePacket w) = some p := by
  unfold packetOf encodePacket
  rw [if_pos, decodePacket_prefixed reads carries]
  have zero := length_prefix small
  cases framed : toBeBytes 4 w.marshal.length with
  | nil => simp [framed] at zero
  | cons b rest =>
    rw [framed, List.head?_cons, Option.some.injEq] at zero
    exact .inr (by simp [zero, isProtobufPayload_cons])

theorem packetOf_bare (reads : S.unmarshalPacket w.marshal = some p)
    (carries : Packet.isEmpty p = false) (small : w.marshal.length < 2 ^ 24) :
    packetOf S conn w.marshal = some p ↔ conn.wireFormat = .protobuf ∨ w.traceId = "" := by
  unfold packetOf
  rw [isProtobufPayload_marshal, decodePacket_parsed reads carries (marshal_bare small)]
  by_cases detected : conn.wireFormat = .protobuf ∨ w.traceId = "" <;> simp [detected]

/-- Both framings of the packet are handed on as the packet, and no JSON object is taken for one
on a connection of another format. -/
structure Unambiguous (S : Platform) (r : Router) (conn : Conn) (w : WirePacket) (p : Packet) :
    Prop where
  prefixed : Hands S r conn (encodePacket w) p
  bare : Hands S r conn w.marshal p
  object : conn.wireFormat ≠ .protobuf → ∀ data, ObjectText data → packetOf S conn data = none

/-- The framing of a packet is unambiguous exactly where a bare packet is not taken for JSON. -/
theorem framing_unambiguous_iff (r : Router) (conn : Conn) (w : WirePacket) (p : Packet)
    (reads : S.unmarshalPacket w.marshal = some p) (carries : Packet.isEmpty p = false)
    (small : w.marshal.length < 2 ^ 24) :
    Unambiguous S r conn w p ↔ conn.wireFormat = .protobuf ∨ w.traceId = "" := by
  refine ⟨fun h => (packetOf_bare reads carries small).mp h.bare.packet, fun detected => ?_⟩
  refine ⟨?_, ?_, fun json data text => packetOf_object json text⟩
  · exact (hands_iff S).mpr (packetOf_prefixed reads carries small)
  · exact (hands_iff S).mpr ((packetOf_bare reads carries small).mpr detected)

/-! ## A heartbeat with a trace id -/

def heartbeat (traceId : String) : WirePacket := ⟨traceId, none, .heartbeat [8, 7]⟩

/-- A platform that reads this one packet. -/
def heartbeatPlatform (traceId : String) : Platform := { samplePlatform with
  unmarshalPacket := fun data =>
    if data = (heartbeat traceId).marshal then some ⟨traceId, .heartbeat 7⟩ else none }

theorem heartbeatPlatform_reads (traceId : String) :
    (heartbeatPlatform traceId).unmarshalPacket (heartbeat traceId).marshal =
      some ⟨traceId, .heartbeat 7⟩ := if_pos rfl

theorem framing_unambiguous_sample : Unambiguous (heartbeatPlatform "") sampleRouter
    ⟨"alice", .json⟩ (heartbeat "") ⟨"", .heartbeat 7⟩ :=
  (framing_unambiguous_iff sampleRouter ⟨"alice", .json⟩ (heartbeat "") ⟨"", .heartbeat 7⟩
    (heartbeatPlatform_reads "") rfl (by decide)).mpr (.inr rfl)

/-- The heartbeat begins with a line feed, so a fresh connection reads it as JSON. -/
theorem traced_packet_refused :
    (heartbeatPlatform "t1").unmarshalPacket (heartbeat "t1").marshal =
      some ⟨"t1", .heartbeat 7⟩ ∧
    (heartbeat "t1").marshal = [0x0A, 2, 0x74, 0x31, 0x62, 2, 8, 7] ∧
    sampleRouter.Handle (heartbeatPlatform "t1") ⟨"alice", .json⟩ (heartbeat "t1").marshal =
      sendError ⟨"alice", .json⟩ "INVALID_JSON" "frame is not valid JSON or Protobuf" ∧
    ¬ Unambiguous (heartbeatPlatform "t1") sampleRouter ⟨"alice", .json⟩ (heartbeat "t1")
      ⟨"t1", .heartbeat 7⟩ := by
  have json : packetOf (heartbeatPlatform "t1") ⟨"alice", .json⟩ (heartbeat "t1").marshal = none := by
    rfl
  refine ⟨heartbeatPlatform_reads _, by rfl, ?_, fun h => ?_⟩
  · rw [Handle_packetOf, json]
    rfl
  · have handed := h.bare.packet
    rw [json] at handed
    cases handed

end Router
end GenChat.Gateway
