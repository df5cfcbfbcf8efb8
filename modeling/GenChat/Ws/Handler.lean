import GenChat.Ws.Pod

/-!
# Handshakes and read pumps

`ServeHTTP` as a program: the admission checks one after the other, the upgrade, the registration
and the read pump, which hands every message to the router. What the router sends through the hub
or on the queue of the connection becomes an operation of the pod.
-/
namespace GenChat.Ws
open Library Ledger
open Gateway (WireFormat)

abbrev Proc := Prog Op Ret

structure HandlerOptions where
  maxConnectionsPerPod : Int
  maxDevicesPerUser : Int
  deviceCapPolicy : String
  shedder : Bool

/-- A handler. `allowAnyOrigin` tells whether `WS_ALLOW_ANY_ORIGIN` is `true`. -/
structure Handler where
  maxConnectionsPerPod : Nat
  maxDevicesPerUser : Nat
  deviceCapPolicy : String
  shedder : Bool
  allowAnyOrigin : Bool
  ceiling_pos : 0 < maxConnectionsPerPod
  cap_pos : 0 < maxDevicesPerUser

def newHandlerWithOptions (opts : HandlerOptions) (allowAnyOrigin : Bool) : Handler where
  maxConnectionsPerPod :=
    if opts.maxConnectionsPerPod ≤ 0 then 10000 else opts.maxConnectionsPerPod.toNat
  maxDevicesPerUser := if opts.maxDevicesPerUser ≤ 0 then 5 else opts.maxDevicesPerUser.toNat
  deviceCapPolicy := if opts.deviceCapPolicy = "" then "evict_oldest" else opts.deviceCapPolicy
  shedder := opts.shedder
  allowAnyOrigin := allowAnyOrigin
  ceiling_pos := by split <;> omega
  cap_pos := by split <;> omega

structure JwtClaims where
  sub : String
  deviceID : String

/-- What `ServeHTTP` reads from a request. -/
structure Request where
  clientIP : String
  loopbackOrPrivate : Bool
  /-- `X-Test-Max-Connections`, if it is there: the number it holds, if it holds one. -/
  testMaxConnections : Option (Option Int)
  /-- Whether `X-Test-Simulate-Ceiling` is `true`. -/
  testSimulateCeiling : Bool
  testDeviceCapPolicy : String
  /-- The claims of the token, if there is one and `parseAndValidateJWT` accepts it. -/
  claims : Option JwtClaims

/-- What the read pump gets from the client. -/
inductive Inbound where
  | data (bytes : List UInt8)
  | unsupported

section Programs
variable (S : Gateway.Platform) (r : Gateway.Router) (h : Handler)

/-! ## The hub's side of the router -/

/-- `BroadcastAll` after its snapshot. -/
def broadcastEach : List String → Payload → Proc Unit
  | [], _ => .pure ()
  | uid :: rest, payload => .call (.sendToUser uid payload) fun _ => broadcastEach rest payload

/-- What an operation of the router is for the pod. -/
def hubOp (conn : Conn) : (op : Gateway.Op) → Proc (Gateway.Ret op)
  | .sendToUser uid frame => .call (.sendToUser uid (.frame frame)) .pure
  | .connSend frame => .call (.reply conn (.frame frame)) .pure
  | .broadcastAll excludeUserID frame =>
    .call (.userIDs excludeUserID) fun uids => broadcastEach uids (.frame frame)
  | op => .call (.relay op) .pure

def route (conn : Conn) (format : WireFormat) (data : List UInt8) : Proc Unit :=
  ((r.Handle S ⟨conn.userID, format⟩ data).implement (hubOp conn)).bind fun _ => .pure ()

/-- `Handle` finds a packet, in which case it turns the connection to protobuf. -/
def decodes (format : WireFormat) (data : List UInt8) : Bool :=
  (format = .protobuf || Gateway.Router.isProtobufPayload data) &&
    (Gateway.Router.decodePacket S data).isSome

/-- `messageHandler`, with the format of the connection after it. -/
def handleMessage (conn : Conn) (format : WireFormat) (data : List UInt8) : Proc WireFormat :=
  if decodes S format data then
    .call (.setWireFormat conn) fun _ => (route S r conn format data).bind fun _ => .pure .protobuf
  else (route S r conn format data).bind fun _ => .pure format

/-! ## The read pump -/

/-- The deferred part of `readPump`. -/
def closePump (conn : Conn) : Proc Unit := .call (.unregister conn .disconnected) .pure

def readPump (conn : Conn) : WireFormat → List Inbound → Proc Unit
  | _, [] => closePump conn
  | format, message :: rest => .call (.read conn) fun ok =>
    if ok then
      match message with
      | .unsupported => readPump conn format rest
      | .data bytes => .call (.allowTiered conn.userID) fun allowed =>
        if allowed then
          (handleMessage S r conn format bytes).bind fun format => readPump conn format rest
        else .call (.reply conn .rateLimitExceeded) fun _ => readPump conn format rest
    else closePump conn

/-! ## `ServeHTTP` -/

/-- Step 1: the rate limit for handshakes. -/
def preAuth (req : Request) (next : Proc Unit) : Proc Unit :=
  if h.allowAnyOrigin && req.loopbackOrPrivate then next
  else .call (.allow req.clientIP) fun ok => if ok then next else .pure ()

/-- Step 2: load shedding. -/
def shed (next : Proc Unit) : Proc Unit :=
  if h.shedder then .call .isOverloaded fun overloaded => if overloaded then .pure () else next
  else next

/-- The ceiling that holds for a request. -/
def effectiveMaxConns (req : Request) : Int :=
  match req.testMaxConnections with
  | some (some n) => if h.allowAnyOrigin then n else h.maxConnectionsPerPod
  | _ => h.maxConnectionsPerPod

def simulateCeiling (req : Request) : Bool :=
  h.allowAnyOrigin && req.testMaxConnections.isNone && req.testSimulateCeiling

/-- Step 3: the ceiling of the pod. -/
def ceiling (req : Request) (next : Proc Unit) : Proc Unit :=
  if simulateCeiling h req then .pure ()
  else if 0 < effectiveMaxConns h req then
    .call .onlineCount fun n => if effectiveMaxConns h req ≤ (n : Nat) then .pure () else next
  else next

/-- Steps 4 and 5: the token. -/
def authenticate (req : Request) (next : JwtClaims → Proc Unit) : Proc Unit :=
  match req.claims with
  | none => .pure ()
  | some claims => if claims.sub = "" then .pure () else next claims

/-- The policy that holds for a request. -/
def policy (req : Request) : String :=
  if h.allowAnyOrigin && req.testDeviceCapPolicy ≠ "" then req.testDeviceCapPolicy
  else h.deviceCapPolicy

def unregisterEach (reason : Reason) : List Conn → Proc Unit → Proc Unit
  | [], next => next
  | conn :: rest, next => .call (.unregister conn reason) fun _ => unregisterEach reason rest next

def evictDeviceConnections (userID deviceID : String) (next : Proc Unit) : Proc Unit :=
  .call (.superseded userID deviceID) fun toEvict => unregisterEach .superseded toEvict next

def noticeEach (notice : Payload) : List Conn → Proc Unit → Proc Unit
  | [], next => next
  | conn :: rest, next => .call (.notice conn notice) fun _ =>
    .call (.unregister conn .deviceLimit) fun _ => noticeEach notice rest next

def evictDeviceWithNotice (userID deviceID reason : String) (next : Proc Unit) : Proc Unit :=
  if deviceID = "" then next
  else .call (.evicted userID deviceID) fun toEvict =>
    noticeEach (.sessionEvicted reason) toEvict next

def evictOldest (userID : String) (next : Proc Unit) : Proc Unit :=
  .call (.getOldestDeviceID userID) fun oldest => match oldest with
    | some dev =>
      if dev ≠ "" then evictDeviceWithNotice userID dev "device_limit_superseded" next else next
    | none => next

/-- Step 6 for a device that is not connected. -/
def deviceCap (policy userID : String) (next : Proc Unit) : Proc Unit :=
  .call (.getActiveDeviceCount userID) fun n =>
    if h.maxDevicesPerUser ≤ n then
      if policy = "evict_oldest" then evictOldest userID next else .pure ()
    else next

/-- Step 6: the device cap. -/
def admitDevice (policy userID deviceID : String) (next : Proc Unit) : Proc Unit :=
  if deviceID ≠ "" then .call (.hasDevice userID deviceID) fun found =>
    if found then evictDeviceConnections userID deviceID next
    else deviceCap h policy userID next
  else deviceCap h policy userID next

/-- Steps 7 to 9: the upgrade, the registration and the read pump. -/
def connect (userID deviceID : String) (messages : List Inbound) : Proc Unit :=
  .call (.accept userID) fun ok =>
    if ok then .call (.newConn userID deviceID) fun conn => .call (.register conn) fun _ =>
      readPump S r conn .json messages
    else .pure ()

def serveHTTP (req : Request) (messages : List Inbound) : Proc Unit :=
  preAuth h req <| shed h <| ceiling h req <| authenticate req fun claims =>
    admitDevice h (policy h req) claims.sub claims.deviceID <|
      connect S r claims.sub claims.deviceID messages

end Programs

/-! ## The service -/

inductive Tag where
  | handshake (req : Request) (messages : List Inbound)
  | sendToDevice (userID deviceID : String) (payload : Payload)
  | deliverLocal (userID : String) (payload : Payload)
  | drain (reconnectNotice : Option Payload)

abbrev pod (S : Gateway.Platform) (r : Gateway.Router) (h : Handler) :
    Service Op Ret Unit Tag Pod.Env where
  system := ⟨Pod, Choice, Pod.exec S⟩
  init s := ∃ clock, s = Pod.start clock
  env := Pod.env
  body
    | .handshake req messages => serveHTTP S r h req messages
    | .sendToDevice u d p => .call (.sendToDevice u d p) .pure
    | .deliverLocal u p => .call (.deliverLocal u p) .pure
    | .drain none => .pure ()
    | .drain (some p) => .call (.drain p) .pure

/-! ## Samples -/

section Samples
variable {S : Gateway.Platform} {r : Gateway.Router} {h : Handler}

/-- The run of the given labels from an empty pod. -/
def podFrom (ok : Pool (pod S r h) → PoolLabel (pod S r h) → Bool)
    (labels : List (PoolLabel (pod S r h))) : Option (Pool (pod S r h)) :=
  (Pool.machine (pod S r h)).follow (fun p l => ok p l)
    (Pool.start _ (Pod.start Gateway.sampleClock)) labels

theorem podFrom_reach {ok : Pool (pod S r h) → PoolLabel (pod S r h) → Bool}
    {labels : List (PoolLabel (pod S r h))} {p : Pool (pod S r h)}
    (run : podFrom ok labels = some p) : (Pool.machine (pod S r h)).Reach (fun p l => ok p l) p := by
  have start : (Pool.machine (pod S r h)).Reach (fun p l => ok p l)
      (Pool.start _ (Pod.start Gateway.sampleClock)) := .start ⟨_, ⟨_, rfl⟩, rfl⟩
  exact start.follow run

/-- A handshake of a user on a device. -/
def sampleRequest (userID deviceID : String) : Request where
  clientIP := "198.51.100.1"
  loopbackOrPrivate := false
  testMaxConnections := none
  testSimulateCeiling := false
  testDeviceCapPolicy := ""
  claims := some ⟨userID, deviceID⟩

/-- The options that a deployment sets: few connections and devices. -/
def sampleHandler (maxConnectionsPerPod maxDevicesPerUser : Int) : Handler :=
  newHandlerWithOptions ⟨maxConnectionsPerPod, maxDevicesPerUser, "", false⟩ false

abbrev samplePod (maxConnectionsPerPod maxDevicesPerUser : Int) :=
  pod Gateway.samplePlatform Gateway.sampleRouter
    (sampleHandler maxConnectionsPerPod maxDevicesPerUser)

/-- The operations of thread `i` up to its device check, each of which succeeds. -/
def checkLabels (i : Nat) : List (PoolLabel (pod S r h)) :=
  [.run i (.answer true), .run i .ok, .run i .ok]

/-- The rest of its handshake. -/
def connectLabels (i : Nat) (uuid : String) : List (PoolLabel (pod S r h)) :=
  [.run i (.answer true), .run i (.id uuid), .run i .ok, .env .loop]

end Samples
end GenChat.Ws
