import GenChat.Auth.Keys

/-!
# Push tokens

The handlers of `push.go` and the HTTP endpoints of the push service.
-/
namespace GenChat.Auth
open Library
open Ledger (Bytes)

inductive PushPlatform where
  | unspecified
  | apns
  | fcm
  | webpush
  deriving DecidableEq

def platformToString : PushPlatform → String
  | .apns => "apns"
  | .fcm => "fcm"
  | .webpush => "webpush"
  | .unspecified => "unknown"

def stringToPlatform (s : String) : PushPlatform :=
  match s.toLower with
  | "apns" => .apns
  | "fcm" => .fcm
  | "webpush" => .webpush
  | _ => .unspecified

/-- The conversion of an `int` to the 32 bits of the enumeration, whose other values the handler
does not distinguish. -/
def PushPlatform.ofInt (n : Int) : PushPlatform :=
  if n % 2 ^ 32 = 1 then .apns
  else if n % 2 ^ 32 = 2 then .fcm
  else if n % 2 ^ 32 = 3 then .webpush
  else .unspecified

structure RegisterPushTokenRequest where
  deviceId : String
  platform : PushPlatform
  token : String
  endpoint : String
  p256dh : Option Bytes
  auth : Option Bytes

structure PushTokenRecord where
  deviceId : String
  platform : PushPlatform
  token : String
  endpoint : String
  p256dh : Option Bytes
  auth : Option Bytes
  deriving DecidableEq

def PushToken.record (deviceID : UUID) (row : PushToken) : PushTokenRecord where
  deviceId := deviceID.text
  platform := stringToPlatform row.platform
  token := row.token
  endpoint := row.endpoint
  p256dh := row.p256dh
  auth := row.auth

variable (S : Platform)

/-- The user of a context without a look at errors. -/
def contextUser (ctx : Context) : UUID :=
  if ctx.userID = "" then .nil else (S.parseUUID ctx.userID).getD (S.parsedUUID ctx.userID)

def registerPushToken (ctx : Context) (req : RegisterPushTokenRequest) : Proc (Answer Unit) :=
  if req.deviceId = "" then pure (.error ⟨.invalidArgument, "device_id is required"⟩)
  else match S.parseUUID req.deviceId with
    | none => pure (.error ⟨.invalidArgument, "invalid device_id format"⟩)
    | some devUUID => do
      let row : PushToken := {
        userID := contextUser S ctx
        platform := platformToString req.platform
        token := req.token
        endpoint := req.endpoint
        p256dh := req.p256dh
        auth := req.auth }
      match ← issue (.registerPushToken devUUID row) with
      | .error _ => pure (.error ⟨.internal, "failed to register push token"⟩)
      | .ok () => pure (.ok ())

def unregisterPushToken (deviceId : String) : Proc (Answer Unit) :=
  if deviceId = "" then pure (.error ⟨.invalidArgument, "device_id is required"⟩)
  else match S.parseUUID deviceId with
    | none => pure (.error ⟨.invalidArgument, "invalid device_id format"⟩)
    | some devUUID => do
      match ← issue (.unregisterPushToken devUUID) with
      | .error _ => pure (.error ⟨.internal, "failed to unregister push token"⟩)
      | .ok () => pure (.ok ())

def getPushTokens (userId : String) : Proc (Answer (List PushTokenRecord)) :=
  if userId = "" then pure (.error ⟨.invalidArgument, "user_id is required"⟩)
  else match S.parseUUID userId with
    | none => pure (.error ⟨.invalidArgument, "invalid user_id format"⟩)
    | some userUUID => do
      match ← issue (.getPushTokensForUser userUUID) with
      | .error _ => pure (.error ⟨.internal, "failed to get push tokens"⟩)
      | .ok tokens => pure (.ok (tokens.map fun t => t.2.record t.1))

/-! ## HTTP endpoints -/

/-- A rate limit between the checks of the method and of the token. -/
def limited {α β : Type} (methods : List Method) (req : HttpRequest β)
    (handler : JWTPayload → Proc (HttpAnswer α)) : Proc (HttpAnswer α) :=
  if req.method ∉ methods then pure (.error ⟨"method not allowed", 405⟩)
  else do
    match ← issue .allow with
    | false => pure (.error ⟨"rate limit exceeded, please slow down", 429⟩)
    | true => authenticated methods req handler

structure RegisterPushTokenBody where
  deviceId : String
  device_id : String
  platform : Int
  token : String
  endpoint : String
  p256dh : String
  auth : String

def RegisterPushTokenBody.request (body : RegisterPushTokenBody) (claims : JWTPayload) :
    RegisterPushTokenRequest where
  deviceId := orElse (orElse body.deviceId body.device_id) claims.deviceID
  platform := .ofInt body.platform
  token := body.token
  endpoint := body.endpoint
  p256dh := decoded (some body.p256dh)
  auth := decoded (some body.auth)

def httpRegisterPushToken (req : HttpRequest RegisterPushTokenBody) : Proc (HttpAnswer Unit) :=
  limited [.post] req fun claims =>
    if req.decoded = false then pure (.error ⟨"invalid request payload", 400⟩)
    else do
      let request := req.body.request claims
      match ← registerPushToken S ⟨claims.sub, request.deviceId⟩ request with
      | .error _ => pure (.error ⟨"failed to register push token", 500⟩)
      | .ok () => pure (.ok ())

def httpUnregisterPushToken (req : HttpRequest DeviceQuery) : Proc (HttpAnswer Unit) :=
  limited [.post] req fun claims =>
    if req.decoded = false then pure (.error ⟨"invalid request payload", 400⟩)
    else do
      let deviceID := orElse (orElse req.body.deviceId req.body.device_id) claims.deviceID
      match ← unregisterPushToken S deviceID with
      | .error _ => pure (.error ⟨"failed to unregister push token", 500⟩)
      | .ok () => pure (.ok ())

structure UserQuery where
  userId : String
  user_id : String

/-- `strings.EqualFold` on ASCII text. -/
def equalFold (s t : String) : Bool := s.toLower = t.toLower

def httpGetPushTokens (req : HttpRequest UserQuery) : Proc (HttpAnswer (List PushTokenRecord)) :=
  authenticated [.post, .get] req fun claims =>
    let targetUserID := orElse req.body.userId req.body.user_id
    if targetUserID = "" then pure (.error ⟨"userId is required", 400⟩)
    else if equalFold claims.sub targetUserID = false then pure (.error ⟨"forbidden", 403⟩)
    else do
      match ← getPushTokens S targetUserID with
      | .error _ => pure (.error ⟨"failed to get push tokens", 500⟩)
      | .ok tokens => pure (.ok tokens)

end GenChat.Auth
