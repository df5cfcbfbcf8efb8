import GenChat.Auth.Service
import GenChat.Library.Results

/-!
# Device linking

The endpoints under `/auth/device-link/` and the table behind them. An initiating device leaves
the hash of a code; whoever knows the code may approve the session with an encrypted bundle, and
may then complete it and be given the bundle. Every operation is one statement.
-/
namespace GenChat.Auth.Linking
open Library
open Ledger (Bytes Table)

inductive LinkStatus where
  | pending
  | approved
  | consumed
  deriving DecidableEq

/-- A row of `device_linking_sessions`; the text of a missing bundle is empty. -/
structure DeviceLinkingSession where
  primaryUserID : UUID
  primaryDeviceID : UUID
  ephemeralPubkey : Bytes
  authCodeHash : Bytes
  encryptedBundle : Bytes
  newDeviceID : Option UUID
  status : LinkStatus
  expiresAt : Nat
  deriving DecidableEq

/-! ## Operations -/

inductive Op where
  /-- `time.Now()`. -/
  | now
  /-- `uuid.New()`. -/
  | newUUID
  /-- `tieredLimiter.Allow`. -/
  | allow (userID : UUID)
  | createDeviceLinkingSession (sessionID primaryUserID primaryDeviceID : UUID)
      (ephemeralPubkey authCodeHash : Bytes) (expiresAt : Nat)
  | getDeviceLinkingSession (sessionID : UUID)
  | approveDeviceLinkingSession (sessionID : UUID) (encryptedBundle : Bytes) (newDeviceID : UUID)
  | completeDeviceLinkingSession (sessionID : UUID)
  deriving DecidableEq

abbrev Ret : Op → Type
  | .now => Nat
  | .newUUID => UUID
  | .allow _ => Bool
  | .createDeviceLinkingSession _ _ _ _ _ _ => Except StoreError Unit
  | .getDeviceLinkingSession _ => Except StoreError (Option DeviceLinkingSession)
  | .approveDeviceLinkingSession _ _ _ => Except StoreError Unit
  | .completeDeviceLinkingSession _ => Except StoreError Unit

structure Links where
  sessions : Table UUID DeviceLinkingSession
  clock : Nat

namespace Links
variable (s : Links)

/-- A write, without result when it breaks a constraint or finds no row that it asks for. -/
def write (sessions : Option (Table UUID DeviceLinkingSession)) (c : Choice) :
    Option (Except StoreError Unit × Links) :=
  match sessions with
  | none => some (.error .failed, s)
  | some sessions =>
    match c with
    | .ok => some (.ok (), { s with sessions := sessions })
    | .fail => some (.error .failed, s)
    | .failApplied => some (.error .failed, { s with sessions := sessions })
    | _ => none

def insert (id : UUID) (row : DeviceLinkingSession) : Option (Table UUID DeviceLinkingSession) :=
  if id ∈ s.sessions then none else some (s.sessions.insert id row)

/-- `UPDATE … WHERE session_id = $1 AND expires_at > now()`. -/
def approve (id : UUID) (encryptedBundle : Bytes) (newDeviceID : UUID) :
    Option (Table UUID DeviceLinkingSession) :=
  match s.sessions.lookup id with
  | some row =>
    if s.clock < row.expiresAt then
      let row := { row with
        encryptedBundle := encryptedBundle, newDeviceID := some newDeviceID, status := .approved }
      some (s.sessions.insert id row)
    else none
  | none => none

/-- `UPDATE … WHERE session_id = $1`. -/
def complete (id : UUID) : Table UUID DeviceLinkingSession :=
  match s.sessions.lookup id with
  | some row => s.sessions.insert id { row with status := .consumed }
  | none => s.sessions

def exec : (op : Op) → Choice → Option (Ret op × Links)
  | .now, c => match c with
    | .ok => some (s.clock, s)
    | _ => none
  | .newUUID, c => match c with
    | .uuid id => some (id, s)
    | _ => none
  | .allow _, c => match c with
    | .answer b => some (b, s)
    | _ => none
  | .createDeviceLinkingSession id u d ephemeralPubkey authCodeHash expiresAt, c =>
    s.write (s.insert id ⟨u, d, ephemeralPubkey, authCodeHash, [], none, .pending, expiresAt⟩) c
  | .getDeviceLinkingSession id, c => match c with
    | .ok => some (.ok (s.sessions.lookup id), s)
    | .fail => some (.error .failed, s)
    | _ => none
  | .approveDeviceLinkingSession id bundle newDeviceID, c =>
    s.write (s.approve id bundle newDeviceID) c
  | .completeDeviceLinkingSession id, c => s.write (some (s.complete id)) c

end Links

abbrev system : System Op Ret := ⟨Links, Choice, Links.exec⟩

abbrev Proc := Prog Op Ret

@[simp] def issue (op : Op) : Proc (Ret op) := Prog.perform op

/-! ## Handlers -/

/-- What the handlers take from outside. -/
structure Platform where
  /-- `uuid.Parse`. -/
  parseUUID : String → Option UUID
  /-- `sha256.Sum256` of the bytes of a text. -/
  sha256 : String → Bytes

inductive Response where
  | initiated (sessionID : UUID) (expiresAt : Nat)
  | status (sessionID primaryUserID primaryDeviceID : UUID) (ephemeralPubkey : String)
      (status : LinkStatus) (hasBundle : Bool) (expiresAt : Nat) (newDeviceID : Option UUID)
  | approved
  | completed (encryptedBundle : String) (newDeviceID : Option UUID)
  deriving DecidableEq

structure InitiateBody where
  ephemeral_pubkey : String
  auth_code_hash : String
  expires_in_sec : Int

structure ApproveBody where
  session_id : String
  encrypted_bundle : String
  new_device_id : String
  auth_code : String

structure CompleteBody where
  session_id : String
  auth_code : String

def refuse {α : Type} (message : String) (status : Nat) : Proc (HttpAnswer α) :=
  pure (.error ⟨message, status⟩)

/-- `base64.StdEncoding.DecodeString`, unless it fails or decodes to nothing. -/
def decodeSome (text : String) : Option Bytes :=
  let decoded := Base64.decodeString text
  if decoded.2 ∧ decoded.1 ≠ [] then some decoded.1 else none

variable (S : Platform)

def initiate (req : HttpRequest InitiateBody) : Proc (HttpAnswer Response) :=
  if req.method ≠ .post then refuse "method not allowed" 405
  else match req.token with
    | none => refuse "missing authorization header" 401
    | some token => do
      match verifyJWT (← issue .now) token with
      | none => refuse "invalid token" 401
      | some claims =>
        match S.parseUUID claims.sub with
        | none => refuse "invalid user id in token" 400
        | some primaryUserID =>
          match S.parseUUID claims.deviceID with
          | none => refuse "invalid device id in token" 400
          | some primaryDeviceID => do
            let allowed ← issue (.allow primaryUserID)
            if allowed = false then refuse "rate_limit_exceeded" 429
            else if req.decoded = false then refuse "invalid request body" 400
            else match decodeSome req.body.ephemeral_pubkey with
              | none => refuse "invalid ephemeral_pubkey base64" 400
              | some ephPub =>
                match decodeSome req.body.auth_code_hash with
                | none => refuse "invalid auth_code_hash base64" 400
                | some codeHash => do
                  let expSec := if req.body.expires_in_sec ≤ 0 ∨ 600 < req.body.expires_in_sec
                    then 300 else req.body.expires_in_sec
                  let expiresAt := (← issue .now) + expSec.toNat * Ledger.second
                  let sessionID ← issue .newUUID
                  match ← issue (.createDeviceLinkingSession sessionID primaryUserID
                      primaryDeviceID ephPub codeHash expiresAt) with
                  | .error _ => refuse "failed to create device linking session" 500
                  | .ok () => pure (.ok (.initiated sessionID expiresAt))

/-- The endpoint `/status`, with the `session_id` of the query. -/
def status (method : Method) (session_id : String) : Proc (HttpAnswer Response) :=
  if method ≠ .get then refuse "method not allowed" 405
  else match S.parseUUID session_id with
    | none => refuse "invalid session_id" 400
    | some sessionID => do
      match ← issue (.getDeviceLinkingSession sessionID) with
      | .ok (some s) => pure (.ok (.status sessionID s.primaryUserID s.primaryDeviceID
          (Base64.encodeToString s.ephemeralPubkey) s.status (s.encryptedBundle ≠ []) s.expiresAt
          s.newDeviceID))
      | _ => refuse "linking session not found" 404

def approve (req : HttpRequest ApproveBody) : Proc (HttpAnswer Response) :=
  if req.method ≠ .post then refuse "method not allowed" 405
  else if req.decoded = false then refuse "invalid request body" 400
  else match S.parseUUID req.body.session_id with
    | none => refuse "invalid session_id" 400
    | some sessionID => do
      match ← issue (.getDeviceLinkingSession sessionID) with
      | .ok (some s) =>
        if s.status ≠ .pending then refuse "session is not pending approval" 409
        else do
          let now ← issue .now
          if s.expiresAt < now then refuse "linking session expired" 410
          else if S.sha256 req.body.auth_code ≠ s.authCodeHash then
            refuse "invalid confirmation code" 403
          else match decodeSome req.body.encrypted_bundle with
            | none => refuse "invalid encrypted_bundle base64" 400
            | some bundle =>
              match S.parseUUID req.body.new_device_id with
              | none => refuse "invalid new_device_id" 400
              | some newDevID => do
                match ← issue (.approveDeviceLinkingSession sessionID bundle newDevID) with
                | .error _ => refuse "failed to approve device linking" 500
                | .ok () => pure (.ok .approved)
      | _ => refuse "linking session not found" 404

def complete (req : HttpRequest CompleteBody) : Proc (HttpAnswer Response) :=
  if req.method ≠ .post then refuse "method not allowed" 405
  else if req.decoded = false then refuse "invalid request body" 400
  else match S.parseUUID req.body.session_id with
    | none => refuse "invalid session_id" 400
    | some sessionID => do
      match ← issue (.getDeviceLinkingSession sessionID) with
      | .ok (some s) =>
        if s.status ≠ .approved then refuse "session not approved or already consumed" 409
        else do
          let now ← issue .now
          if s.expiresAt < now then refuse "linking session expired" 410
          else if S.sha256 req.body.auth_code ≠ s.authCodeHash then
            refuse "invalid confirmation code" 403
          else do
            match ← issue (.completeDeviceLinkingSession sessionID) with
            | .error _ => refuse "failed to complete device linking" 500
            | .ok () =>
              pure (.ok (.completed (Base64.encodeToString s.encryptedBundle) s.newDeviceID))
      | _ => refuse "linking session not found" 404

inductive Request where
  | initiate (req : HttpRequest InitiateBody)
  | status (method : Method) (session_id : String)
  | approve (req : HttpRequest ApproveBody)
  | complete (req : HttpRequest CompleteBody)

def Request.handle : Request → Proc (HttpAnswer Response)
  | .initiate req => Linking.initiate S req
  | .status method session_id => Linking.status S method session_id
  | .approve req => Linking.approve S req
  | .complete req => Linking.complete S req

/-- Any number of requests at a time, from a table without sessions, while time passes. -/
abbrev service : Service Op Ret (HttpAnswer Response) Request Nat where
  system := system
  init s := s.sessions = ∅
  env s nanoseconds := some { s with clock := s.clock + nanoseconds }
  body req := req.handle S

end GenChat.Auth.Linking
