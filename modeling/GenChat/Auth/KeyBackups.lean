import GenChat.Auth.DeviceLinking
import GenChat.Auth.RateLimits
import GenChat.Library.Json

/-!
# Key backups on the server

The endpoint `/auth/backup` of `http.go` and the table behind it. The server keeps one backup for a
user. A request makes at most one statement, which may fail and may have been applied all the same.
-/
namespace GenChat.Auth.KeyBackups
open Library
open Ledger (Bytes Table)
open Linking (decodeSome)

/-- A row of `user_key_backups`. -/
structure UserKeyBackup where
  backupCiphertext : Bytes
  kdfSalt : Bytes
  kdfAlgorithm : String
  kdfParams : Json
  bundleVersion : Int
  updatedAt : Nat

/-- The decoded body of a POST. -/
structure BackupBody where
  backup_ciphertext : String
  kdf_salt : String
  kdf_algorithm : String
  kdf_params : Option Json
  version : Int
  bundle_version : Int

inductive Call where
  /-- A body that cannot be decoded is missing. -/
  | post (body : Option BackupBody)
  | get
  | delete
  | other

structure Request where
  token : Option Token
  call : Call

inductive Response where
  | saved (userID : UUID)
  | found (userID : UUID) (backup_ciphertext kdf_salt kdf_algorithm : String) (kdf_params : Json)
      (bundle_version : Int) (updated_at : Nat)
  | noBackup
  | deleted
  | tooManyRequests (retryAfter : Int)
  | refused (error : HttpError)

/-- What becomes of the statement of a request. -/
inductive Outcome where
  | ok
  | fail
  | failApplied
  deriving DecidableEq

structure Backups where
  rows : Table UUID UserKeyBackup
  tieredLimiter : TieredRateLimiter

namespace BackupBody

def algo (req : BackupBody) : String :=
  if req.kdf_algorithm = "" then "argon2id" else req.kdf_algorithm

def ver (req : BackupBody) : Int :=
  let ver := if req.version ≤ 0 then req.bundle_version else req.version
  if ver ≤ 0 then 1 else ver

/-- The row that is written. The parameters may not be missing, and the version is an `INTEGER`. -/
def row (req : BackupBody) (ciphertext salt : Bytes) (now : Nat) : Option UserKeyBackup :=
  if Database.maxInteger < req.ver then none
  else req.kdf_params.map fun params => ⟨ciphertext, salt, req.algo, params, req.ver, now⟩

end BackupBody

namespace Backups
variable (s : Backups)

def refuse (message : String) (status : Nat) : Response × Backups :=
  (.refused ⟨message, status⟩, s)

/-- A statement that writes the rows. -/
def write (rows : Table UUID UserKeyBackup) (done : Response) (message : String) :
    Outcome → Response × Backups
  | .ok => (done, { s with rows := rows })
  | .fail => s.refuse message 500
  | .failApplied => { s with rows := rows }.refuse message 500

def post (userID : UUID) (now : Nat) (o : Outcome) : Option BackupBody → Response × Backups
  | none => s.refuse "invalid request body" 400
  | some req =>
    match decodeSome req.backup_ciphertext with
    | none => s.refuse "invalid backup_ciphertext base64" 400
    | some ciphertext =>
      match decodeSome req.kdf_salt with
      | none => s.refuse "invalid kdf_salt base64" 400
      | some salt =>
        match req.row ciphertext salt now with
        | none => s.refuse "failed to save key backup" 500
        | some row => s.write (s.rows.insert userID row) (.saved userID)
          "failed to save key backup" o

def get (userID : UUID) (now : Nat) (o : Outcome) : Response × Backups :=
  let r := s.tieredLimiter.allow "backup_recovery" userID.text (now / 1000000000)
  let s := { s with tieredLimiter := r.2 }
  if r.1.1 = false then (.tooManyRequests r.1.2, s)
  else if o ≠ .ok then s.refuse "failed to fetch key backup" 500
  else match s.rows.lookup userID with
    | none => (.noBackup, s)
    | some b => (.found userID (Base64.encodeToString b.backupCiphertext)
      (Base64.encodeToString b.kdfSalt) b.kdfAlgorithm b.kdfParams b.bundleVersion b.updatedAt, s)

end Backups

variable (parseUUID : String → Option UUID)

/-- The user of the bearer token. -/
def Request.userID (r : Request) (now : Nat) : Except HttpError UUID :=
  match r.token with
  | none => .error ⟨"missing authorization header", 401⟩
  | some token =>
    match verifyJWT now token with
    | none => .error ⟨"invalid token", 401⟩
    | some claims =>
      match parseUUID claims.sub with
      | none => .error ⟨"invalid user id in token", 400⟩
      | some userID => .ok userID

/-- A request, the time when it is served, and what becomes of its statement. -/
structure Event where
  now : Nat
  outcome : Outcome
  request : Request

namespace Backups

def backupHandler (s : Backups) (e : Event) : Response × Backups :=
  match e.request.userID parseUUID e.now with
  | .error error => (.refused error, s)
  | .ok userID =>
    match e.request.call with
    | .post body => s.post userID e.now e.outcome body
    | .get => s.get userID e.now e.outcome
    | .delete => s.write (s.rows.erase userID) .deleted "failed to delete key backup" e.outcome
    | .other => s.refuse "method not allowed" 405

/-- The requests in the order in which they are served. -/
def run (s : Backups) (es : List Event) : Backups :=
  es.foldl (fun s e => (s.backupHandler parseUUID e).2) s

end Backups

/-- The request may change the backup of the user. -/
def Event.Writes (e : Event) (userID : UUID) : Prop :=
  e.request.userID parseUUID e.now = .ok userID ∧
    ((∃ body, e.request.call = .post body) ∨ e.request.call = .delete)

/-! ## Rows -/

variable {parseUUID} {s : Backups} {u v : UUID} {now : Nat} {o : Outcome} {e : Event}
  {es : List Event}

theorem lookup_write {rows : Table UUID UserKeyBackup} {done : Response} {message : String}
    (same : rows.lookup u = s.rows.lookup u) :
    (s.write rows done message o).2.rows.lookup u = s.rows.lookup u := by
  cases o with
  | ok | failApplied => exact same
  | fail => rfl

/-- A user's backup is no matter of the others. -/
theorem lookup_post (ne : u ≠ v) (body : Option BackupBody) :
    (s.post v now o body).2.rows.lookup u = s.rows.lookup u := by
  cases body with
  | none => rfl
  | some req =>
    rw [Backups.post]
    split
    · rfl
    · split
      · rfl
      · split
        · rfl
        · exact lookup_write (AList.lookup_insert_ne ne)

theorem rows_get : (s.get v now o).2.rows = s.rows := by
  unfold Backups.get
  dsimp only
  split
  · rfl
  · split
    · rfl
    · split <;> rfl

/-- A request that does not write a backup leaves it as it is. -/
theorem lookup_backupHandler (other : ¬ e.Writes parseUUID u) :
    (s.backupHandler parseUUID e).2.rows.lookup u = s.rows.lookup u := by
  rw [Backups.backupHandler]
  split
  · rfl
  · rename_i v authorized
    have ne (writes : (∃ body, e.request.call = .post body) ∨ e.request.call = .delete) :
        u ≠ v := by
      rintro rfl
      exact other ⟨authorized, writes⟩
    split
    · rename_i body call
      exact lookup_post (ne (.inl ⟨body, call⟩)) body
    · rw [rows_get]
    · rename_i call
      exact lookup_write (AList.lookup_erase_ne (ne (.inr call)))
    · rfl

theorem lookup_run (others : ∀ e ∈ es, ¬ e.Writes parseUUID u) :
    (s.run parseUUID es).rows.lookup u = s.rows.lookup u := by
  induction es generalizing s with
  | nil => rfl
  | cons e es ih =>
    obtain ⟨first, rest⟩ := List.forall_mem_cons.mp others
    exact (ih (s := (s.backupHandler parseUUID e).2) rest).trans (lookup_backupHandler first)

/-- A saved backup is the one that was sent, without the encoding. -/
theorem saved_post {req : BackupBody} (saved : (s.post v now o (some req)).1 = .saved u) :
    ∃ ciphertext salt row, decodeSome req.backup_ciphertext = some ciphertext ∧
      decodeSome req.kdf_salt = some salt ∧ req.row ciphertext salt now = some row ∧
      (s.post v now o (some req)).2.rows.lookup u = some row := by
  revert saved
  rw [Backups.post]
  split
  · rintro ⟨⟩
  · rename_i ciphertext decoded
    split
    · rintro ⟨⟩
    · rename_i salt salted
      split
      · rintro ⟨⟩
      · rename_i row written
        intro saved
        refine ⟨ciphertext, salt, row, decoded, salted, written, ?_⟩
        cases o with
        | ok =>
          cases saved
          exact AList.lookup_insert _
        | fail | failApplied => cases saved

/-- What a GET answers where there is a backup. -/
theorem answer_get {b : UserKeyBackup} (there : s.rows.lookup u = some b) :
    (∃ retryAfter, (s.get u now o).1 = .tooManyRequests retryAfter) ∨
    (s.get u now o).1 = .refused ⟨"failed to fetch key backup", 500⟩ ∨
    (s.get u now o).1 = .found u (Base64.encodeToString b.backupCiphertext)
      (Base64.encodeToString b.kdfSalt) b.kdfAlgorithm b.kdfParams b.bundleVersion
      b.updatedAt := by
  unfold Backups.get
  dsimp only
  split
  · exact .inl ⟨_, rfl⟩
  · split
    · exact .inr (.inl rfl)
    · rw [there]
      exact .inr (.inr rfl)

end GenChat.Auth.KeyBackups
