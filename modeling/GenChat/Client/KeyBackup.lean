import GenChat.Auth.KeyBackups
import GenChat.Client.Envelopes
import GenChat.Offline.LocalCache

/-!
# Key backups

`key-backup.ts`. A backup holds the initialisation vector and the ciphertext of the bundle, and the
salt for the passphrase. What a user has uploaded, the same passphrase restores, whatever other
requests the server answers in between, until the user uploads another backup or deletes this one.
-/
namespace GenChat.KeyBackup
open Library
open Auth (UUID)
open Auth.KeyBackups
open Ledger (Bytes)

/-- What the browser gives. A key is derived from a passphrase, a salt and the iterations, and
`JSON.parse` may throw. -/
structure WebCrypto (Key Bundle : Type) where
  browser : Offline.Browser Key
  deriveKey : Bytes → Bytes → Json → Option Key
  stringify : Bundle → String
  parse : String → Option Bundle

structure WebCrypto.Correct {Key Bundle : Type} (C : WebCrypto Key Bundle) : Prop where
  browser : C.browser.Correct
  /-- The tag of AES-GCM. -/
  tagged (key : Key) (iv bytes : Bytes) : C.browser.aesGcmEncrypt key iv bytes ≠ []
  parse_stringify (bundle : Bundle) : C.parse (C.stringify bundle) = some bundle
  noMark (bundle : Bundle) :
    (C.stringify bundle).toList.head? ≠ some Offline.byteOrderMark

structure BackupPayload where
  backup_ciphertext : String
  kdf_salt : String
  kdf_algorithm : String
  kdf_params : Option Json
  bundle_version : Int

variable {Key Bundle : Type} (C : WebCrypto Key Bundle)

/-- `600000`. -/
def defaultIterations : Json := .number (some 600000)

def createEncryptedBackup (salt iv : Bytes) (bundle : Bundle) (passphrase : String) :
    Option BackupPayload :=
  (C.deriveKey (Crypto.utf8 passphrase) salt defaultIterations).map fun key =>
    let ciphertextWithTag := C.browser.aesGcmEncrypt key iv (Crypto.utf8 (C.stringify bundle))
    { backup_ciphertext := Base64.encodeToString (iv ++ ciphertextWithTag)
      kdf_salt := Base64.encodeToString salt
      kdf_algorithm := "pbkdf2_aes256gcm"
      kdf_params := some (.object [("iterations", defaultIterations),
        ("hash", .string "SHA-256"), ("keyLength", .number (some 256))])
      bundle_version := 1 }

/-- The values that `||` passes over. -/
def falsy : Json → Bool
  | .null | .bool false | .number (some 0) | .string "" => true
  | _ => false

/-- `payload.kdf_params?.iterations || 600000`. -/
def iterations (payload : BackupPayload) : Json :=
  match payload.kdf_params.bind fun params => Client.property params "iterations" with
  | some value => if falsy value then defaultIterations else value
  | none => defaultIterations

inductive RestoreError where
  /-- `atob`, the derivation of the key or `JSON.parse` throws. -/
  | thrown
  | error (message : String)
  deriving DecidableEq

def restoreEncryptedBackup (payload : BackupPayload) (passphrase : String) :
    Except RestoreError Bundle :=
  match C.browser.atob payload.kdf_salt, C.browser.atob payload.backup_ciphertext with
  | some salt, some combined =>
    if combined.length < 13 then
      .error (.error "Invalid backup payload: ciphertext too short")
    else
      match C.deriveKey (Crypto.utf8 passphrase) salt (iterations payload) with
      | none => .error .thrown
      | some key =>
        match C.browser.aesGcmDecrypt key (combined.take 12) (combined.drop 12) with
        | none => .error (.error "Incorrect passphrase or corrupted backup ciphertext")
        | some decrypted =>
          match C.parse (C.browser.textDecode decrypted) with
          | none => .error .thrown
          | some bundle => .ok bundle
  | _, _ => .error .thrown

/-- The body of `uploadKeyBackup`, which has no `version`. -/
def BackupPayload.body (payload : BackupPayload) : BackupBody where
  backup_ciphertext := payload.backup_ciphertext
  kdf_salt := payload.kdf_salt
  kdf_algorithm := payload.kdf_algorithm
  kdf_params := payload.kdf_params
  version := 0
  bundle_version := payload.bundle_version

/-- `fetchKeyBackup`, with a missing result where it throws. -/
def fetchKeyBackup : Response → Option (Option BackupPayload)
  | .found _ backup_ciphertext kdf_salt kdf_algorithm kdf_params bundle_version _ =>
    some (some ⟨backup_ciphertext, kdf_salt, kdf_algorithm, some kdf_params, bundle_version⟩)
  | .noBackup => some none
  | _ => none

/-! ## Round trips -/

variable {C} {salt iv : Bytes} {bundle : Bundle} {passphrase : String} {payload : BackupPayload}

theorem created_payload
    (created : createEncryptedBackup C salt iv bundle passphrase = some payload) :
    ∃ key, C.deriveKey (Crypto.utf8 passphrase) salt defaultIterations = some key ∧
      payload.kdf_salt = Base64.encodeToString salt ∧
      payload.backup_ciphertext = Base64.encodeToString
        (iv ++ C.browser.aesGcmEncrypt key iv (Crypto.utf8 (C.stringify bundle))) ∧
      iterations payload = defaultIterations := by
  obtain ⟨key, derived, same⟩ := Option.map_eq_some_iff.mp created
  cases same
  exact ⟨key, derived, rfl, rfl, rfl⟩

/-- A backup restores with its passphrase. -/
theorem restore_created (correct : C.Correct) (length : iv.length = 12)
    (created : createEncryptedBackup C salt iv bundle passphrase = some payload) :
    restoreEncryptedBackup C payload passphrase = .ok bundle := by
  obtain ⟨key, derived, salted, combined, rounds⟩ := created_payload created
  have long : ¬ (iv ++ C.browser.aesGcmEncrypt key iv
      (Crypto.utf8 (C.stringify bundle))).length < 13 := by
    have tag := List.length_pos_iff.mpr
      (correct.tagged key iv (Crypto.utf8 (C.stringify bundle)))
    rw [List.length_append]
    omega
  unfold restoreEncryptedBackup
  rw [salted, combined, correct.browser.atob_btoa, correct.browser.atob_btoa]
  dsimp only
  rw [if_neg long, rounds, derived]
  dsimp only
  rw [← length, List.take_left, List.drop_left, correct.browser.decrypt_encrypt]
  dsimp only
  rw [correct.browser.decode_encode _ (correct.noMark bundle), correct.parse_stringify]

theorem decodeSome_encodeToString (bytes : Bytes) :
    Auth.Linking.decodeSome (Base64.encodeToString bytes) =
      if bytes ≠ [] then some bytes else none := by
  unfold Auth.Linking.decodeSome
  dsimp only
  rw [Base64.decodeString_encodeToString]
  simp

theorem eq_of_decodeSome {bytes decoded : Bytes}
    (h : Auth.Linking.decodeSome (Base64.encodeToString bytes) = some decoded) :
    decoded = bytes := by
  rw [decodeSome_encodeToString] at h
  split at h <;> cases h
  rfl

theorem version_fits : ¬ (Auth.Database.maxInteger : Int) < 1 := by decide

variable {parseUUID : String → Option UUID} {s : Backups} {u : UUID}

/-- The server gives back what it has saved. -/
theorem fetch_saved {now now' : Nat} {o o' : Outcome} {es : List Event}
    (created : createEncryptedBackup C salt iv bundle passphrase = some payload)
    (saved : (s.post u now o (some payload.body)).1 = .saved u)
    (others : ∀ e ∈ es, ¬ e.Writes parseUUID u) :
    let answer := (((s.post u now o (some payload.body)).2.run parseUUID es).get u now' o').1
    (∃ retryAfter, answer = .tooManyRequests retryAfter) ∨
      answer = .refused ⟨"failed to fetch key backup", 500⟩ ∨
      fetchKeyBackup answer = some (some payload) := by
  obtain ⟨ciphertext, salt', row, decoded, salted, written, there⟩ := saved_post saved
  rw [← lookup_run others] at there
  refine (answer_get there).imp id (.imp id fun found => ?_)
  rw [found]
  obtain ⟨key, -, same⟩ := Option.map_eq_some_iff.mp created
  cases same
  cases eq_of_decodeSome decoded
  cases eq_of_decodeSome salted
  unfold BackupBody.row at written
  split at written
  · rename_i big
    exact absurd big version_fits
  · cases written
    rfl

/-- After an upload that was saved, and any other requests but uploads and deletions of this user,
a fetch is refused or its result restores to the bundle. -/
theorem restore_after_upload (correct : C.Correct) (length : iv.length = 12)
    (created : createEncryptedBackup C salt iv bundle passphrase = some payload)
    {upload fetch : Event} {es : List Event}
    (uploader : upload.request.userID parseUUID upload.now = .ok u)
    (posted : upload.request.call = .post (some payload.body))
    (saved : (s.backupHandler parseUUID upload).1 = .saved u)
    (others : ∀ e ∈ es, ¬ e.Writes parseUUID u)
    (reader : fetch.request.userID parseUUID fetch.now = .ok u)
    (fetched : fetch.request.call = .get) :
    let answer := (((s.backupHandler parseUUID upload).2.run parseUUID es).backupHandler
      parseUUID fetch).1
    (∃ retryAfter, answer = .tooManyRequests retryAfter) ∨
      answer = .refused ⟨"failed to fetch key backup", 500⟩ ∨
      ∃ restored, fetchKeyBackup answer = some (some restored) ∧
        restoreEncryptedBackup C restored passphrase = .ok bundle := by
  have posting : s.backupHandler parseUUID upload =
      s.post u upload.now upload.outcome (some payload.body) := by
    rw [Backups.backupHandler, uploader, posted]
  have getting (t : Backups) :
      t.backupHandler parseUUID fetch = t.get u fetch.now fetch.outcome := by
    rw [Backups.backupHandler, reader, fetched]
  rw [posting] at saved
  intro answer
  have same : answer = (((s.post u upload.now upload.outcome (some payload.body)).2.run
      parseUUID es).get u fetch.now fetch.outcome).1 := by
    rw [← posting, ← getting]
  rw [same]
  exact (fetch_saved created saved others).imp id
    (.imp id fun found => ⟨payload, found, restore_created correct length created⟩)

/-! ## A backup in between -/

namespace Sample

/-- Bundles are texts, which are written after a bracket. -/
def crypto : WebCrypto UInt8 String where
  browser := Offline.Sample.browser
  deriveKey _ _ _ := some 7
  stringify bundle := "[" ++ bundle
  parse text := some (String.ofList (text.toList.drop 1))

theorem crypto_correct : crypto.Correct where
  browser := Offline.Sample.browser_correct
  tagged _ _ _ := List.cons_ne_nil _ _
  parse_stringify bundle := by simp [crypto]
  noMark bundle := by simp [crypto, Offline.byteOrderMark]

def sampleSalt : Bytes := List.replicate 32 1

def sampleIv : Bytes := List.replicate 12 2

def token (sub : String) : Auth.Token := ⟨⟨sub, "d", 10⟩, true⟩

def textID (text : String) : Option UUID := some ⟨text⟩

def alice : UUID := ⟨"alice"⟩

def sent : BackupPayload :=
  (createEncryptedBackup crypto sampleSalt sampleIv "keys" "secret").getD ⟨"", "", "", none, 0⟩

def uploaded : Event := ⟨0, .ok, ⟨some (token "alice"), .post (some sent.body)⟩⟩

/-- Another user deletes a backup in between. -/
def between : Event := ⟨0, .ok, ⟨some (token "bob"), .delete⟩⟩

def asked : Event := ⟨0, .ok, ⟨some (token "alice"), .get⟩⟩

def nothing : Backups := ⟨∅, .new⟩

theorem created : createEncryptedBackup crypto sampleSalt sampleIv "keys" "secret" = some sent :=
  rfl

theorem uploaded_saved : (nothing.backupHandler textID uploaded).1 = .saved alice := by
  have uploader : uploaded.request.userID textID uploaded.now = .ok alice := rfl
  have ciphertext : Auth.Linking.decodeSome sent.body.backup_ciphertext =
      some (sampleIv ++ crypto.browser.aesGcmEncrypt 7 sampleIv
        (Crypto.utf8 (crypto.stringify "keys"))) :=
    (decodeSome_encodeToString _).trans (if_pos (List.cons_ne_nil _ _))
  have salt : Auth.Linking.decodeSome sent.body.kdf_salt = some sampleSalt :=
    (decodeSome_encodeToString _).trans (if_pos (List.cons_ne_nil _ _))
  rw [Backups.backupHandler, uploader]
  change (nothing.post alice 0 .ok (some sent.body)).1 = .saved alice
  rw [Backups.post, ciphertext]
  dsimp only
  rw [salt]
  rfl

theorem bob_ne_alice : "bob" ≠ "alice" := by decide

theorem between_not_writes : ∀ e ∈ [between], ¬ e.Writes textID alice := by
  intro e mem writes
  rw [List.mem_singleton.mp mem] at writes
  have bob : between.request.userID textID between.now = .ok ⟨"bob"⟩ := rfl
  have same := bob.symm.trans writes.1
  injection same with same
  injection same with same
  exact bob_ne_alice same

end Sample

open Sample in
theorem restore_after_upload_sample :
    let answer := (((nothing.backupHandler textID uploaded).2.run textID
      [between]).backupHandler textID asked).1
    (∃ retryAfter, answer = .tooManyRequests retryAfter) ∨
      answer = .refused ⟨"failed to fetch key backup", 500⟩ ∨
      ∃ restored, fetchKeyBackup answer = some (some restored) ∧
        restoreEncryptedBackup crypto restored "secret" = .ok "keys" :=
  restore_after_upload crypto_correct rfl created rfl rfl uploaded_saved between_not_writes rfl rfl

end GenChat.KeyBackup
