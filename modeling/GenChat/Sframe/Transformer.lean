import GenChat.Crypto.Primitives
import GenChat.Library.Machine

/-!
# SFrame transformers

`SFrameTransformer` of `sframe.rs`. The `hkdf` and `aes-gcm` crates are parameters. Counters are
64-bit words and wrap, as they do in a release build.
-/
namespace GenChat.Sframe
open Crypto Library

structure Primitives where
  /-- `Hkdf::<Sha256>::new(None, secret)` expanded under a label; only lengths beyond `255 * 32`
  bytes fail. -/
  hkdfExpand : Vector UInt8 32 → String → (n : Nat) → Vector UInt8 n
  /-- AES-256-GCM under a key, a nonce and associated data. -/
  encrypt : Vector UInt8 32 → List UInt8 → List UInt8 → List UInt8 → Option (List UInt8)
  decrypt : Vector UInt8 32 → List UInt8 → List UInt8 → List UInt8 → Option (List UInt8)

/-- Whether AES-GCM encrypts depends on the message only: it refuses those that are too long. -/
def Primitives.RefusesByMessage (P : Primitives) : Prop :=
  ∀ key nonce aad key' nonce' aad' msg,
    (P.encrypt key nonce aad msg).isSome = (P.encrypt key' nonce' aad' msg).isSome

structure SFrameTransformer where
  participantKeyId : UInt64
  baseSecret : Vector UInt8 32
  encryptionKey : Vector UInt8 32
  salt : Vector UInt8 12
  sendFrameCounter : UInt64
  /-- The highest counter seen under each key id. -/
  receivedCounters : UInt64 → Option UInt64

/-- `Salt XOR (Counter padded to 12 bytes)`. -/
def frameNonce (salt : Vector UInt8 12) (counter : UInt64) : List UInt8 :=
  salt.toList.take 4 ++ List.zipWith (· ^^^ ·) (salt.toList.drop 4) (toBeBytes 8 counter.toNat)

def frameHeader (keyId counter : UInt64) : List UInt8 :=
  toBeBytes 8 keyId.toNat ++ toBeBytes 8 counter.toNat

/-- `u64::from_be_bytes`. -/
def fromBeBytes (bytes : List UInt8) : UInt64 :=
  UInt64.ofNat (bytes.foldl (fun n b => n * 256 + b.toNat) 0)

namespace SFrameTransformer
variable (P : Primitives)

def new (participantKeyId : UInt64) (baseSecret : Vector UInt8 32) : SFrameTransformer where
  participantKeyId := participantKeyId
  baseSecret := baseSecret
  encryptionKey := P.hkdfExpand baseSecret "SFrame 1.0 Key" 32
  salt := P.hkdfExpand baseSecret "SFrame 1.0 Salt" 12
  sendFrameCounter := 0
  receivedCounters := fun _ => none

def encryptFrame (t : SFrameTransformer) (rawFramePayload : List UInt8) :
    Except CryptoError (List UInt8) × SFrameTransformer :=
  let counter := t.sendFrameCounter
  let t' := { t with sendFrameCounter := counter + 1 }
  let header := frameHeader t.participantKeyId counter
  match P.encrypt t.encryptionKey (frameNonce t.salt counter) header rawFramePayload with
  | none => (.error (.encryptionFailed "aead::Error"), t')
  | some ciphertext => (.ok (header ++ ciphertext), t')

/-- The replay check of `decrypt_frame`. -/
def rejects (t : SFrameTransformer) (keyId counter : UInt64) : Bool :=
  match t.receivedCounters keyId with
  | some highest => counter ≤ highest && counter + 128 < highest
  | none => false

/-- Remember the counter of a frame that has been decrypted. -/
def record (t : SFrameTransformer) (keyId counter : UInt64) : SFrameTransformer :=
  let currentMax := (t.receivedCounters keyId).getD 0
  { t with
    receivedCounters := fun k =>
      if k = keyId then some (if counter > currentMax then counter else currentMax)
      else t.receivedCounters k }

def decryptFrame (t : SFrameTransformer) (encryptedFrame : List UInt8) :
    Except CryptoError (List UInt8) × SFrameTransformer :=
  if encryptedFrame.length < 16 then
    (.error (.decryptionFailed "Frame too short for SFrame header"), t)
  else
    let header := encryptedFrame.take 16
    let ciphertext := encryptedFrame.drop 16
    let keyId := fromBeBytes (header.take 8)
    let counter := fromBeBytes (header.drop 8)
    if t.rejects keyId counter then
      (.error (.decryptionFailed "SFrame replay protection rejected counter"), t)
    else
      match P.decrypt t.encryptionKey (frameNonce t.salt counter) header ciphertext with
      | none => (.error (.decryptionFailed "aead::Error"), t)
      | some plaintext => (.ok plaintext, t.record keyId counter)

end SFrameTransformer

end GenChat.Sframe
