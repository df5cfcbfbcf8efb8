import GenChat.Library.Bytes

/-!
# The primitives under the Rust crypto crate

`genchat-crypto` gets its primitives from third-party crates (`hkdf`, `aes-gcm`, `x25519-dalek`,
`ed25519-dalek`, `serde_json`). They are parameters here: `Block` stands for the 32-byte arrays
`[u8; 32]` (secrets, private and public keys), `Bytes` for plaintexts, ciphertexts and signatures.
What a proof needs of them is a named hypothesis: `Correct` (decryption inverts encryption, both
ends of a Diffie-Hellman exchange agree), `Seals` (Welcome secrets are small enough to encrypt),
`HkdfIdeal` (HKDF has no collisions), `Authentic` and `AeadIdeal` (nothing decrypts that was not
encrypted) or `SignaturesIdeal` (a signature belongs to one message).
-/
namespace GenChat.Crypto
open Library

/-- `error.rs`. -/
inductive CryptoError where
  | invalidSignature
  | invalidKeyLength (expected got : Nat)
  | kemEncapsulationFailed
  | kemDecapsulationFailed
  | hkdfError
  | sessionNotInitialized
  | decryptionFailed (reason : String)
  | encryptionFailed (reason : String)
  | invalidEpoch (expected got : Nat)
  | memberNotFound (userId : String)
  | serializationError (reason : String)
  | vodozemacError (reason : String)
  deriving DecidableEq, Repr

/-- `as_bytes` of a string: its UTF-8 encoding. -/
def utf8 (s : String) : List UInt8 := s.toUTF8.data.toList

/-- Input keying material: an optional 32-byte secret followed by plain bytes. Under one HKDF
info label the shape is always the same. -/
structure Ikm (Block : Type) where
  secret : Option Block
  bytes : List UInt8
  deriving DecidableEq

/-- The bytes an Ed25519 signature covers: plain bytes followed by a 32-byte key. -/
structure SignedMessage (Block : Type) where
  bytes : List UInt8
  key : Block
  deriving DecidableEq

/-- The secrets a Welcome carries, in the JSON object of `add_member` and `from_welcome`. -/
structure WelcomePayload (Block : Type) where
  epoch : Nat
  myLeafIdx : Nat
  epochSecret : Block
  applicationSecret : Block
  deriving DecidableEq

structure Primitives (Block Bytes : Type) where
  /-- `Hkdf::<Sha256>::new(salt, ikm)` expanded to 32 bytes under an info label. `expand` fails
  only beyond `255 * 32` bytes, so the 32-byte expansions of this crate always succeed. -/
  hkdf : Option Block → Ikm Block → String → Block
  ed25519Public : Block → Block
  ed25519Sign : Block → SignedMessage Block → Bytes
  /-- Parsing the signature, parsing the key and checking, each of which may fail. -/
  ed25519Verify : Block → SignedMessage Block → Bytes → Bool
  x25519Public : Block → Block
  diffieHellman : Block → Block → Block
  /-- AES-256-GCM under a key, a 12-byte nonce and associated data. -/
  aesGcmEncrypt : Block → List UInt8 → Bytes → Bytes → Except String Bytes
  aesGcmDecrypt : Block → List UInt8 → Bytes → Bytes → Except String Bytes
  toVec : WelcomePayload Block → Except String Bytes
  fromSlice : Bytes → Except String (WelcomePayload Block)
  /-- A byte string written as text. -/
  text : String → Bytes

variable {Block Bytes : Type}

/-- What the crates promise to an honest sender and receiver. -/
structure Primitives.Correct (P : Primitives Block Bytes) : Prop where
  diffieHellman_comm : ∀ a b,
    P.diffieHellman a (P.x25519Public b) = P.diffieHellman b (P.x25519Public a)
  decrypt_encrypt : ∀ key nonce aad msg ct,
    P.aesGcmEncrypt key nonce aad msg = .ok ct → P.aesGcmDecrypt key nonce aad ct = .ok msg
  fromSlice_toVec : ∀ payload bytes, P.toVec payload = .ok bytes → P.fromSlice bytes = .ok payload

/-- Serialising a Welcome payload and encrypting it never fail. -/
structure Primitives.Seals (P : Primitives Block Bytes) : Prop where
  toVec_ok : ∀ payload, ∃ bytes, P.toVec payload = .ok bytes
  encrypt_ok : ∀ key nonce aad payload bytes, P.toVec payload = .ok bytes →
    ∃ ct, P.aesGcmEncrypt key nonce aad bytes = .ok ct

/-- HKDF as an ideal function: equal outputs come from equal inputs. -/
def Primitives.HkdfIdeal (P : Primitives Block Bytes) : Prop :=
  ∀ salt ikm info salt' ikm' info', P.hkdf salt ikm info = P.hkdf salt' ikm' info' →
    salt = salt' ∧ ikm = ikm' ∧ info = info'

/-- What AES-GCM decrypts was encrypted under the same key, nonce and associated data. -/
def Primitives.Authentic (P : Primitives Block Bytes) : Prop :=
  ∀ key nonce aad ct msg, P.aesGcmDecrypt key nonce aad ct = .ok msg →
    P.aesGcmEncrypt key nonce aad msg = .ok ct

/-- The inputs of an AES-GCM encryption. -/
structure Sealing (Block Bytes : Type) where
  key : Block
  nonce : List UInt8
  aad : Bytes
  msg : Bytes
  deriving DecidableEq

def Sealing.encrypt (P : Primitives Block Bytes) (s : Sealing Block Bytes) : Except String Bytes :=
  P.aesGcmEncrypt s.key s.nonce s.aad s.msg

/-- AES-GCM as an ideal cipher once these encryptions have been made: their ciphertexts decrypt,
each under its own key, nonce and associated data, and nothing else does. -/
structure Primitives.AeadIdeal (P : Primitives Block Bytes) (made : List (Sealing Block Bytes)) :
    Prop where
  decrypt_iff : ∀ key nonce aad ct msg, P.aesGcmDecrypt key nonce aad ct = .ok msg ↔
    ⟨key, nonce, aad, msg⟩ ∈ made ∧ P.aesGcmEncrypt key nonce aad msg = .ok ct
  distinct : ∀ s ∈ made, ∀ s' ∈ made, ∀ ct, s.encrypt P = .ok ct → s'.encrypt P = .ok ct → s = s'

/-- Ed25519 as an ideal signature: under one key, a signature belongs to one message. -/
def Primitives.SignaturesIdeal (P : Primitives Block Bytes) : Prop :=
  ∀ key message message' sig, P.ed25519Verify key message sig = true →
    P.ed25519Verify key message' sig = true → message = message'

/-- `IdentityKeyPair` of `keys.rs`; its verifying key is a function of the signing key. -/
structure IdentityKeyPair (Block : Type) where
  signingKey : Block
  deriving DecidableEq

def IdentityKeyPair.publicKeyBytes (P : Primitives Block Bytes) (k : IdentityKeyPair Block) :
    Block := P.ed25519Public k.signingKey

def IdentityKeyPair.sign (P : Primitives Block Bytes) (k : IdentityKeyPair Block)
    (message : SignedMessage Block) : Bytes := P.ed25519Sign k.signingKey message

/-- `X25519KeyPair` of `keys.rs`: every constructor computes the public half from the secret. -/
structure X25519KeyPair (P : Primitives Block Bytes) where
  secret : Block
  pub : Block
  pub_eq : pub = P.x25519Public secret

def X25519KeyPair.generate (P : Primitives Block Bytes) (random : Block) : X25519KeyPair P :=
  ⟨random, P.x25519Public random, rfl⟩

end GenChat.Crypto
