import GenChat.Crypto.Primitives

/-!
# The PQXDH handshake

`keys.rs` and `pqxdh.rs`, and the WASM functions over them. The primitives are parameters: `Block`
stands for `[u8; 32]` and `Bytes` for byte vectors (ML-KEM keys and ciphertexts, signatures). Every
random value is an argument. A hexadecimal text field is kept as what decoding makes of it, an error
for a text that does not decode.
-/
namespace GenChat.Pqxdh
open Crypto

structure Primitives (Block Bytes : Type) where
  ed25519Public : Block → Block
  ed25519Sign : Block → Bytes → Bytes
  /-- Parsing the key, parsing the signature and checking, each of which may fail. -/
  ed25519Verify : Block → Bytes → Bytes → Bool
  x25519Public : Block → Block
  diffieHellman : Block → Block → Block
  /-- `MlKem768::generate`: the encapsulation key and the decapsulation key. -/
  kemGenerate : Block → Bytes × Bytes
  encapsulate : Bytes → Block → Option (Bytes × Block)
  decapsulate : Bytes → Bytes → Option Block
  /-- `Hkdf::<Sha512>` with the zero salt, over concatenated blocks, expanded to 32 bytes. -/
  hkdfSha512 : List Block → String → Block
  /-- `[0xFF; 32]`. -/
  domainSeparator : Block
  /-- A block as a byte slice. -/
  slice : Block → Bytes
  length : Bytes → Nat

variable {Block Bytes : Type} (P : Primitives Block Bytes)

/-! ## Keys -/

/-- `X25519KeyPair`; its public half is a function of the secret. -/
structure X25519KeyPair (Block : Type) where
  secret : Block
  deriving DecidableEq

def X25519KeyPair.publicKeyBytes (k : X25519KeyPair Block) : Block := P.x25519Public k.secret

def X25519KeyPair.diffieHellman (k : X25519KeyPair Block) (theirPublic : Block) : Block :=
  P.diffieHellman k.secret theirPublic

/-- `IdentityKeyPair::public_key_bytes`. -/
def identityPublic (k : IdentityKeyPair Block) : Block := P.ed25519Public k.signingKey

/-- `IdentityKeyPair::sign`. -/
def identitySign (k : IdentityKeyPair Block) (message : Bytes) : Bytes :=
  P.ed25519Sign k.signingKey message

structure PqKeyPair (Bytes : Type) where
  encapsulationKeyBytes : Bytes
  decapsulationKeyBytes : Bytes
  deriving DecidableEq

def PqKeyPair.generate (random : Block) : PqKeyPair Bytes :=
  ⟨(P.kemGenerate random).1, (P.kemGenerate random).2⟩

def encapsulateWith (encapsulationKeyBytes : Bytes) (random : Block) :
    Except CryptoError (Bytes × Block) :=
  if P.length encapsulationKeyBytes ≠ 1184 then
    .error (.invalidKeyLength 1184 (P.length encapsulationKeyBytes))
  else
    match P.encapsulate encapsulationKeyBytes random with
    | none => .error .kemEncapsulationFailed
    | some r => .ok r

def PqKeyPair.decapsulate (k : PqKeyPair Bytes) (ciphertext : Bytes) : Except CryptoError Block :=
  if P.length k.decapsulationKeyBytes ≠ 2400 then .error .kemDecapsulationFailed
  else if P.length ciphertext ≠ 1088 then .error (.invalidKeyLength 1088 (P.length ciphertext))
  else
    match P.decapsulate k.decapsulationKeyBytes ciphertext with
    | none => .error .kemDecapsulationFailed
    | some ss => .ok ss

structure SignedPreKey (Block Bytes : Type) where
  keyId : UInt32
  publicKey : Block
  signature : Bytes
  deriving DecidableEq

structure PqPreKey (Bytes : Type) where
  keyId : UInt32
  publicKey : Bytes
  signature : Bytes
  deriving DecidableEq

structure OneTimePreKey (Block : Type) where
  keyId : UInt32
  publicKey : Block
  deriving DecidableEq

structure PreKeyBundle (Block Bytes : Type) where
  identityKey : Block
  identityKeyX25519 : Block
  signedPreKey : SignedPreKey Block Bytes
  pqPreKey : PqPreKey Bytes
  oneTimePreKey : Option (OneTimePreKey Block)
  deriving DecidableEq

/-! ## Both sides -/

structure PqxdhInitMessage (Block Bytes : Type) where
  senderIdentityKey : Block
  senderIdentityKeyX25519 : Block
  ephemeralKey : Block
  pqCiphertext : Bytes
  usedSignedPreKeyId : UInt32
  usedPqPreKeyId : UInt32
  usedOneTimeKeyId : Option UInt32
  deriving DecidableEq

/-- The secret with the associated data, the two identity keys. -/
structure Derived (Block : Type) where
  sharedSecret : Block
  associatedData : List Block
  deriving DecidableEq

structure PqxdhInitResult (Block Bytes : Type) where
  derived : Derived Block
  initMessage : PqxdhInitMessage Block Bytes
  deriving DecidableEq

def deriveSharedSecret (dhResults : List Block) (pqSharedSecret aliceIdentity bobIdentity : Block) :
    Derived Block :=
  let km := dhResults ++ [pqSharedSecret]
  let ikm := P.domainSeparator :: km
  ⟨P.hkdfSha512 ikm "PQXDH_X25519_SHA-512_ML-KEM-768", [aliceIdentity, bobIdentity]⟩

/-- The two signatures under the identity key that `initiate_pqxdh` checks. -/
def PreKeyBundle.verified (bundle : PreKeyBundle Block Bytes) : Bool :=
  P.ed25519Verify bundle.identityKey (P.slice bundle.signedPreKey.publicKey)
      bundle.signedPreKey.signature &&
    P.ed25519Verify bundle.identityKey bundle.pqPreKey.publicKey bundle.pqPreKey.signature

/-- `initiate_pqxdh` with its ephemeral key pair and the randomness of the encapsulation. -/
def initiatePqxdh (aliceIdentity : IdentityKeyPair Block)
    (aliceX25519Identity : X25519KeyPair Block) (bobBundle : PreKeyBundle Block Bytes)
    (ephemeral : X25519KeyPair Block) (random : Block) :
    Except CryptoError (PqxdhInitResult Block Bytes) :=
  if ¬ bobBundle.verified P then .error .invalidSignature
  else
    let dh1 := aliceX25519Identity.diffieHellman P bobBundle.signedPreKey.publicKey
    let dh2 := ephemeral.diffieHellman P bobBundle.identityKeyX25519
    let dh3 := ephemeral.diffieHellman P bobBundle.signedPreKey.publicKey
    let dh4 := bobBundle.oneTimePreKey.map fun opk => ephemeral.diffieHellman P opk.publicKey
    match encapsulateWith P bobBundle.pqPreKey.publicKey random with
    | .error e => .error e
    | .ok (pqCiphertext, pqSharedSecret) =>
      .ok
        { derived := deriveSharedSecret P ([dh1, dh2, dh3] ++ dh4.toList) pqSharedSecret
            (identityPublic P aliceIdentity) bobBundle.identityKey
          initMessage :=
            { senderIdentityKey := identityPublic P aliceIdentity
              senderIdentityKeyX25519 := aliceX25519Identity.publicKeyBytes P
              ephemeralKey := ephemeral.publicKeyBytes P
              pqCiphertext
              usedSignedPreKeyId := bobBundle.signedPreKey.keyId
              usedPqPreKeyId := bobBundle.pqPreKey.keyId
              usedOneTimeKeyId := bobBundle.oneTimePreKey.map OneTimePreKey.keyId } }

def respondPqxdh (bobIdentity : IdentityKeyPair Block) (bobX25519Identity : X25519KeyPair Block)
    (bobSignedPreKey : X25519KeyPair Block) (bobPqKeyPair : PqKeyPair Bytes)
    (bobOneTimeKey : Option (X25519KeyPair Block)) (initMsg : PqxdhInitMessage Block Bytes) :
    Except CryptoError (Derived Block) :=
  let dh1 := bobSignedPreKey.diffieHellman P initMsg.senderIdentityKeyX25519
  let dh2 := bobX25519Identity.diffieHellman P initMsg.ephemeralKey
  let dh3 := bobSignedPreKey.diffieHellman P initMsg.ephemeralKey
  let dh4 := bobOneTimeKey.map fun opk => opk.diffieHellman P initMsg.ephemeralKey
  match bobPqKeyPair.decapsulate P initMsg.pqCiphertext with
  | .error e => .error e
  | .ok pqSharedSecret =>
    .ok (deriveSharedSecret P ([dh1, dh2, dh3] ++ dh4.toList) pqSharedSecret
      initMsg.senderIdentityKey (identityPublic P bobIdentity))

/-! ## The WASM functions -/

/-- The errors of the wrapper, which leave it as texts. -/
inductive JsError where
  | invalidHex
  | wrongLength (got : Nat)
  | crypto (e : CryptoError)
  deriving DecidableEq

/-- A hexadecimal text, as what `decode_32_hex` or `hex::decode` makes of it. -/
abbrev HexText (α : Type) := Except JsError α

structure WasmSignedPreKey (Block Bytes : Type) where
  keyId : UInt32
  publicKeyHex : HexText Block
  privateKeyHex : HexText Block
  signatureHex : HexText Bytes

structure WasmPqPreKey (Bytes : Type) where
  keyId : UInt32
  publicKeyHex : HexText Bytes
  decapsulationKeyHex : HexText Bytes
  signatureHex : HexText Bytes

structure WasmOneTimePreKey (Block : Type) where
  keyId : UInt32
  publicKeyHex : HexText Block
  privateKeyHex : HexText Block

structure WasmIdentityBundle (Block Bytes : Type) where
  identityKeyEd25519PubHex : HexText Block
  identityKeyEd25519PrivHex : HexText Block
  identityKeyX25519PubHex : HexText Block
  identityKeyX25519PrivHex : HexText Block
  signedPreKey : WasmSignedPreKey Block Bytes
  pqPreKey : WasmPqPreKey Bytes
  oneTimePreKeys : List (WasmOneTimePreKey Block)

structure WasmOneTimePublicKey (Block : Type) where
  keyId : UInt32
  publicKeyHex : HexText Block

structure WasmPublicPreKeyBundle (Block Bytes : Type) where
  identityKeyHex : HexText Block
  identityKeyX25519Hex : HexText Block
  signedPreKeyId : UInt32
  signedPreKeyPublicHex : HexText Block
  signedPreKeySignatureHex : HexText Bytes
  pqPreKeyId : UInt32
  pqPreKeyPublicHex : HexText Bytes
  pqPreKeySignatureHex : HexText Bytes
  oneTimePreKeys : List (WasmOneTimePublicKey Block)

structure WasmPqxdhInitMessage (Block Bytes : Type) where
  senderIdentityKeyHex : HexText Block
  senderIdentityKeyX25519Hex : HexText Block
  ephemeralKeyHex : HexText Block
  pqCiphertextHex : HexText Bytes
  usedSignedPreKeyId : UInt32
  usedPqPreKeyId : UInt32
  usedOneTimeKeyId : Option UInt32

structure WasmHandshakeInitResult (Block Bytes : Type) where
  sharedSecretHex : HexText Block
  initMessage : WasmPqxdhInitMessage Block Bytes

/-- The random values of `generate_pqxdh_keys`. -/
structure KeySeeds (Block : Type) where
  identity : Block
  identityX25519 : Block
  signedPreKey : Block
  pqPreKey : Block
  oneTimePreKeys : List Block

/-- The private half of `generate_pqxdh_keys`. One-time keys are numbered from 1. -/
def KeySeeds.identityBundle (seeds : KeySeeds Block) : WasmIdentityBundle Block Bytes where
  identityKeyEd25519PubHex := .ok (identityPublic P ⟨seeds.identity⟩)
  identityKeyEd25519PrivHex := .ok seeds.identity
  identityKeyX25519PubHex := .ok (P.x25519Public seeds.identityX25519)
  identityKeyX25519PrivHex := .ok seeds.identityX25519
  signedPreKey :=
    { keyId := 1
      publicKeyHex := .ok (P.x25519Public seeds.signedPreKey)
      privateKeyHex := .ok seeds.signedPreKey
      signatureHex :=
        .ok (identitySign P ⟨seeds.identity⟩ (P.slice (P.x25519Public seeds.signedPreKey))) }
  pqPreKey :=
    { keyId := 1
      publicKeyHex := .ok (P.kemGenerate seeds.pqPreKey).1
      decapsulationKeyHex := .ok (P.kemGenerate seeds.pqPreKey).2
      signatureHex := .ok (identitySign P ⟨seeds.identity⟩ (P.kemGenerate seeds.pqPreKey).1) }
  oneTimePreKeys := seeds.oneTimePreKeys.mapIdx fun i otk =>
    { keyId := UInt32.ofNat (i + 1), publicKeyHex := .ok (P.x25519Public otk),
      privateKeyHex := .ok otk }

/-- The public half of `generate_pqxdh_keys`. -/
def KeySeeds.publicBundle (seeds : KeySeeds Block) : WasmPublicPreKeyBundle Block Bytes where
  identityKeyHex := .ok (identityPublic P ⟨seeds.identity⟩)
  identityKeyX25519Hex := .ok (P.x25519Public seeds.identityX25519)
  signedPreKeyId := 1
  signedPreKeyPublicHex := .ok (P.x25519Public seeds.signedPreKey)
  signedPreKeySignatureHex :=
    .ok (identitySign P ⟨seeds.identity⟩ (P.slice (P.x25519Public seeds.signedPreKey)))
  pqPreKeyId := 1
  pqPreKeyPublicHex := .ok (P.kemGenerate seeds.pqPreKey).1
  pqPreKeySignatureHex :=
    .ok (identitySign P ⟨seeds.identity⟩ (P.kemGenerate seeds.pqPreKey).1)
  oneTimePreKeys := seeds.oneTimePreKeys.mapIdx fun i otk =>
    { keyId := UInt32.ofNat (i + 1), publicKeyHex := .ok (P.x25519Public otk) }

/-- `hex::decode(..).unwrap_or_default()`. -/
def orDefault (empty : Bytes) : HexText Bytes → Bytes
  | .ok bytes => bytes
  | .error _ => empty

/-- The bundle `initiate_pqxdh_handshake` builds; `empty` is the empty byte vector. -/
def WasmPublicPreKeyBundle.toBundle (empty : Bytes) (bob : WasmPublicPreKeyBundle Block Bytes) :
    Except JsError (PreKeyBundle Block Bytes) := do
  let bobEdPub ← bob.identityKeyHex
  let bobXPub ← bob.identityKeyX25519Hex
  let bobSpkPub ← bob.signedPreKeyPublicHex
  let bobOtk ← match bob.oneTimePreKeys.head? with
    | some otk => otk.publicKeyHex.map fun otkPub => some ⟨otk.keyId, otkPub⟩
    | none => .ok none
  return {
    identityKey := bobEdPub
    identityKeyX25519 := bobXPub
    signedPreKey := ⟨bob.signedPreKeyId, bobSpkPub, orDefault empty bob.signedPreKeySignatureHex⟩
    pqPreKey := ⟨bob.pqPreKeyId, orDefault empty bob.pqPreKeyPublicHex,
      orDefault empty bob.pqPreKeySignatureHex⟩
    oneTimePreKey := bobOtk }

/-- A message as the texts that encode it. -/
def PqxdhInitMessage.toWasm (m : PqxdhInitMessage Block Bytes) :
    WasmPqxdhInitMessage Block Bytes where
  senderIdentityKeyHex := .ok m.senderIdentityKey
  senderIdentityKeyX25519Hex := .ok m.senderIdentityKeyX25519
  ephemeralKeyHex := .ok m.ephemeralKey
  pqCiphertextHex := .ok m.pqCiphertext
  usedSignedPreKeyId := m.usedSignedPreKeyId
  usedPqPreKeyId := m.usedPqPreKeyId
  usedOneTimeKeyId := m.usedOneTimeKeyId

def initiatePqxdhHandshake (empty : Bytes) (alice : WasmIdentityBundle Block Bytes)
    (bob : WasmPublicPreKeyBundle Block Bytes) (ephemeral : X25519KeyPair Block) (random : Block) :
    Except JsError (WasmHandshakeInitResult Block Bytes) := do
  let aliceEdPriv ← alice.identityKeyEd25519PrivHex
  let aliceXPriv ← alice.identityKeyX25519PrivHex
  let prekeyBundle ← bob.toBundle empty
  let result ← (initiatePqxdh P ⟨aliceEdPriv⟩ ⟨aliceXPriv⟩ prekeyBundle ephemeral random).mapError
    .crypto
  return ⟨.ok result.derived.sharedSecret, result.initMessage.toWasm⟩

/-- The one-time key pair a message names, if the bundle has its private half. -/
def WasmIdentityBundle.oneTimeKeyPair (bob : WasmIdentityBundle Block Bytes) (otkId : UInt32) :
    Option (X25519KeyPair Block) :=
  (bob.oneTimePreKeys.find? fun k => k.keyId = otkId).bind fun k =>
    k.privateKeyHex.toOption.map X25519KeyPair.mk

def receivePqxdhHandshake (bob : WasmIdentityBundle Block Bytes)
    (initMsg : WasmPqxdhInitMessage Block Bytes) : Except JsError Block := do
  let bobEdPriv ← bob.identityKeyEd25519PrivHex
  let bobXPriv ← bob.identityKeyX25519PrivHex
  let bobSpkPriv ← bob.signedPreKey.privateKeyHex
  let bobPqPub ← bob.pqPreKey.publicKeyHex
  let bobPqDecaps ← bob.pqPreKey.decapsulationKeyHex
  let bobOtkKeypair := initMsg.usedOneTimeKeyId.bind bob.oneTimeKeyPair
  let aliceEdPub ← initMsg.senderIdentityKeyHex
  let aliceXPub ← initMsg.senderIdentityKeyX25519Hex
  let ephemPub ← initMsg.ephemeralKeyHex
  let pqCt ← initMsg.pqCiphertextHex
  let nativeInitMsg : PqxdhInitMessage Block Bytes :=
    { senderIdentityKey := aliceEdPub
      senderIdentityKeyX25519 := aliceXPub
      ephemeralKey := ephemPub
      pqCiphertext := pqCt
      usedSignedPreKeyId := initMsg.usedSignedPreKeyId
      usedPqPreKeyId := initMsg.usedPqPreKeyId
      usedOneTimeKeyId := initMsg.usedOneTimeKeyId }
  let result ← (respondPqxdh P ⟨bobEdPriv⟩ ⟨bobXPriv⟩ ⟨bobSpkPriv⟩ ⟨bobPqPub, bobPqDecaps⟩
    bobOtkKeypair nativeInitMsg).mapError .crypto
  return result.sharedSecret

end GenChat.Pqxdh
