import GenChat.Mls.Tree

/-!
# One member's group state

The functions of `mls.rs` on `MlsGroup`. A method on `&mut self` takes the state and returns the
new one next to its result, so that a failing call keeps the changes made before the failure.
Values drawn from `OsRng` are arguments. `u64` epochs are natural numbers; the `u32` message
generation wraps as in a release build.
-/
namespace GenChat.Mls
open Crypto Library

variable {Block Bytes : Type}

/-- `derive_epoch_secrets`: the next epoch secret and application secret. -/
def deriveEpochSecrets (P : Primitives Block Bytes) (currentEpochSecret : Block) (epoch : Nat)
    (contextTag : String) : Block × Block :=
  let epochInfo : Ikm Block := ⟨none, utf8 contextTag ++ toBeBytes 8 epoch⟩
  let nextEpochSecret := P.hkdf (some currentEpochSecret) epochInfo "genchat_mls_next_epoch"
  let nextAppSecret := P.hkdf none ⟨some nextEpochSecret, []⟩ "genchat_mls_application_secret"
  (nextEpochSecret, nextAppSecret)

structure MlsKeyPackage (Block Bytes : Type) where
  userId : String
  deviceId : String
  identityKey : Block
  hpkePublicKey : Block
  signature : Bytes
  deriving DecidableEq

/-- The message a key package signs: user id, device id and key without separators. -/
def keyPackageMessage (userId deviceId : String) (hpkePublicKey : Block) : SignedMessage Block :=
  ⟨utf8 userId ++ utf8 deviceId, hpkePublicKey⟩

def MlsKeyPackage.new (P : Primitives Block Bytes) (userId deviceId : String)
    (identity : IdentityKeyPair Block) (x25519Kp : X25519KeyPair P) :
    MlsKeyPackage Block Bytes where
  userId := userId
  deviceId := deviceId
  identityKey := identity.publicKeyBytes P
  hpkePublicKey := x25519Kp.pub
  signature := identity.sign P (keyPackageMessage userId deviceId x25519Kp.pub)

def MlsKeyPackage.verify (P : Primitives Block Bytes) (kp : MlsKeyPackage Block Bytes) :
    Except CryptoError Unit :=
  if P.ed25519Verify kp.identityKey
      (keyPackageMessage kp.userId kp.deviceId kp.hpkePublicKey) kp.signature
  then .ok () else .error .invalidSignature

/-- The byte vector `encrypted_group_secrets`: shorter than 32 bytes, or a 32-byte ephemeral
public key followed by a ciphertext. -/
inductive SealedSecrets (Block Bytes : Type) where
  | short (bytes : List UInt8)
  | split (ephPub : Block) (ciphertext : Bytes)
  deriving DecidableEq

structure MlsWelcome (Block Bytes : Type) where
  groupId : String
  epoch : Nat
  encryptedGroupSecrets : SealedSecrets Block Bytes
  tree : TreeKemTree Block
  nonce : List UInt8
  deriving DecidableEq

structure MlsCommit (Block : Type) where
  groupId : String
  epoch : Nat
  senderLeafIndex : Nat
  commitTag : String
  newPathPublicKey : Block
  /-- `[0u8; 32]` in every commit the code emits. -/
  confirmationTag : List UInt8
  deriving DecidableEq

structure MlsCiphertext (Bytes : Type) where
  groupId : String
  epoch : Nat
  senderLeafIndex : Nat
  generation : Nat
  nonce : List UInt8
  ciphertext : Bytes
  deriving DecidableEq

structure MlsGroup (Block : Type) where
  groupId : String
  epoch : Nat
  myLeafIndex : Nat
  myIdentity : IdentityKeyPair Block
  myHpkeSecret : Block
  tree : TreeKemTree Block
  epochSecret : Block
  applicationSecret : Block
  messageGeneration : Nat
  deriving DecidableEq

def zeroTag : List UInt8 := List.replicate 32 0

/-- The key that seals a Welcome. -/
def welcomeKey (P : Primitives Block Bytes) (sharedDh : Block) : Block :=
  P.hkdf none ⟨some sharedDh, []⟩ "MLS Welcome Enc"

namespace MlsGroup
variable (P : Primitives Block Bytes)

def create (groupId userId deviceId : String) (identity : IdentityKeyPair Block)
    (hpkeKeypair : X25519KeyPair P) (initialEpochSecret : Block) : MlsGroup Block :=
  let placed := TreeKemTree.new.addLeaf
    { userId, deviceId, identityKey := identity.publicKeyBytes P,
      publicKey := hpkeKeypair.pub, isBlank := false }
  { groupId
    epoch := 0
    myLeafIndex := placed.2
    myIdentity := identity
    myHpkeSecret := hpkeKeypair.secret
    tree := placed.1
    epochSecret := initialEpochSecret
    applicationSecret := (deriveEpochSecrets P initialEpochSecret 0 "init").2
    messageGeneration := 0 }

/-- The last lines of `add_member`, `remove_member` and `apply_commit`. -/
def advance (g : MlsGroup Block) (nextEpoch : Nat) (secrets : Block × Block) : MlsGroup Block :=
  { g with
    epoch := nextEpoch
    epochSecret := secrets.1
    applicationSecret := secrets.2
    messageGeneration := 0 }

/-- What `add_member` draws from `OsRng`: an ephemeral X25519 secret, a nonce, a path key. -/
structure AddRandomness (Block : Type) where
  ephSecret : Block
  nonce : List UInt8
  pathSecret : Block
  deriving DecidableEq

def leafOf (kp : MlsKeyPackage Block Bytes) : MlsLeafNode Block :=
  { userId := kp.userId, deviceId := kp.deviceId, identityKey := kp.identityKey,
    publicKey := kp.hpkePublicKey, isBlank := false }

/-- Serialise and encrypt the group secrets for the new member's HPKE key. -/
def sealSecrets (hpkePublicKey : Block) (payload : WelcomePayload Block)
    (rng : AddRandomness Block) : Except CryptoError (SealedSecrets Block Bytes) :=
  let ephPub := P.x25519Public rng.ephSecret
  let encKey := welcomeKey P (P.diffieHellman rng.ephSecret hpkePublicKey)
  match P.toVec payload with
  | .error e => .error (.serializationError e)
  | .ok serializedPayload =>
    match P.aesGcmEncrypt encKey rng.nonce (P.text "") serializedPayload with
    | .error e => .error (.encryptionFailed e)
    | .ok encrypted => .ok (.split ephPub encrypted)

def commitOf (g : MlsGroup Block) (nextEpoch : Nat) (tag : String) (pathSecret : Block) :
    MlsCommit Block :=
  { groupId := g.groupId, epoch := nextEpoch, senderLeafIndex := g.myLeafIndex,
    commitTag := tag, newPathPublicKey := (X25519KeyPair.generate P pathSecret).pub,
    confirmationTag := zeroTag }

def addMember (g : MlsGroup Block) (kp : MlsKeyPackage Block Bytes) (rng : AddRandomness Block) :
    Except CryptoError (MlsWelcome Block Bytes × MlsCommit Block) × MlsGroup Block :=
  match kp.verify P with
  | .error e => (.error e, g)
  | .ok () =>
    let placed := g.tree.addLeaf (leafOf kp)
    -- `self.tree` already holds the new leaf when a later step fails.
    let g := { g with tree := placed.1 }
    let nextEpoch := g.epoch + 1
    let secrets := deriveEpochSecrets P g.epochSecret nextEpoch "add_member"
    let payload : WelcomePayload Block :=
      { epoch := nextEpoch, myLeafIdx := placed.2,
        epochSecret := secrets.1, applicationSecret := secrets.2 }
    match sealSecrets P kp.hpkePublicKey payload rng with
    | .error e => (.error e, g)
    | .ok fullEncrypted =>
      let welcome : MlsWelcome Block Bytes :=
        { groupId := g.groupId, epoch := nextEpoch, encryptedGroupSecrets := fullEncrypted,
          tree := g.tree, nonce := rng.nonce }
      (.ok (welcome, commitOf P g nextEpoch "add_member" rng.pathSecret),
        g.advance nextEpoch secrets)

def fromWelcome (welcome : MlsWelcome Block Bytes) (identity : IdentityKeyPair Block)
    (myHpkeSecret : Block) : Except CryptoError (MlsGroup Block) :=
  match welcome.encryptedGroupSecrets with
  | .short _ => .error (.decryptionFailed "Welcome payload too short")
  | .split ephPub ciphertext =>
    let encKey := welcomeKey P (P.diffieHellman myHpkeSecret ephPub)
    match P.aesGcmDecrypt encKey welcome.nonce (P.text "") ciphertext with
    | .error e => .error (.decryptionFailed e)
    | .ok plaintext =>
      match P.fromSlice plaintext with
      | .error e => .error (.serializationError e)
      | .ok payload => .ok
          { groupId := welcome.groupId
            epoch := payload.epoch
            myLeafIndex := payload.myLeafIdx
            myIdentity := identity
            myHpkeSecret := myHpkeSecret
            tree := welcome.tree
            epochSecret := payload.epochSecret
            applicationSecret := payload.applicationSecret
            messageGeneration := 0 }

/-- The context tag a receiver uses; an empty tag stands for `add_member`. -/
def contextTag (commit : MlsCommit Block) : String :=
  if commit.commitTag = "" then "add_member" else commit.commitTag

def applyCommit (g : MlsGroup Block) (commit : MlsCommit Block) :
    Except CryptoError Unit × MlsGroup Block :=
  if commit.epoch ≠ g.epoch + 1 then
    (.error (.invalidEpoch (g.epoch + 1) commit.epoch), g)
  else
    (.ok (), g.advance commit.epoch
      (deriveEpochSecrets P g.epochSecret commit.epoch (contextTag commit)))

/-- Alias of `applyCommit`. -/
def processCommit (g : MlsGroup Block) (commit : MlsCommit Block) :
    Except CryptoError Unit × MlsGroup Block := g.applyCommit P commit

def removeMember (g : MlsGroup Block) (userId : String) (pathSecret : Block) :
    Except CryptoError (MlsCommit Block) × MlsGroup Block :=
  match g.tree.findLeafByUser userId with
  | none => (.error (.memberNotFound userId), g)
  | some leafIdx =>
    let g := { g with tree := g.tree.blankLeaf leafIdx }
    let nextEpoch := g.epoch + 1
    let secrets := deriveEpochSecrets P g.epochSecret nextEpoch "remove_member"
    (.ok (commitOf P g nextEpoch "remove_member" pathSecret), g.advance nextEpoch secrets)

/-- The per-generation message key of `encrypt_message` and `decrypt_message`. -/
def messageKey (applicationSecret : Block) (generation : Nat) : Block :=
  P.hkdf none ⟨some applicationSecret, toBeBytes 4 generation⟩ "MLS App Msg Key"

/-- 4 bytes sender leaf index (`as u32` truncates), 8 bytes generation. -/
def messageNonce (leafIndex generation : Nat) : List UInt8 :=
  toBeBytes 4 leafIndex ++ toBeBytes 8 generation

def messageAd (groupId : String) (epoch generation : Nat) : Bytes :=
  P.text (groupId ++ ":" ++ toString epoch ++ ":" ++ toString generation)

def encryptMessage (g : MlsGroup Block) (plaintext : Bytes) :
    Except CryptoError (MlsCiphertext Bytes) × MlsGroup Block :=
  let gen := g.messageGeneration
  let g := { g with messageGeneration := (gen + 1) % 2 ^ 32 }
  let nonce := messageNonce g.myLeafIndex gen
  match P.aesGcmEncrypt (messageKey P g.applicationSecret gen) nonce
      (messageAd P g.groupId g.epoch gen) plaintext with
  | .error e => (.error (.encryptionFailed e), g)
  | .ok ciphertext =>
    (.ok { groupId := g.groupId, epoch := g.epoch, senderLeafIndex := g.myLeafIndex,
           generation := gen, nonce, ciphertext }, g)

def decryptMessage (g : MlsGroup Block) (msg : MlsCiphertext Bytes) : Except CryptoError Bytes :=
  if msg.groupId ≠ g.groupId then .error (.decryptionFailed "Mismatched group ID")
  else if msg.epoch ≠ g.epoch then .error (.invalidEpoch g.epoch msg.epoch)
  else
    match P.aesGcmDecrypt (messageKey P g.applicationSecret msg.generation)
        (messageNonce msg.senderLeafIndex msg.generation)
        (messageAd P g.groupId g.epoch msg.generation) msg.ciphertext with
    | .error e => .error (.decryptionFailed e)
    | .ok plaintext => .ok plaintext

/-! ## One specification per function -/

section Specification
variable {P}

/-- A failing `addMember` changes at most the tree, and that only when the sealing fails. -/
theorem addMember_error {g : MlsGroup Block} {kp : MlsKeyPackage Block Bytes}
    {rng : AddRandomness Block} {e : CryptoError} (h : (g.addMember P kp rng).1 = .error e) :
    ∃ tree, (g.addMember P kp rng).2 = { g with tree := tree } ∧
      (tree = g.tree ∨ ∃ payload, sealSecrets P kp.hpkePublicKey payload rng = .error e) := by
  unfold addMember at h ⊢
  cases verified : kp.verify P with
  | error _ => exact ⟨g.tree, rfl, .inl rfl⟩
  | ok _ =>
    simp only [verified] at h ⊢
    split at h
    · rename_i failed
      cases h
      exact ⟨_, rfl, .inr ⟨_, failed⟩⟩
    · cases h

/-- A successful `addMember`: the package verified, the secrets of the next epoch were sealed for
its key, and the sender moved on to that epoch with the new leaf in its tree. -/
theorem addMember_ok {g : MlsGroup Block} {kp : MlsKeyPackage Block Bytes}
    {rng : AddRandomness Block} {w : MlsWelcome Block Bytes} {c : MlsCommit Block}
    (h : (g.addMember P kp rng).1 = .ok (w, c)) :
    let secrets := deriveEpochSecrets P g.epochSecret (g.epoch + 1) "add_member"
    let tree := (g.tree.addLeaf (leafOf kp)).1
    (∃ sealedSecrets, sealSecrets P kp.hpkePublicKey
        ⟨g.epoch + 1, g.tree.nextIndex, secrets.1, secrets.2⟩ rng = .ok sealedSecrets ∧
        w = ⟨g.groupId, g.epoch + 1, sealedSecrets, tree, rng.nonce⟩) ∧
      c = commitOf P { g with tree := tree } (g.epoch + 1) "add_member" rng.pathSecret ∧
      (g.addMember P kp rng).2 = { g with tree := tree }.advance (g.epoch + 1) secrets := by
  unfold addMember at h ⊢
  cases verified : kp.verify P with
  | error _ => simp [verified] at h
  | ok _ =>
    simp only [verified, TreeKemTree.addLeaf_snd] at h ⊢
    split at h
    · cases h
    · rename_i sealed_eq
      cases h
      exact ⟨⟨_, sealed_eq, rfl⟩, rfl, rfl⟩

/-- The holder of the recipient key opens what was sealed for it. -/
theorem fromWelcome_sealed (hP : P.Correct) {pub sk : Block} (own : P.x25519Public sk = pub)
    {payload : WelcomePayload Block} {rng : AddRandomness Block}
    {sealedSecrets : SealedSecrets Block Bytes}
    (h : sealSecrets P pub payload rng = .ok sealedSecrets) (groupId : String) (epoch : Nat)
    (tree : TreeKemTree Block) (identity : IdentityKeyPair Block) :
    fromWelcome P ⟨groupId, epoch, sealedSecrets, tree, rng.nonce⟩ identity sk = .ok
      ⟨groupId, payload.epoch, payload.myLeafIdx, identity, sk, tree, payload.epochSecret,
        payload.applicationSecret, 0⟩ := by
  subst own
  unfold sealSecrets at h
  cases serialised : P.toVec payload with
  | error _ => simp [serialised] at h
  | ok bytes =>
    simp only [serialised] at h
    split at h
    · cases h
    · rename_i encrypted ct
      cases h
      have opened := hP.decrypt_encrypt _ _ _ _ _ ct
      rw [hP.diffieHellman_comm rng.ephSecret sk] at opened
      simp only [fromWelcome]
      rw [opened]
      simp [hP.fromSlice_toVec _ _ serialised]

theorem sealSecrets_total (seals : P.Seals) (pub : Block) (payload : WelcomePayload Block)
    (rng : AddRandomness Block) :
    ∃ sealedSecrets, sealSecrets P pub payload rng = .ok sealedSecrets := by
  obtain ⟨bytes, serialised⟩ := seals.toVec_ok payload
  obtain ⟨ct, encrypted⟩ := seals.encrypt_ok (welcomeKey P (P.diffieHellman rng.ephSecret pub))
    rng.nonce (P.text "") payload bytes serialised
  exact ⟨_, by simp [sealSecrets, serialised, encrypted]; rfl⟩

theorem fromWelcome_ok {welcome : MlsWelcome Block Bytes} {identity : IdentityKeyPair Block}
    {sk : Block} {g : MlsGroup Block} (h : fromWelcome P welcome identity sk = .ok g) :
    g.tree = welcome.tree ∧ g.messageGeneration = 0 := by
  unfold fromWelcome at h
  split at h
  · cases h
  · dsimp only at h
    split at h
    · cases h
    · split at h
      · cases h
      · cases h
        exact ⟨rfl, rfl⟩

theorem applyCommit_eq {g : MlsGroup Block} {c : MlsCommit Block} (h : c.epoch = g.epoch + 1) :
    g.applyCommit P c = (.ok (), g.advance (g.epoch + 1)
      (deriveEpochSecrets P g.epochSecret (g.epoch + 1) (contextTag c))) := by
  simp [applyCommit, h]

theorem removeMember_error {g : MlsGroup Block} {userId : String} {pathSecret : Block}
    {e : CryptoError} (h : (g.removeMember P userId pathSecret).1 = .error e) :
    (g.removeMember P userId pathSecret).2 = g := by
  unfold removeMember at h ⊢
  cases found : g.tree.findLeafByUser userId with
  | none => rfl
  | some idx => simp [found] at h

theorem removeMember_ok {g : MlsGroup Block} {userId : String} {pathSecret : Block}
    {c : MlsCommit Block} (h : (g.removeMember P userId pathSecret).1 = .ok c) :
    ∃ idx, g.tree.findLeafByUser userId = some idx ∧
      c = commitOf P { g with tree := g.tree.blankLeaf idx } (g.epoch + 1) "remove_member"
        pathSecret ∧
      (g.removeMember P userId pathSecret).2 =
        { g with tree := g.tree.blankLeaf idx }.advance (g.epoch + 1)
          (deriveEpochSecrets P g.epochSecret (g.epoch + 1) "remove_member") := by
  unfold removeMember at h ⊢
  cases found : g.tree.findLeafByUser userId with
  | none => simp [found] at h
  | some idx =>
    simp only [found] at h ⊢
    cases h
    exact ⟨idx, rfl, rfl, rfl⟩

theorem encryptMessage_snd (g : MlsGroup Block) (plaintext : Bytes) :
    (g.encryptMessage P plaintext).2 =
      { g with messageGeneration := (g.messageGeneration + 1) % 2 ^ 32 } := by
  unfold encryptMessage
  dsimp only
  split <;> rfl

end Specification

end MlsGroup
end GenChat.Mls
