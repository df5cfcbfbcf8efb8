import GenChat.Pqxdh.Agreement

/-!
# What a session secret says about identities

The initiator checks two signatures, over the signed and the PQ pre-key. The X25519 identity key and
the one-time key of a bundle enter the secret unchecked. The Ed25519 identity keys enter the
associated data only, which the WASM functions drop, so the secret of a received handshake does not
depend on who the sender claims to be.
-/
namespace GenChat.Pqxdh
open Crypto

variable {Block Bytes : Type} (P : Primitives Block Bytes)

/-- The initiator goes on with this bundle. -/
def Accepts (alice : IdentityKeyPair Block) (aliceX ephemeral : X25519KeyPair Block)
    (random : Block) (bundle : PreKeyBundle Block Bytes) : Prop :=
  ∃ r, initiatePqxdh P alice aliceX bundle ephemeral random = .ok r

/-- The public keys that enter the secret. -/
structure EnteringKeys (Block Bytes : Type) where
  identityKeyX25519 : Block
  signedPreKey : Block
  pqPreKey : Bytes
  oneTimePreKey : Option Block

def PreKeyBundle.enteringKeys (bundle : PreKeyBundle Block Bytes) : EnteringKeys Block Bytes where
  identityKeyX25519 := bundle.identityKeyX25519
  signedPreKey := bundle.signedPreKey.publicKey
  pqPreKey := bundle.pqPreKey.publicKey
  oneTimePreKey := bundle.oneTimePreKey.map OneTimePreKey.publicKey

/-- The identity key and what it has signed determine the keys that enter the secret: no other
bundle with the same signed parts is accepted. -/
def Authenticated (alice : IdentityKeyPair Block) (aliceX ephemeral : X25519KeyPair Block)
    (random : Block) (bundle : PreKeyBundle Block Bytes) : Prop :=
  ∀ other, Accepts P alice aliceX ephemeral random other →
    other.identityKey = bundle.identityKey → other.signedPreKey = bundle.signedPreKey →
    other.pqPreKey = bundle.pqPreKey → other.enteringKeys = bundle.enteringKeys

/-- Another claimed sender leads to another result. -/
def BindsSender (receiver : WasmIdentityBundle Block Bytes)
    (m : WasmPqxdhInitMessage Block Bytes) : Prop :=
  ∀ m', m'.senderIdentityKeyHex ≠ m.senderIdentityKeyHex →
    receivePqxdhHandshake P receiver m' ≠ receivePqxdhHandshake P receiver m

variable {P} {alice : IdentityKeyPair Block} {aliceX ephemeral : X25519KeyPair Block}
  {random : Block} {bundle : PreKeyBundle Block Bytes}

/-- Exchanging the unsigned keys of a bundle does not affect its acceptance. -/
theorem Accepts.exchange (h : Accepts P alice aliceX ephemeral random bundle) (x : Block)
    (otk : Option (OneTimePreKey Block)) : Accepts P alice aliceX ephemeral random
      { bundle with identityKeyX25519 := x, oneTimePreKey := otk } := by
  obtain ⟨r, init⟩ := h
  unfold Accepts initiatePqxdh at *
  split at init
  · cases init
  · rename_i accepted
    have same : ¬ ¬ PreKeyBundle.verified P
        { bundle with identityKeyX25519 := x, oneTimePreKey := otk } = true := accepted
    rw [if_neg same]
    dsimp only at init ⊢
    split at init
    · cases init
    · rename_i sealed
      simp

/-- The result of a handshake is a function of the message without its claimed sender. -/
theorem receive_ignores_sender (receiver : WasmIdentityBundle Block Bytes)
    (m : WasmPqxdhInitMessage Block Bytes) (k k' : Block) :
    receivePqxdhHandshake P receiver { m with senderIdentityKeyHex := .ok k } =
      receivePqxdhHandshake P receiver { m with senderIdentityKeyHex := .ok k' } := by
  have secret (ed : IdentityKeyPair Block) (x spk : X25519KeyPair Block) (pq : PqKeyPair Bytes)
      (otk : Option (X25519KeyPair Block)) (n : PqxdhInitMessage Block Bytes) (s : Block) :
      ((respondPqxdh P ed x spk pq otk { n with senderIdentityKey := s }).mapError
          JsError.crypto >>= fun d => .ok d.sharedSecret) =
        (respondPqxdh P ed x spk pq otk n).mapError JsError.crypto >>= fun d =>
          .ok d.sharedSecret := by
    simp only [respondPqxdh]
    cases pq.decapsulate P n.pqCiphertext <;> rfl
  unfold receivePqxdhHandshake
  refine bind_congr fun ed => bind_congr fun x => bind_congr fun spk => bind_congr fun ek =>
    bind_congr fun dk => ?_
  change (m.senderIdentityKeyX25519Hex >>= fun aliceXPub => _) =
    (m.senderIdentityKeyX25519Hex >>= fun aliceXPub => _)
  exact bind_congr fun aliceXPub => bind_congr fun ephemPub => bind_congr fun pqCt =>
    secret _ _ _ _ _ ⟨k', aliceXPub, ephemPub, pqCt, m.usedSignedPreKeyId, m.usedPqPreKeyId,
      m.usedOneTimeKeyId⟩ k

/-- No accepted bundle is authenticated as a whole, and no receiver tells senders apart. -/
theorem identities_not_bound [Nontrivial Block] (P : Primitives Block Bytes) :
    (∀ alice aliceX ephemeral random bundle, Accepts P alice aliceX ephemeral random bundle →
      ¬ Authenticated P alice aliceX ephemeral random bundle) ∧
    ∀ receiver m k, m.senderIdentityKeyHex = .ok k → ¬ BindsSender P receiver m := by
  constructor
  · intro alice aliceX ephemeral random bundle accepted authenticated
    obtain ⟨x, other⟩ := exists_ne bundle.identityKeyX25519
    have same := authenticated _ (accepted.exchange x bundle.oneTimePreKey) rfl rfl rfl
    exact other (congrArg EnteringKeys.identityKeyX25519 same)
  · intro receiver m k sender binds
    obtain ⟨k', other⟩ := exists_ne k
    refine binds { m with senderIdentityKeyHex := .ok k' } ?_ ?_
    · rw [sender]
      exact fun same => other (Except.ok.inj same)
    · rw [receive_ignores_sender receiver m k' k, ← sender]

/-! ## Mallory over the symbolic primitives -/

section Sample
open Pqxdh.Symbolic

instance : Nontrivial Term := ⟨.nil, .absent, by decide⟩

theorem identities_not_bound_sample :
    (∀ alice aliceX ephemeral random bundle,
      Accepts symbolic alice aliceX ephemeral random bundle →
        ¬ Authenticated symbolic alice aliceX ephemeral random bundle) ∧
    ∀ receiver m k, m.senderIdentityKeyHex = .ok k → ¬ BindsSender symbolic receiver m :=
  identities_not_bound symbolic

/-- Bob's bundle with an X25519 identity key of Mallory's. -/
def sampleForged : PreKeyBundle Term Data :=
  { sampleBundle with identityKeyX25519 := symbolic.x25519Public (.atom 99) }

/-- Alice's message with Mallory's name on it. -/
def sampleRenamed : WasmPqxdhInitMessage Term Data :=
  { sampleHandshakeResult.initMessage with
    senderIdentityKeyHex := .ok (symbolic.ed25519Public (.atom 99)) }

/-- Alice accepts a bundle whose X25519 identity key is Mallory's, and Bob derives one secret from
two messages that name different senders. -/
theorem forged_identities_accepted :
    (Accepts symbolic ⟨.atom 0⟩ ⟨.atom 1⟩ ⟨.atom 2⟩ (.atom 3) sampleBundle ∧
      ¬ Authenticated symbolic ⟨.atom 0⟩ ⟨.atom 1⟩ ⟨.atom 2⟩ (.atom 3) sampleBundle) ∧
    ¬ BindsSender symbolic (sampleBob.identityBundle symbolic)
      sampleHandshakeResult.initMessage := by
  refine ⟨⟨⟨sampleInitResult, by rfl⟩, fun authenticated => ?_⟩, fun binds => ?_⟩
  · have forged : ∃ r, initiatePqxdh symbolic ⟨.atom 0⟩ ⟨.atom 1⟩ sampleForged ⟨.atom 2⟩
        (.atom 3) = .ok r := ⟨_, by rfl⟩
    have same := authenticated sampleForged forged rfl rfl rfl
    exact absurd (congrArg EnteringKeys.identityKeyX25519 same) (by decide)
  · refine binds sampleRenamed ?_ (by rfl)
    intro same
    exact absurd (Except.ok.inj same) (by decide)

end Sample

end GenChat.Pqxdh
