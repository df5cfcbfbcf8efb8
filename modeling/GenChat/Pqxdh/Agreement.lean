import GenChat.Pqxdh.Symbolic

/-!
# Both sides of a handshake derive one secret

`pqxdh_agreement` is about `initiate_pqxdh` and `respond_pqxdh` with the keys of one bundle. The
WASM function `receive_pqxdh_handshake` does not look at the ids of the signed and the PQ pre-key,
and goes on without a one-time key that it cannot find. It then returns a secret of its own, and
`receive_sound` says when.
-/
namespace GenChat.Pqxdh
open Crypto

variable {Block Bytes : Type} (P : Primitives Block Bytes)

/-- The bundle of Bob's keys, signed by him. -/
def honestBundle (identity : IdentityKeyPair Block) (identityX25519 : X25519KeyPair Block)
    (signedPreKey : X25519KeyPair Block) (pqPreKey : PqKeyPair Bytes)
    (oneTimePreKey : Option (UInt32 × X25519KeyPair Block)) (spkId pqId : UInt32) :
    PreKeyBundle Block Bytes where
  identityKey := identityPublic P identity
  identityKeyX25519 := identityX25519.publicKeyBytes P
  signedPreKey := ⟨spkId, signedPreKey.publicKeyBytes P,
    identitySign P identity (P.slice (signedPreKey.publicKeyBytes P))⟩
  pqPreKey := ⟨pqId, pqPreKey.encapsulationKeyBytes,
    identitySign P identity pqPreKey.encapsulationKeyBytes⟩
  oneTimePreKey := oneTimePreKey.map fun k => ⟨k.1, k.2.publicKeyBytes P⟩

variable {P} {alice bob : IdentityKeyPair Block}
  {aliceX bobX bobSpk ephemeral : X25519KeyPair Block}
  {bundle : PreKeyBundle Block Bytes} {random seed : Block} {r : PqxdhInitResult Block Bytes}

/-- What Alice feeds into the key derivation, up to the PQ secret. -/
def initiatorDhs (P : Primitives Block Bytes) (aliceX ephemeral : X25519KeyPair Block)
    (bundle : PreKeyBundle Block Bytes) : List Block :=
  [aliceX.diffieHellman P bundle.signedPreKey.publicKey,
    ephemeral.diffieHellman P bundle.identityKeyX25519,
    ephemeral.diffieHellman P bundle.signedPreKey.publicKey] ++
  (bundle.oneTimePreKey.map fun opk => ephemeral.diffieHellman P opk.publicKey).toList

/-- The message Alice sends. -/
def initiatorMessage (P : Primitives Block Bytes) (alice : IdentityKeyPair Block)
    (aliceX ephemeral : X25519KeyPair Block) (bundle : PreKeyBundle Block Bytes)
    (pqCiphertext : Bytes) : PqxdhInitMessage Block Bytes where
  senderIdentityKey := identityPublic P alice
  senderIdentityKeyX25519 := aliceX.publicKeyBytes P
  ephemeralKey := ephemeral.publicKeyBytes P
  pqCiphertext := pqCiphertext
  usedSignedPreKeyId := bundle.signedPreKey.keyId
  usedPqPreKeyId := bundle.pqPreKey.keyId
  usedOneTimeKeyId := bundle.oneTimePreKey.map OneTimePreKey.keyId

theorem encapsulateWith_ok {ek ct : Bytes} {ss : Block}
    (h : encapsulateWith P ek random = .ok (ct, ss)) : P.encapsulate ek random = some (ct, ss) := by
  unfold encapsulateWith at h
  split at h
  · cases h
  · split at h
    · cases h
    · rename_i r found
      rw [found, Except.ok.inj h]

theorem initiatePqxdh_ok (h : initiatePqxdh P alice aliceX bundle ephemeral random = .ok r) :
    bundle.verified P ∧ ∃ ct ss, P.encapsulate bundle.pqPreKey.publicKey random = some (ct, ss) ∧
      r.derived = deriveSharedSecret P (initiatorDhs P aliceX ephemeral bundle) ss
        (identityPublic P alice) bundle.identityKey ∧
      r.initMessage = initiatorMessage P alice aliceX ephemeral bundle ct := by
  unfold initiatePqxdh at h
  split at h
  · cases h
  · rename_i accepted
    dsimp only at h
    split at h
    · cases h
    · rename_i ct ss sealed
      cases h
      exact ⟨not_not.mp accepted, ct, ss, encapsulateWith_ok sealed, rfl, rfl⟩

theorem PqKeyPair.decapsulate_ok (hP : P.Correct) {k : PqKeyPair Bytes} {ek ct : Bytes} {ss : Block}
    (own : P.kemGenerate seed = (ek, k.decapsulationKeyBytes))
    (sealed : P.encapsulate ek random = some (ct, ss)) : k.decapsulate P ct = .ok ss := by
  have long := hP.decapsulationKey_length seed
  have opened := hP.decapsulate_encapsulate seed random ct ss
  rw [own] at long opened
  simp [PqKeyPair.decapsulate, long, hP.ciphertext_length _ _ _ _ sealed, opened sealed]

/-- The holder of the private halves of a bundle derives what the initiator derived. -/
theorem pqxdh_agreement (hP : P.Correct) (seed : Block)
    (oneTimePreKey : Option (UInt32 × X25519KeyPair Block)) (spkId pqId : UInt32)
    (init : initiatePqxdh P alice aliceX
      (honestBundle P bob bobX bobSpk (.generate P seed) oneTimePreKey spkId pqId)
      ephemeral random = .ok r) :
    respondPqxdh P bob bobX bobSpk (.generate P seed) (oneTimePreKey.map Prod.snd) r.initMessage =
      .ok r.derived := by
  obtain ⟨-, ct, ss, sealed, derived, message⟩ := initiatePqxdh_ok init
  have opened : (PqKeyPair.generate P seed).decapsulate P ct = .ok ss :=
    PqKeyPair.decapsulate_ok hP rfl sealed
  have comm (k k' : X25519KeyPair Block) : k.diffieHellman P (k'.publicKeyBytes P) =
      k'.diffieHellman P (k.publicKeyBytes P) := hP.diffieHellman_comm _ _
  rw [derived, message]
  simp only [respondPqxdh, initiatorMessage, opened, initiatorDhs, honestBundle, Option.map_map,
    Function.comp_def, comm _ ephemeral, comm bobSpk aliceX]

/-! ## Receiving a message -/

variable {receiver sender : WasmIdentityBundle Block Bytes}
  {published : WasmPublicPreKeyBundle Block Bytes} {empty : Bytes}
  {out : WasmHandshakeInitResult Block Bytes}

/-- The private key texts of the bundle decode to keys of the right lengths. -/
def Readable (P : Primitives Block Bytes) (receiver : WasmIdentityBundle Block Bytes) : Prop :=
  (∃ k, receiver.identityKeyEd25519PrivHex = .ok k) ∧
    (∃ k, receiver.identityKeyX25519PrivHex = .ok k) ∧
    (∃ k, receiver.signedPreKey.privateKeyHex = .ok k) ∧
    (∃ k, receiver.pqPreKey.publicKeyHex = .ok k) ∧
    ∃ k, receiver.pqPreKey.decapsulationKeyHex = .ok k ∧ P.length k = 2400

/-- The receiver has the private halves of the keys in the bundle, and has them in the places where
`receive_pqxdh_handshake` looks for them. -/
structure HoldsKeys (P : Primitives Block Bytes) (receiver : WasmIdentityBundle Block Bytes)
    (bundle : PreKeyBundle Block Bytes) : Prop where
  identityX25519 : ∃ k, receiver.identityKeyX25519PrivHex = .ok k ∧
    P.x25519Public k = bundle.identityKeyX25519
  signedPreKey : ∃ k, receiver.signedPreKey.privateKeyHex = .ok k ∧
    P.x25519Public k = bundle.signedPreKey.publicKey
  pqPreKey : ∃ seed k, receiver.pqPreKey.decapsulationKeyHex = .ok k ∧
    P.kemGenerate seed = (bundle.pqPreKey.publicKey, k)
  oneTimePreKey : ∀ opk ∈ bundle.oneTimePreKey, ∃ k, receiver.oneTimeKeyPair opk.keyId = some k ∧
    k.publicKeyBytes P = opk.publicKey

/-- Every key of the bundle is the public half of some key pair. -/
structure HonestKeys (P : Primitives Block Bytes) (bundle : PreKeyBundle Block Bytes) : Prop where
  identityX25519 : ∃ k, bundle.identityKeyX25519 = P.x25519Public k
  signedPreKey : ∃ k, bundle.signedPreKey.publicKey = P.x25519Public k
  pqPreKey : ∃ seed, bundle.pqPreKey.publicKey = (P.kemGenerate seed).1
  oneTimePreKey : ∀ opk ∈ bundle.oneTimePreKey, ∃ k, opk.publicKey = P.x25519Public k

theorem bind_ok {α β ε : Type} {x : Except ε α} {f : α → Except ε β} {b : β} :
    (x >>= f) = .ok b ↔ ∃ a, x = .ok a ∧ f a = .ok b := by
  cases x with
  | error e => exact ⟨nofun, fun ⟨_, h, _⟩ => nomatch h⟩
  | ok a => exact ⟨fun h => ⟨a, rfl, h⟩, fun ⟨_, h, h'⟩ => by cases h; exact h'⟩

theorem mapError_ok {α ε ε' : Type} {x : Except ε α} {f : ε → ε'} {a : α} :
    x.mapError f = .ok a ↔ x = .ok a := by
  cases x <;> simp [Except.mapError]

theorem initiatePqxdhHandshake_ok
    (h : initiatePqxdhHandshake P empty sender published ephemeral random = .ok out) :
    ∃ ed x bundle r, sender.identityKeyEd25519PrivHex = .ok ed ∧
      sender.identityKeyX25519PrivHex = .ok x ∧ published.toBundle empty = .ok bundle ∧
      initiatePqxdh P ⟨ed⟩ ⟨x⟩ bundle ephemeral random = .ok r ∧
      out = ⟨.ok r.derived.sharedSecret, r.initMessage.toWasm⟩ := by
  obtain ⟨ed, hed, h⟩ := bind_ok.mp h
  obtain ⟨x, hx, h⟩ := bind_ok.mp h
  obtain ⟨bundle, hb, h⟩ := bind_ok.mp h
  obtain ⟨r, hr, h⟩ := bind_ok.mp h
  exact ⟨ed, x, bundle, r, hed, hx, hb, mapError_ok.mp hr, (Except.ok.inj h).symm⟩

/-- What the receiver derives from a well-formed message. -/
theorem receive_ok_iff {m : PqxdhInitMessage Block Bytes} {s : Block} :
    receivePqxdhHandshake P receiver m.toWasm = .ok s ↔
      ∃ ed x spk ek dk d, receiver.identityKeyEd25519PrivHex = .ok ed ∧
        receiver.identityKeyX25519PrivHex = .ok x ∧ receiver.signedPreKey.privateKeyHex = .ok spk ∧
        receiver.pqPreKey.publicKeyHex = .ok ek ∧ receiver.pqPreKey.decapsulationKeyHex = .ok dk ∧
        respondPqxdh P ⟨ed⟩ ⟨x⟩ ⟨spk⟩ ⟨ek, dk⟩ (m.usedOneTimeKeyId.bind receiver.oneTimeKeyPair) m =
          .ok d ∧ s = d.sharedSecret := by
  constructor
  · intro h
    obtain ⟨ed, hed, h⟩ := bind_ok.mp h
    obtain ⟨x, hx, h⟩ := bind_ok.mp h
    obtain ⟨spk, hspk, h⟩ := bind_ok.mp h
    obtain ⟨ek, hek, h⟩ := bind_ok.mp h
    obtain ⟨dk, hdk, h⟩ := bind_ok.mp h
    change ((respondPqxdh P ⟨ed⟩ ⟨x⟩ ⟨spk⟩ ⟨ek, dk⟩
      (m.usedOneTimeKeyId.bind receiver.oneTimeKeyPair) m).mapError JsError.crypto >>= fun d =>
        .ok d.sharedSecret) = .ok s at h
    obtain ⟨d, hd, h⟩ := bind_ok.mp h
    exact ⟨ed, x, spk, ek, dk, d, hed, hx, hspk, hek, hdk, mapError_ok.mp hd,
      (Except.ok.inj h).symm⟩
  · rintro ⟨ed, x, spk, ek, dk, d, hed, hx, hspk, hek, hdk, hd, rfl⟩
    simp only [receivePqxdhHandshake, hed, hx, hspk, hek, hdk]
    change ((respondPqxdh P ⟨ed⟩ ⟨x⟩ ⟨spk⟩ ⟨ek, dk⟩
      (m.usedOneTimeKeyId.bind receiver.oneTimeKeyPair) m).mapError JsError.crypto >>= fun d =>
        .ok d.sharedSecret) = .ok d.sharedSecret
    exact bind_ok.mpr ⟨d, mapError_ok.mpr hd, rfl⟩

/-- What the receiver feeds into the key derivation, up to the PQ secret. -/
def responderDhs (P : Primitives Block Bytes) (x spk : X25519KeyPair Block)
    (otk : Option (X25519KeyPair Block)) (m : PqxdhInitMessage Block Bytes) : List Block :=
  [spk.diffieHellman P m.senderIdentityKeyX25519, x.diffieHellman P m.ephemeralKey,
    spk.diffieHellman P m.ephemeralKey] ++
  (otk.map fun k => k.diffieHellman P m.ephemeralKey).toList

theorem respondPqxdh_ok {ed : IdentityKeyPair Block} {x spk : X25519KeyPair Block}
    {pq : PqKeyPair Bytes} {otk : Option (X25519KeyPair Block)} {m : PqxdhInitMessage Block Bytes}
    {d : Derived Block} : respondPqxdh P ed x spk pq otk m = .ok d ↔
      ∃ ss, pq.decapsulate P m.pqCiphertext = .ok ss ∧
        d = deriveSharedSecret P (responderDhs P x spk otk m) ss m.senderIdentityKey
          (identityPublic P ed) := by
  unfold respondPqxdh
  cases pq.decapsulate P m.pqCiphertext with
  | error e => simp
  | ok ss => simp [responderDhs, eq_comm]

theorem decapsulate_eq_ok {pq : PqKeyPair Bytes} {ct : Bytes} {ss : Block} :
    pq.decapsulate P ct = .ok ss ↔ P.length pq.decapsulationKeyBytes = 2400 ∧
      P.length ct = 1088 ∧ P.decapsulate pq.decapsulationKeyBytes ct = some ss := by
  unfold PqKeyPair.decapsulate
  split
  · simp_all
  · split
    · simp_all
    · split <;> simp_all

/-- The one-time key pair the receiver uses fits the one-time key of the bundle. -/
def FitsOneTime (P : Primitives Block Bytes) (otk : Option (X25519KeyPair Block))
    (bundle : PreKeyBundle Block Bytes) : Prop :=
  otk.map (X25519KeyPair.publicKeyBytes P) = bundle.oneTimePreKey.map OneTimePreKey.publicKey

section Exchanges
variable {x spk : X25519KeyPair Block} {otk : Option (X25519KeyPair Block)} {ct : Bytes}

/-- With the private halves the receiver computes the exchanges of the initiator. -/
theorem responderDhs_eq (hP : P.Correct) (ownX : x.publicKeyBytes P = bundle.identityKeyX25519)
    (ownSpk : spk.publicKeyBytes P = bundle.signedPreKey.publicKey)
    (ownOtk : FitsOneTime P otk bundle) :
    responderDhs P x spk otk (initiatorMessage P alice aliceX ephemeral bundle ct) =
      initiatorDhs P aliceX ephemeral bundle := by
  have comm (k k' : X25519KeyPair Block) : k.diffieHellman P (k'.publicKeyBytes P) =
      k'.diffieHellman P (k.publicKeyBytes P) := hP.diffieHellman_comm _ _
  simp only [responderDhs, initiatorDhs, initiatorMessage, ← ownX, ← ownSpk, comm _ ephemeral,
    comm spk aliceX]
  unfold FitsOneTime at ownOtk
  cases otk with
  | none => simp [Option.map_eq_none_iff.mp ownOtk.symm]
  | some k =>
    obtain ⟨opk, found, own⟩ := Option.map_eq_some_iff.mp ownOtk.symm
    simp [found, own]

/-- With other keys in the place of honest ones some exchange comes out differently. -/
theorem fits_of_responderDhs_eq (hP : P.Correct) (ideal : P.Ideal) (honest : HonestKeys P bundle)
    (same : responderDhs P x spk otk (initiatorMessage P alice aliceX ephemeral bundle ct) =
      initiatorDhs P aliceX ephemeral bundle) :
    x.publicKeyBytes P = bundle.identityKeyX25519 ∧
      spk.publicKeyBytes P = bundle.signedPreKey.publicKey ∧ FitsOneTime P otk bundle := by
  have meets {k e : X25519KeyPair Block} {theirs : Block} (own : ∃ k, theirs = P.x25519Public k)
      (h : k.diffieHellman P (e.publicKeyBytes P) = e.diffieHellman P theirs) :
      k.publicKeyBytes P = theirs := by
    obtain ⟨k', rfl⟩ := own
    rw [X25519KeyPair.diffieHellman, X25519KeyPair.publicKeyBytes, hP.diffieHellman_comm] at h
    exact ideal.diffieHellman_inj _ _ _ h
  simp only [responderDhs, initiatorDhs, initiatorMessage, List.cons_append, List.nil_append,
    List.cons.injEq] at same
  obtain ⟨-, two, three, four⟩ := same
  refine ⟨meets honest.identityX25519 two, meets honest.signedPreKey three, ?_⟩
  unfold FitsOneTime
  cases otk with
  | none =>
    cases opk : bundle.oneTimePreKey with
    | none => rfl
    | some opk' => simp [opk] at four
  | some k =>
    cases opk : bundle.oneTimePreKey with
    | none => simp [opk] at four
    | some opk' =>
      simp only [opk, Option.map_some, Option.toList_some, List.cons.injEq, and_true] at four
      simp [meets (honest.oneTimePreKey opk' opk) four]

end Exchanges

theorem HoldsKeys.fitsOneTime (h : HoldsKeys P receiver bundle) :
    FitsOneTime P ((bundle.oneTimePreKey.map OneTimePreKey.keyId).bind receiver.oneTimeKeyPair)
      bundle := by
  unfold FitsOneTime
  cases opk : bundle.oneTimePreKey with
  | none => rfl
  | some k =>
    obtain ⟨pair, found, own⟩ := h.oneTimePreKey k opk
    simp [found, own]

/-- The receiver can end up with another secret only where it lacks the keys of the bundle; with
honest keys it then does. -/
theorem receive_sound (hP : P.Correct) (ideal : P.Ideal)
    (sent : initiatePqxdhHandshake P empty sender published ephemeral random = .ok out)
    (bundled : published.toBundle empty = .ok bundle) :
    let sound := ∀ s, receivePqxdhHandshake P receiver out.initMessage = .ok s →
      out.sharedSecretHex = .ok s
    ((Readable P receiver → HoldsKeys P receiver bundle) → sound) ∧
      (HonestKeys P bundle → sound → Readable P receiver → HoldsKeys P receiver bundle) := by
  intro sound
  obtain ⟨aliceEd, aliceX, b, r, -, -, hb, init, rfl⟩ := initiatePqxdhHandshake_ok sent
  cases bundled.symm.trans hb
  obtain ⟨-, ct, ss, sealed, derived, message⟩ := initiatePqxdh_ok init
  simp only [sound, derived, message]
  constructor
  · intro holds s received
    obtain ⟨ed, x, spk, ek, dk, d, hed, hx, hspk, hek, hdk, hd, rfl⟩ := receive_ok_iff.mp received
    obtain ⟨ss', opened, rfl⟩ := respondPqxdh_ok.mp hd
    have long := (decapsulate_eq_ok.mp opened).1
    have held := holds ⟨⟨ed, hed⟩, ⟨x, hx⟩, ⟨spk, hspk⟩, ⟨ek, hek⟩, dk, hdk, long⟩
    obtain ⟨x', hx', ownX⟩ := held.identityX25519
    obtain ⟨spk', hspk', ownSpk⟩ := held.signedPreKey
    obtain ⟨seed, dk', hdk', ownPq⟩ := held.pqPreKey
    cases hx.symm.trans hx'
    cases hspk.symm.trans hspk'
    cases hdk.symm.trans hdk'
    have secrets : ss' = ss := by
      have right : PqKeyPair.decapsulate P ⟨ek, dk⟩ ct = .ok ss :=
        PqKeyPair.decapsulate_ok hP ownPq sealed
      exact Except.ok.inj (opened.symm.trans right)
    have exchanges : responderDhs P ⟨x⟩ ⟨spk⟩
        ((bundle.oneTimePreKey.map OneTimePreKey.keyId).bind receiver.oneTimeKeyPair)
        (initiatorMessage P ⟨aliceEd⟩ ⟨aliceX⟩ ephemeral bundle ct) =
          initiatorDhs P ⟨aliceX⟩ ephemeral bundle :=
      responderDhs_eq hP ownX ownSpk held.fitsOneTime
    simp only [deriveSharedSecret, secrets]
    rw [← exchanges]
    rfl
  · intro honest agrees readable
    obtain ⟨⟨ed, hed⟩, ⟨x, hx⟩, ⟨spk, hspk⟩, ⟨ek, hek⟩, dk, hdk, long⟩ := readable
    have short := hP.ciphertext_length _ _ _ _ sealed
    obtain ⟨ss', value⟩ := hP.decapsulate_total dk ct long short
    have received := agrees _ (receive_ok_iff.mpr ⟨ed, x, spk, ek, dk, _, hed, hx, hspk, hek, hdk,
      respondPqxdh_ok.mpr ⟨ss', decapsulate_eq_ok.mpr ⟨long, short, value⟩, rfl⟩, rfl⟩)
    -- Equal secrets were derived from equal inputs.
    obtain ⟨inputs, -⟩ := ideal.hkdfSha512_inj _ _ _ _ (Except.ok.inj received)
    obtain ⟨exchanges, secrets⟩ := List.append_inj' (List.cons.inj inputs).2 rfl
    obtain ⟨ownX, ownSpk, ownOtk⟩ := fits_of_responderDhs_eq hP ideal honest exchanges.symm
    obtain ⟨seed, pq⟩ := honest.pqPreKey
    refine ⟨⟨x, hx, ownX⟩, ⟨spk, hspk, ownSpk⟩, ?_, ?_⟩
    · rw [pq] at sealed
      obtain ⟨other, own⟩ := ideal.decapsulate_inj seed random ct ss dk sealed
        (by rw [value, ← (List.cons.inj secrets).1])
      exact ⟨other, dk, hdk, by rw [own, pq]⟩
    · rintro opk found
      replace found : bundle.oneTimePreKey = some opk := found
      obtain ⟨pair, here, own⟩ := Option.map_eq_some_iff.mp
        (ownOtk.trans (by rw [found]; rfl : _ = some opk.publicKey))
      refine ⟨pair, ?_, own⟩
      simpa [initiatorMessage, found] using here

/-! ## Handshakes over the symbolic primitives -/

section Sample
open Pqxdh.Symbolic

def sampleBob : KeySeeds Term := ⟨.atom 10, .atom 11, .atom 12, .atom 13, [.atom 14, .atom 15]⟩

/-- Alice's message to Bob's bundle with its first one-time key. -/
def sampleInit : Except CryptoError (PqxdhInitResult Term Data) :=
  initiatePqxdh symbolic ⟨.atom 0⟩ ⟨.atom 1⟩
    (honestBundle symbolic ⟨.atom 10⟩ ⟨.atom 11⟩ ⟨.atom 12⟩ (.generate symbolic (.atom 13))
      (some (1, ⟨.atom 14⟩)) 1 1) ⟨.atom 2⟩ (.atom 3)

theorem sampleInit_isSome : sampleInit.toOption.isSome := by decide

def sampleInitResult : PqxdhInitResult Term Data := sampleInit.toOption.get sampleInit_isSome

theorem pqxdh_agreement_sample :
    respondPqxdh symbolic ⟨.atom 10⟩ ⟨.atom 11⟩ ⟨.atom 12⟩ (.generate symbolic (.atom 13))
      (some ⟨.atom 14⟩) sampleInitResult.initMessage = .ok sampleInitResult.derived :=
  pqxdh_agreement symbolic_correct (.atom 13) (some (1, ⟨.atom 14⟩)) 1 1
    (show sampleInit = .ok sampleInitResult by rfl)

/-- Alice's own keys. -/
def sampleAlice : WasmIdentityBundle Term Data :=
  KeySeeds.identityBundle symbolic ⟨.atom 0, .atom 1, .atom 4, .atom 5, []⟩

def sampleHandshake : Except JsError (WasmHandshakeInitResult Term Data) :=
  initiatePqxdhHandshake symbolic .empty sampleAlice (sampleBob.publicBundle symbolic)
    ⟨.atom 2⟩ (.atom 3)

theorem sampleHandshake_isSome : sampleHandshake.toOption.isSome := by decide

def sampleHandshakeResult : WasmHandshakeInitResult Term Data :=
  sampleHandshake.toOption.get sampleHandshake_isSome

/-- Bob's bundle as the initiator decodes it. -/
def sampleBundle : PreKeyBundle Term Data :=
  honestBundle symbolic ⟨.atom 10⟩ ⟨.atom 11⟩ ⟨.atom 12⟩ (.generate symbolic (.atom 13))
    (some (1, ⟨.atom 14⟩)) 1 1

/-- Bob no longer holds the one-time key of the message. -/
def sampleWithout : WasmIdentityBundle Term Data :=
  { sampleBob.identityBundle symbolic with oneTimePreKeys := [] }

theorem receive_sound_sample :
    let sound := ∀ s, receivePqxdhHandshake symbolic (sampleBob.identityBundle symbolic)
      sampleHandshakeResult.initMessage = .ok s → sampleHandshakeResult.sharedSecretHex = .ok s
    ((Readable symbolic (sampleBob.identityBundle symbolic) →
        HoldsKeys symbolic (sampleBob.identityBundle symbolic) sampleBundle) → sound) ∧
      (HonestKeys symbolic sampleBundle → sound →
        Readable symbolic (sampleBob.identityBundle symbolic) →
        HoldsKeys symbolic (sampleBob.identityBundle symbolic) sampleBundle) :=
  receive_sound symbolic_correct symbolic_ideal
    (show sampleHandshake = .ok sampleHandshakeResult by rfl) (by rfl)

/-- Without the one-time key the receiver returns another secret, and no error. -/
theorem missing_one_time_key_not_noticed :
    sampleHandshake = .ok sampleHandshakeResult ∧
      ∃ s, receivePqxdhHandshake symbolic sampleWithout sampleHandshakeResult.initMessage = .ok s ∧
        sampleHandshakeResult.sharedSecretHex ≠ .ok s := by
  refine ⟨by rfl, (receivePqxdhHandshake symbolic sampleWithout
    sampleHandshakeResult.initMessage).toOption.get (by decide), by rfl, by decide⟩

end Sample

end GenChat.Pqxdh
