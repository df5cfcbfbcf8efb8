import GenChat.E2ee.PreKeys

/-!
# What a call of `initUserKeys` stores and publishes

A call stores generated keys only, and publishes only the public half of keys that it has stored
before. `KeepsKeys` says this of any contract, with what a call may rely on about its keys as a
parameter.
-/
namespace GenChat.E2ee
open Library Pqxdh

/-! ## Generated keys -/

section Generated
variable {Block Bytes : Type} {P : Primitives Block Bytes} {seeds : KeySeeds Block}

/-- The public half of one-time key `i`. -/
def KeySeeds.publicKey (P : Primitives Block Bytes) (i : Nat) (otk : Block) :
    WasmOneTimePublicKey Block :=
  ⟨UInt32.ofNat (i + 1), .ok (P.x25519Public otk)⟩

theorem oneTimePreKeys_public (seeds : KeySeeds Block) :
    (seeds.publicBundle P).oneTimePreKeys =
      seeds.oneTimePreKeys.mapIdx (KeySeeds.publicKey P) := rfl

/-- The private half of each one-time key is found under its id. -/
theorem oneTimeKeyPair_found (few : seeds.oneTimePreKeys.length < 2 ^ 32 - 1) {i : Nat} {otk : Block}
    (place : seeds.oneTimePreKeys[i]? = some otk) :
    (seeds.identityBundle P).oneTimeKeyPair (UInt32.ofNat (i + 1)) = some ⟨otk⟩ := by
  obtain ⟨lt, rfl⟩ := List.getElem?_eq_some_iff.mp place
  have ids {j : Nat} (h : j < seeds.oneTimePreKeys.length)
      (same : UInt32.ofNat (j + 1) = UInt32.ofNat (i + 1)) : j = i := by
    have nats := congrArg UInt32.toNat same
    rw [UInt32.toNat_ofNat_of_lt' (by simp [UInt32.size]; omega),
      UInt32.toNat_ofNat_of_lt' (by simp [UInt32.size]; omega)] at nats
    omega
  have found : (seeds.identityBundle P).oneTimePreKeys.find?
      (fun k => k.keyId = UInt32.ofNat (i + 1)) = some ⟨UInt32.ofNat (i + 1),
        .ok (P.x25519Public seeds.oneTimePreKeys[i]), .ok seeds.oneTimePreKeys[i]⟩ := by
    refine List.find?_eq_some_iff_getElem.mpr ⟨by simp, i, by simpa [KeySeeds.identityBundle],
      by simp [KeySeeds.identityBundle], fun j hj => ?_⟩
    have other := mt (ids (hj.trans lt)) hj.ne
    simpa [KeySeeds.identityBundle] using other
  rw [WasmIdentityBundle.oneTimeKeyPair, found]
  rfl

end Generated

variable {C : Suite} {userId : String} {d d' : Device C} {c : DeviceChoice C}
  {own : IdentityBundle C}

/-- The public bundle that is generated with an identity bundle. -/
def publicHalf (own : IdentityBundle C) : PublicBundle C where
  identityKeyHex := own.identityKeyEd25519PubHex
  identityKeyX25519Hex := own.identityKeyX25519PubHex
  signedPreKeyId := own.signedPreKey.keyId
  signedPreKeyPublicHex := own.signedPreKey.publicKeyHex
  signedPreKeySignatureHex := own.signedPreKey.signatureHex
  pqPreKeyId := own.pqPreKey.keyId
  pqPreKeyPublicHex := own.pqPreKey.publicKeyHex
  pqPreKeySignatureHex := own.pqPreKey.signatureHex
  oneTimePreKeys := own.oneTimePreKeys.map fun k => ⟨k.keyId, k.publicKeyHex⟩

theorem publicBundle_eq (seeds : KeySeeds C.Block) :
    seeds.publicBundle C.pqxdh = publicHalf (seeds.identityBundle C.pqxdh) := by
  have oneTime : (seeds.publicBundle C.pqxdh).oneTimePreKeys =
      (publicHalf (seeds.identityBundle C.pqxdh)).oneTimePreKeys := by
    refine List.ext_getElem? fun i => ?_
    simp [publicHalf, KeySeeds.publicBundle, KeySeeds.identityBundle, Function.comp_def]
  simp only [publicHalf, KeySeeds.publicBundle, KeySeeds.identityBundle] at oneTime ⊢
  rw [oneTime]

/-- The keys have come from `generate_pqxdh_keys(30)`. -/
def Generated (own : IdentityBundle C) : Prop :=
  ∃ seeds : KeySeeds C.Block, seeds.oneTimePreKeys.length = 30 ∧
    own = seeds.identityBundle C.pqxdh

/-- The private half of a published one-time key is found under its id. -/
theorem Generated.held (generated : Generated own) {k : WasmOneTimePublicKey C.Block}
    (mem : k ∈ (publicHalf own).oneTimePreKeys) :
    ∃ pair, own.oneTimeKeyPair k.keyId = some pair ∧
      k.publicKeyHex = .ok (pair.publicKeyBytes C.pqxdh) := by
  obtain ⟨seeds, thirty, rfl⟩ := generated
  rw [← publicBundle_eq, oneTimePreKeys_public] at mem
  obtain ⟨i, lt, rfl⟩ := List.mem_mapIdx.mp mem
  exact ⟨_, oneTimeKeyPair_found (by omega) (List.getElem?_eq_getElem lt), rfl⟩

/-! ## Calls -/

@[simp] theorem onService_pure {α : Type} (a : α) :
    onService (.pure a : Proc C α) = .pure a := rfl

@[simp] theorem onService_call {α : Type} (op : Op C) (k : Ret C op → Proc C α) :
    onService (.call op k) = .call (.service op) fun r => onService (k r) := rfl

theorem onService_bind {α β : Type} (p : Proc C α) (f : α → Proc C β) :
    onService (p.bind f) = (onService p).bind fun a => onService (f a) := by
  induction p with
  | pure a => rfl
  | call op k ih => simp [ih]

theorem generate_cases {count : Nat} {r : Option (IdentityBundle C × PublicBundle C)}
    (h : d.exec (.service (.generatePqxdhKeys count)) c = some (r, d')) :
    r = none ∨ ∃ seeds : KeySeeds C.Block, seeds.oneTimePreKeys.length = count ∧
      r = some (seeds.identityBundle C.pqxdh, seeds.publicBundle C.pqxdh) := by
  cases c with
  | service c =>
    obtain ⟨⟨r', s⟩, hr, h⟩ := Option.map_eq_some_iff.mp h
    cases h
    cases c <;> try cases hr
    · exact .inl rfl
    · simp only [Client.exec] at hr
      split at hr <;> cases hr
      exact .inr ⟨_, ‹_›, rfl⟩
  | _ => cases h

theorem persist_stored {storageKey : String} {bundle : IdentityBundle C} {r : Unit}
    (h : d.exec (.service (.persistIdentity storageKey bundle)) c = some (r, d'))
    (fine : c.fails = false) : d'.client.identities.lookup storageKey = some bundle := by
  cases c with
  | service c =>
    cases c <;> cases h
    · exact AList.lookup_insert _
    · cases fine
  | _ => cases h

theorem client_same {r : Client C} (h : d.exec (.service .client) c = some (r, d')) : d' = d := by
  cases c with
  | service c =>
    cases c <;> cases h
    rfl
  | _ => cases h

/-- The operation stores or publishes keys. -/
def DeviceOp.movesKeys : DeviceOp C → Bool
  | .service (.persistIdentity _ _) | .service (.publishPreKeyBundle _ _ _)
  | .uploadOneTimeKeys _ _ _ => true
  | _ => false

/-- The contract lets a call store generated keys, of which `Holds` then says what lasts until it
publishes their public half. -/
structure KeepsKeys (K : Contract (deviceSystem C)) (userId : String)
    (Holds : IdentityBundle C → Device C → Prop) : Prop where
  free : ∀ d op, op.movesKeys = false → K.req d op
  persist : ∀ d own, Generated own →
    K.req d (.service (.persistIdentity (identityStorageKey userId) own))
  stored : ∀ (d : Device C) own c r d', Generated own →
    K.admits d (.service (.persistIdentity (identityStorageKey userId) own)) c →
    d.exec (.service (.persistIdentity (identityStorageKey userId) own)) c = some (r, d') →
    Holds own d'
  stable : ∀ {own d d'}, Holds own d → K.rely d d' → Holds own d'
  publish : ∀ {own d deviceId token}, Holds own d →
    K.req d (.service (.publishPreKeyBundle (publicHalf own) deviceId token))

section Calls
variable {K : Contract (deviceSystem C)} {Holds : IdentityBundle C → Device C → Prop}

/-- The public half of new keys is that of the keys that are stored. -/
theorem newKeys_meets (keeps : KeepsKeys K userId Holds) (d : Device C) : Meets K
    (fun pub d => ∀ bundle ∈ pub, ∃ own, Holds own d ∧ bundle = publicHalf own)
    (onService (newKeys userId)) d := by
  simp only [newKeys, issue, Prog.monad_bind, Prog.perform_bind, onService_call]
  refine fun d₁ _ _ => ⟨keeps.free _ _ rfl, fun c r d₂ _ hr => ?_⟩
  rcases generate_cases hr with rfl | ⟨seeds, thirty, rfl⟩
  · exact Meets.pure fun _ _ _ bundle hb => absurd hb (Option.not_mem_none bundle)
  · have generated : Generated (seeds.identityBundle C.pqxdh) := ⟨seeds, thirty, rfl⟩
    simp only [onService_call, Prog.monad_pure, onService_pure]
    refine fun d₃ _ _ => ⟨keeps.free _ _ rfl, fun _ _ d₄ _ _ => ?_⟩
    refine fun d₅ _ _ => ⟨keeps.persist d₅ _ generated, fun c r d₆ admits hr => ?_⟩
    have holds := keeps.stored d₅ _ c r d₆ generated admits hr
    refine Meets.pure fun d₇ kept _ bundle hb => ?_
    cases hb
    exact ⟨_, keeps.stable holds kept, publicBundle_eq seeds⟩

/-- The part of `initUserKeys` behind the look at the client. -/
def keepKeys (userId deviceId : String) (client : Client C) : Proc C Bool :=
  match client.identities.lookup (identityStorageKey userId) with
  | none => do
    match ← newKeys userId with
    | none => pure false
    | some publicBundle =>
      let client ← issue .client
      if client.authToken ≠ "" ∧ deviceId ≠ "" then
        let _ ← issue (.publishPreKeyBundle publicBundle deviceId client.authToken)
      pure true
  | some stored => do
    issue (.setIdentityBundle stored)
    if client.authToken ≠ "" ∧ deviceId ≠ "" then
      match ← issue (.getKeyCount deviceId client.authToken) with
      | some 0 =>
        match ← newKeys userId with
        | none => pure true
        | some publicBundle =>
          let client ← issue .client
          let _ ← issue (.publishPreKeyBundle publicBundle deviceId client.authToken)
          pure true
      | _ => pure true
    else pure true

theorem initUserKeys_meets (keeps : KeepsKeys K userId Holds) (deviceId accessToken : String)
    (d : Device C) :
    Meets K (fun _ _ => True)
      (onService (initUserKeys userId deviceId accessToken)) d := by
  have done (d : Device C) (b : Bool) : Meets K (fun _ _ => True)
      (.pure b : DeviceProc C Bool) d := Meets.pure fun _ _ _ => trivial
  have publish (d : Device C) (own : IdentityBundle C) (client : Client C)
      (holds : Holds own d) : Meets K (fun _ _ => True)
      (onService (.call (.publishPreKeyBundle (publicHalf own) deviceId client.authToken)
        fun _ => .pure true)) d :=
    fun d₁ kept _ => ⟨keeps.publish (keeps.stable holds kept), fun _ _ d₂ _ _ => done d₂ true⟩
  -- What follows the look at `localStorage`.
  have keys (d : Device C) (client : Client C) : Meets K (fun _ _ => True)
      (onService (keepKeys userId deviceId client)) d := by
    unfold keepKeys
    split
    · simp only [Prog.monad_bind, onService_bind]
      refine Meets.bind ((newKeys_meets keeps d).mono fun pub d₁ half => ?_)
      cases pub with
      | none => exact done d₁ false
      | some pub =>
        obtain ⟨own, holds, rfl⟩ := half pub rfl
        refine fun d₂ kept _ => ⟨keeps.free _ _ rfl, fun _ client d₃ _ hr => ?_⟩
        cases client_same hr
        change Meets _ _ (onService (if client.authToken ≠ "" ∧ deviceId ≠ "" then
          .call (.publishPreKeyBundle (publicHalf own) deviceId client.authToken)
            fun _ => .pure true else .pure true)) d₂
        split
        · exact publish d₂ own client (keeps.stable holds kept)
        · exact done d₂ true
    · refine fun d₁ _ _ => ⟨keeps.free _ _ rfl, fun _ _ d₂ _ _ => ?_⟩
      dsimp only [Prog.pure_bind]
      split
      · refine fun d₃ _ _ => ⟨keeps.free _ _ rfl, fun _ count d₄ _ _ => ?_⟩
        dsimp only [Prog.pure_bind]
        split
        · change Meets _ _ (onService ((newKeys userId).bind _)) d₄
          rw [onService_bind]
          refine Meets.bind ((newKeys_meets keeps d₄).mono fun pub d₅ half => ?_)
          cases pub with
          | none => exact done d₅ true
          | some pub =>
            obtain ⟨own, holds, rfl⟩ := half pub rfl
            refine fun d₆ kept _ => ⟨keeps.free _ _ rfl, fun _ client d₇ _ hr => ?_⟩
            cases client_same hr
            exact publish d₆ own client (keeps.stable holds kept)
        · exact done d₄ true
      · exact done d₂ true
  simp only [initUserKeys, issue, Prog.monad_bind, Prog.perform_bind]
  by_cases token : accessToken = ""
  · simp only [token, ne_eq, not_true, if_false]
    refine fun d₁ _ _ => ⟨keeps.free _ _ rfl, fun _ _ d₂ _ _ => ?_⟩
    refine fun d₁ _ _ => ⟨keeps.free _ _ rfl, fun _ _ d₂ _ _ => ?_⟩
    refine fun d₁ _ _ => ⟨keeps.free _ _ rfl, fun _ client d₂ _ _ => ?_⟩
    exact keys d₂ client
  · simp only [token, ne_eq, not_false_eq_true, if_true]
    refine fun d₁ _ _ => ⟨keeps.free _ _ rfl, fun _ _ d₂ _ _ => ?_⟩
    refine fun d₁ _ _ => ⟨keeps.free _ _ rfl, fun _ _ d₂ _ _ => ?_⟩
    refine fun d₁ _ _ => ⟨keeps.free _ _ rfl, fun _ _ d₂ _ _ => ?_⟩
    refine fun d₁ _ _ => ⟨keeps.free _ _ rfl, fun _ client d₂ _ _ => ?_⟩
    exact keys d₂ client

end Calls

end GenChat.E2ee
