import GenChat.Mls.TreeAgreement
import GenChat.Mls.TreeChanges

/-!
# What a member takes on trust

A key package is signed over user id, device id and key without separators, `from_welcome` reads
the group id and the tree beside the sealed secrets, and `apply_commit` looks at the epoch alone.
Each of the three accepts exactly what it should where the part that is not checked is as it
should be.
-/
namespace GenChat.Mls
open Crypto Library MlsGroup

variable {Block Bytes : Type} {P : Primitives Block Bytes}

/-! ## Key packages -/

theorem utf8_inj {s t : String} : utf8 s = utf8 t ↔ s = t := by
  refine ⟨fun h => ?_, fun h => h ▸ rfl⟩
  simp only [utf8, String.toUTF8_eq_toByteArray] at h
  exact String.toByteArray_inj.mp (ByteArray.ext (Array.toList_inj.mp h))

theorem verify_eq_ok {kp : MlsKeyPackage Block Bytes} : kp.verify P = .ok () ↔
    P.ed25519Verify kp.identityKey (keyPackageMessage kp.userId kp.deviceId kp.hpkePublicKey)
      kp.signature = true := by
  simp [MlsKeyPackage.verify]

/-- Packages with one signature have one owner exactly if their user ids are of one length. -/
theorem keyPackage_owner_iff (ideal : P.SignaturesIdeal) {kp kp' : MlsKeyPackage Block Bytes}
    (signer : kp.identityKey = kp'.identityKey) (sig : kp.signature = kp'.signature)
    (verified : kp.verify P = .ok ()) (verified' : kp'.verify P = .ok ()) :
    (kp.userId = kp'.userId ∧ kp.deviceId = kp'.deviceId ∧
      kp.hpkePublicKey = kp'.hpkePublicKey) ↔
    (utf8 kp.userId).length = (utf8 kp'.userId).length := by
  constructor
  · rintro ⟨user, -, -⟩
    rw [user]
  · intro length
    rw [verify_eq_ok] at verified verified'
    rw [← signer, ← sig] at verified'
    have same := ideal _ _ _ _ verified verified'
    obtain ⟨user, device⟩ := List.append_inj (congrArg SignedMessage.bytes same) length
    exact ⟨utf8_inj.mp user, utf8_inj.mp device, congrArg SignedMessage.key same⟩

/-! ## Welcomes -/

/-- Whoever filled the Welcome encrypted these secrets to the recipient. -/
def MlsWelcome.SealedFor (P : Primitives Block Bytes) (welcome : MlsWelcome Block Bytes)
    (hpkeSecret : Block) (payload : WelcomePayload Block) : Prop :=
  ∃ ephPub ct bytes, welcome.encryptedGroupSecrets = .split ephPub ct ∧
    P.aesGcmEncrypt (welcomeKey P (P.diffieHellman hpkeSecret ephPub)) welcome.nonce (P.text "")
      bytes = .ok ct ∧
    P.fromSlice bytes = .ok payload

/-- If the altered Welcome opens, the new member gets what the adder `g` put into the original. -/
def OpensIntact (P : Primitives Block Bytes) (g : MlsGroup Block)
    (w altered : MlsWelcome Block Bytes) (identity : IdentityKeyPair Block) (hpkeSecret : Block) :
    Prop :=
  ∀ j, fromWelcome P altered identity hpkeSecret = .ok j → j.groupId = w.groupId ∧
    j.tree = w.tree ∧
    (⟨j.epoch, j.myLeafIndex, j.epochSecret, j.applicationSecret⟩ : WelcomePayload Block) =
      g.addedSecrets P

/-- The fields beside the sealed secrets are as the adder wrote them. -/
def SameBeside (w altered : MlsWelcome Block Bytes) : Prop :=
  altered.groupId = w.groupId ∧ altered.tree = w.tree

/-- Around the adder's sealed secrets nothing was changed, and nobody else has sealed other
secrets for the recipient. -/
structure Unforged (P : Primitives Block Bytes) (g : MlsGroup Block)
    (w altered : MlsWelcome Block Bytes) (hpkeSecret : Block) : Prop where
  beside : altered.encryptedGroupSecrets = w.encryptedGroupSecrets → altered.nonce = w.nonce →
    SameBeside w altered
  others : ¬ (altered.encryptedGroupSecrets = w.encryptedGroupSecrets ∧ altered.nonce = w.nonce) →
    ∀ payload, altered.SealedFor P hpkeSecret payload →
      payload = g.addedSecrets P ∧ SameBeside w altered

/-- The group that these secrets open. -/
def MlsWelcome.joined (welcome : MlsWelcome Block Bytes) (identity : IdentityKeyPair Block)
    (hpkeSecret : Block) (payload : WelcomePayload Block) : MlsGroup Block :=
  ⟨welcome.groupId, payload.epoch, payload.myLeafIdx, identity, hpkeSecret, welcome.tree,
    payload.epochSecret, payload.applicationSecret, 0⟩

variable {g : MlsGroup Block} {w welcome altered : MlsWelcome Block Bytes}
  {identity : IdentityKeyPair Block} {hpkeSecret : Block} {payload : WelcomePayload Block}

theorem MlsWelcome.SealedFor.opens (sealed : welcome.SealedFor P hpkeSecret payload)
    (hP : P.Correct) (identity : IdentityKeyPair Block) :
    fromWelcome P welcome identity hpkeSecret =
      .ok (welcome.joined identity hpkeSecret payload) := by
  obtain ⟨ephPub, ct, bytes, box, encrypted, written⟩ := sealed
  have decrypted := hP.decrypt_encrypt _ _ _ _ _ encrypted
  simp [fromWelcome, box, decrypted, written, MlsWelcome.joined]

theorem MlsWelcome.SealedFor.of_opens (authentic : P.Authentic) {j : MlsGroup Block}
    (opened : fromWelcome P welcome identity hpkeSecret = .ok j) :
    ∃ payload, welcome.SealedFor P hpkeSecret payload ∧
      j = welcome.joined identity hpkeSecret payload := by
  unfold fromWelcome at opened
  split at opened
  · cases opened
  · rename_i ephPub ct box
    dsimp only at opened
    split at opened
    · cases opened
    · rename_i bytes decrypted
      split at opened
      · cases opened
      · rename_i payload written
        cases opened
        exact ⟨payload, ⟨ephPub, ct, bytes, box, authentic _ _ _ _ _ decrypted, written⟩, rfl⟩

/-- What `add_member` hands out is sealed for the new member. -/
theorem addMember_sealedFor (hP : P.Correct) {kp : MlsKeyPackage Block Bytes}
    {rng : AddRandomness Block} {c : MlsCommit Block}
    (added : (g.addMember P kp rng).1 = .ok (w, c))
    (own : P.x25519Public hpkeSecret = kp.hpkePublicKey) :
    w.SealedFor P hpkeSecret (g.addedSecrets P) := by
  obtain ⟨⟨box, sealing, rfl⟩, -, -⟩ := addMember_ok added
  rw [← own] at sealing
  unfold sealSecrets at sealing
  split at sealing
  · cases sealing
  · rename_i bytes written
    dsimp only at sealing
    split at sealing
    · cases sealing
    · rename_i ct encrypted
      cases sealing
      rw [hP.diffieHellman_comm] at encrypted
      exact ⟨_, ct, bytes, rfl, encrypted, hP.fromSlice_toVec _ _ written⟩

/-- An altered Welcome opens intact exactly if it is not forged. -/
theorem opensIntact_iff (hP : P.Correct) (authentic : P.Authentic)
    {kp : MlsKeyPackage Block Bytes} {rng : AddRandomness Block} {c : MlsCommit Block}
    (added : (g.addMember P kp rng).1 = .ok (w, c))
    (own : P.x25519Public hpkeSecret = kp.hpkePublicKey) :
    OpensIntact P g w altered identity hpkeSecret ↔ Unforged P g w altered hpkeSecret := by
  have original := addMember_sealedFor hP added own
  constructor
  · intro intact
    have carried (payload : WelcomePayload Block)
        (sealed : altered.SealedFor P hpkeSecret payload) :
        payload = g.addedSecrets P ∧ SameBeside w altered := by
      obtain ⟨group, tree, secrets⟩ := intact _ (sealed.opens hP identity)
      exact ⟨secrets, group, tree⟩
    refine ⟨fun box nonce => ?_, fun _ => carried⟩
    obtain ⟨ephPub, ct, bytes, there, encrypted, written⟩ := original
    rw [← box] at there
    rw [← nonce] at encrypted
    exact (carried _ ⟨ephPub, ct, bytes, there, encrypted, written⟩).2
  · intro unforged j opened
    obtain ⟨payload, sealed, rfl⟩ := MlsWelcome.SealedFor.of_opens authentic opened
    suffices payload = g.addedSecrets P ∧ SameBeside w altered from
      ⟨this.2.1, this.2.2, this.1⟩
    by_cases same : altered.encryptedGroupSecrets = w.encryptedGroupSecrets ∧
        altered.nonce = w.nonce
    · refine ⟨?_, unforged.beside same.1 same.2⟩
      -- The adder's box opens to one payload.
      obtain ⟨ephPub, ct, bytes, there, encrypted, written⟩ := original
      rw [← same.1] at there
      rw [← same.2] at encrypted
      have again := MlsWelcome.SealedFor.opens ⟨ephPub, ct, bytes, there, encrypted, written⟩ hP
        identity
      rw [sealed.opens hP identity] at again
      injection again with joined
      injection joined with _ epoch leaf _ _ _ secret application _
      cases payload
      simp only at epoch leaf secret application
      subst epoch leaf secret application
      rfl
    · exact unforged.others same payload sealed

/-! ## Commits -/

/-- The commit is one of the group's own, from another of its members. -/
structure MlsCommit.FromMember (c : MlsCommit Block) (g : MlsGroup Block) : Prop where
  group : c.groupId = g.groupId
  tag : c.commitTag ∈ ["", "add_member", "remove_member"]
  sender : c.senderLeafIndex ≠ g.myLeafIndex ∧
    ∃ leaf ∈ g.tree.leaves[c.senderLeafIndex]?, leaf.isBlank = false

/-- `apply_commit` takes the next commit of its group only, and refuses everything else without a
trace. -/
def TakesNextOnly (P : Primitives Block Bytes) (g : MlsGroup Block) (c : MlsCommit Block) : Prop :=
  let next := c.epoch = g.epoch + 1 ∧ c.FromMember g
  let r := g.applyCommit P c
  (r.1 = .ok () → next) ∧ (¬ next → (∃ e, r.1 = .error e) ∧ r.2 = g)

section Sample
open Symbolic

/-- Alice's state, who is alone in her group. -/
def sampleAlone : MlsGroup Term :=
  .create symbolic "g" "alice" "phone" (sampleIdentity 0) (.generate symbolic (.atom 1)) (.atom 99)

/-- A package for `al` and `ice`, and the same with its text cut elsewhere. -/
def sampleOwner : MlsKeyPackage Term Data :=
  .new symbolic "al" "ice" (sampleIdentity 1) (.generate symbolic (.atom 3))

def sampleRelabelled : MlsKeyPackage Term Data :=
  { sampleOwner with userId := "ali", deviceId := "ce" }

theorem keyPackage_owner_iff_sample :
    (sampleOwner.userId = sampleOwner.userId ∧ sampleOwner.deviceId = sampleOwner.deviceId ∧
      sampleOwner.hpkePublicKey = sampleOwner.hpkePublicKey) ↔
    (utf8 sampleOwner.userId).length = (utf8 sampleOwner.userId).length :=
  keyPackage_owner_iff symbolic_signaturesIdeal rfl rfl (by decide) (by decide)

/-- One signature serves two users. -/
theorem signature_of_two_owners :
    sampleOwner.identityKey = sampleRelabelled.identityKey ∧
    sampleOwner.signature = sampleRelabelled.signature ∧
    sampleOwner.verify symbolic = .ok () ∧ sampleRelabelled.verify symbolic = .ok () ∧
    sampleOwner.userId ≠ sampleRelabelled.userId := by
  refine ⟨rfl, rfl, ?_, ?_, ?_⟩ <;> decide

/-- The Welcome with which she adds Bob. -/
def sampleWelcome : MlsWelcome Term Data :=
  ((sampleAlone.addMember symbolic (samplePackage "bob" 1) (sampleRandomness 1)).1.toOption.get
    (by decide)).1

theorem opensIntact_iff_sample :
    OpensIntact symbolic sampleAlone sampleWelcome sampleWelcome (sampleIdentity 1) (.atom 3) ↔
      Unforged symbolic sampleAlone sampleWelcome sampleWelcome (.atom 3) := by
  have added : (sampleAlone.addMember symbolic (samplePackage "bob" 1) (sampleRandomness 1)).1 =
      .ok (sampleWelcome, commitOf symbolic sampleAlone 1 "add_member" (.atom 103)) := rfl
  exact opensIntact_iff symbolic_correct symbolic_authentic added rfl

/-- Bob joins another group with the secrets of Alice's. -/
theorem welcome_of_other_group : ¬ OpensIntact symbolic sampleAlone sampleWelcome
    { sampleWelcome with groupId := "h" } (sampleIdentity 1) (.atom 3) := by
  intro intact
  obtain ⟨group, -, -⟩ := intact _ rfl
  exact absurd group (by decide)

end Sample

end GenChat.Mls
