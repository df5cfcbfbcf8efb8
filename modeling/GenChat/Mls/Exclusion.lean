import GenChat.Library.Deduction
import GenChat.Mls.Agreement

/-!
# What a removed member can still compute

`remove_member` draws a path key pair, but only its public half leaves the function and neither
half enters `derive_epoch_secrets`. The next epoch is therefore a function of the current epoch
secret, a counter and a public tag, and whoever holds an epoch secret computes all later ones.
-/
namespace GenChat.Mls
open Crypto Library MlsGroup

variable {Block Bytes : Type} (P : Primitives Block Bytes)

/-- The functions on blocks that a party may apply. Byte strings and labels are public. -/
inductive Computes : Rule Block where
  | hkdf (salt : Option Block) (ikm : Ikm Block) (info : String) :
      Computes (salt.toList ++ ikm.secret.toList) (P.hkdf salt ikm info)
  | ed25519Public (secret : Block) : Computes [secret] (P.ed25519Public secret)
  | x25519Public (secret : Block) : Computes [secret] (P.x25519Public secret)
  | diffieHellman (secret pub : Block) : Computes [secret, pub] (P.diffieHellman secret pub)

/-- The blocks in a group state. -/
def MlsGroup.held (g : MlsGroup Block) : Set Block :=
  {b | b = g.myIdentity.signingKey ∨ b = g.myHpkeSecret ∨ b = g.epochSecret ∨
    b = g.applicationSecret ∨ ∃ leaf ∈ g.tree.leaves, b = leaf.identityKey ∨ b = leaf.publicKey}

/-- The secret is out of reach of the holder of `u` who sees `commit`. -/
def Excluded (u : MlsGroup Block) (commit : MlsCommit Block) (secret : Block) : Prop :=
  ¬ Deduces (Computes P) (u.held ∪ {commit.newPathPublicKey}) secret ∧
    (u.applyCommit P commit).2.applicationSecret ≠ secret

variable {P} {known : Set Block}

theorem deduces_deriveEpochSecrets {current : Block} (h : Deduces (Computes P) known current)
    (epoch : Nat) (tag : String) :
    Deduces (Computes P) known (deriveEpochSecrets P current epoch tag).1 ∧
      Deduces (Computes P) known (deriveEpochSecrets P current epoch tag).2 := by
  have next := h.unary (.hkdf (some current) ⟨none, utf8 tag ++ toBeBytes 8 epoch⟩
    "genchat_mls_next_epoch")
  exact ⟨next, next.unary (.hkdf none ⟨some _, []⟩ "genchat_mls_application_secret")⟩

/-- An epoch secret gives every later one. -/
theorem deduces_secretsAt {initial : Block} {commits : List (MlsCommit Block)} {n m : Nat}
    (h : Deduces (Computes P) known (secretsAt P initial commits n).1) (le : n ≤ m) :
    Deduces (Computes P) known (secretsAt P initial commits m).1 := by
  induction m, le using Nat.le_induction with
  | base => exact h
  | succ m _ ih =>
    cases next : commits[m]? with
    | none => simpa [secretsAt, next] using ih
    | some c =>
      rw [secretsAt_succ next]
      exact (deduces_deriveEpochSecrets ih _ _).1

theorem MlsGroup.deduces_epochSecret (g : MlsGroup Block) (path : Block) :
    Deduces (Computes P) (g.held ∪ {path}) g.epochSecret :=
  .known (.inl (.inr (.inr (.inl rfl))))

variable [DecidableEq Block] {w : World Block Bytes}

/-- Whoever was a member before a removal computes the application secret after it; one that is
up to date gets it from `apply_commit`. -/
theorem removed_member_not_excluded (hP : P.Correct) (hw : (World.machine P).Reachable w)
    {p u : Party Block Bytes} {g gu : MlsGroup Block} {userId : String} {pathSecret : Block}
    {commit : MlsCommit Block} (hp : p ∈ w.parties) (hg : w.committer p = some g)
    (removal : (g.removeMember P userId pathSecret).1 = .ok commit)
    (hu : u ∈ w.parties) (hgu : u.group = some gu) :
    let secret := (g.removeMember P userId pathSecret).2.applicationSecret
    ¬ Excluded P gu commit secret ∧
      Deduces (Computes P) (gu.held ∪ {commit.newPathPublicKey}) secret ∧
      (gu.epoch = g.epoch → (gu.applyCommit P commit).1 = .ok () ∧
        (gu.applyCommit P commit).2.applicationSecret = secret) := by
  intro secret
  obtain ⟨initial, h⟩ := World.reachable_agreement hP hw
  obtain ⟨-, current, group⟩ := World.committer_eq_some.mp hg
  obtain ⟨idx, -, hc, moved⟩ := removeMember_ok removal
  have now := (h.parties p hp).atEpoch g group
  have theirs := (h.parties u hu).atEpoch gu hgu
  have value : secret = (deriveEpochSecrets P g.epochSecret (g.epoch + 1) "remove_member").2 := by
    simp [secret, moved, MlsGroup.advance]
  have deduced : Deduces (Computes P) (gu.held ∪ {commit.newPathPublicKey}) secret := by
    have own := gu.deduces_epochSecret (P := P) commit.newPathPublicKey
    rw [theirs.epochSecret] at own
    have caught := deduces_secretsAt own (current ▸ (h.parties u hu).applied_le)
    rw [← now.epochSecret] at caught
    exact value ▸ (deduces_deriveEpochSecrets caught _ _).2
  refine ⟨fun excluded => excluded.1 deduced, deduced, fun same => ?_⟩
  have meet : u.applied = p.applied := by rw [← theirs.epoch, same, now.epoch]
  have epochs : gu.epochSecret = g.epochSecret := by
    rw [theirs.epochSecret, now.epochSecret, meet]
  have tag : contextTag commit = "remove_member" := hc ▸ contextTag_commitOf _ (by decide)
  rw [applyCommit_eq (by rw [hc, same]; rfl), tag]
  exact ⟨rfl, by rw [value, same, epochs]; rfl⟩

/-! ## A removal over the symbolic primitives -/

section Sample
open Symbolic

/-- Alice adds Bob, who joins. -/
def samplePair : World Term Data :=
  ((World.machine symbolic).follow (fun _ _ => True) sampleStart
    [sampleAdd 0 "bob" 1, sampleJoin 1 1]).get (by decide)

theorem samplePair_reachable : (World.machine symbolic).Reachable samplePair :=
  (Machine.Reach.start sampleStart_start).follow (Option.some_get _).symm

def samplePairParty (i : Fin 2) : Party Term Data :=
  samplePair.parties.get (i.cast (by decide))

def samplePairGroup (i : Fin 2) : MlsGroup Term :=
  (samplePairParty i).group.get (by revert i; decide)

/-- The commit with which Alice removes Bob. -/
def sampleRemoval : MlsCommit Term :=
  commitOf symbolic (samplePairGroup 0) 2 "remove_member" (.atom 200)

theorem removed_member_not_excluded_sample :
    let secret := ((samplePairGroup 0).removeMember symbolic "bob" (.atom 200)).2.applicationSecret
    ¬ Excluded symbolic (samplePairGroup 1) sampleRemoval secret ∧
      Deduces (Computes symbolic)
        ((samplePairGroup 1).held ∪ {sampleRemoval.newPathPublicKey}) secret ∧
      ((samplePairGroup 1).epoch = (samplePairGroup 0).epoch →
        ((samplePairGroup 1).applyCommit symbolic sampleRemoval).1 = .ok () ∧
        ((samplePairGroup 1).applyCommit symbolic sampleRemoval).2.applicationSecret = secret) :=
  removed_member_not_excluded symbolic_correct samplePair_reachable
    (p := samplePairParty 0) (u := samplePairParty 1) (List.get_mem _ _) (by rfl) (by rfl)
    (List.get_mem _ _) (by rfl)

/-- Bob, removed by Alice, applies the commit that removes him and holds her new secret. -/
theorem removed_member_applies_commit :
    (World.machine symbolic).Reachable samplePair ∧
      samplePair.committer (samplePairParty 0) = some (samplePairGroup 0) ∧
      (samplePairParty 1).userId = "bob" ∧
      ((samplePairGroup 0).removeMember symbolic "bob" (.atom 200)).1 = .ok sampleRemoval ∧
      ¬ Excluded symbolic (samplePairGroup 1) sampleRemoval
        ((samplePairGroup 0).removeMember symbolic "bob" (.atom 200)).2.applicationSecret :=
  ⟨samplePair_reachable, by rfl, by rfl, by rfl, fun excluded => excluded.2 (by decide)⟩

end Sample

end GenChat.Mls
