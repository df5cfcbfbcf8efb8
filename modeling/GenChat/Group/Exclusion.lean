import GenChat.Library.Deduction
import GenChat.Group.Agreement

/-!
# What a removed member still computes in the browser

`removeMember` derives the next secret from the last one and from texts that everybody knows, and
the media keys in the same way. Whoever was a member of the last epoch has all that it takes, and
his own `applyIncomingCommit` does it for him.
-/
namespace GenChat.Group
open Library BrowserText
open Call (Kdf MediaKey MlsLocalGroupState)

/-- What a party computes on texts: HKDF, and parts of a text. Salts and infos are public. -/
inductive Computes (H : Kdf) : Rule String where
  | hkdf (secretHex salt info : String) : Computes H [secretHex] (H.hkdf secretHex salt info)
  | slice (text : String) (n : Nat) : Computes H [text] (String.ofList (text.toList.take n))

section
variable {Private Public : Type} (W : WebCrypto Private Public)

/-- What the removed member holds: his state, and the commit that is broadcast. -/
def held (mine : MlsLocalGroupState) (commit : MlsCommitEnvelope) : Set String :=
  {mine.epochSecretHex, commit.commitHashHex}

/-- The next secret and the media keys of the next epoch are out of reach of the holder of a state
who sees the commit, and his own `applyIncomingCommit` does not get the secret for him. -/
structure Excluded (channelId : String) (mine : MlsLocalGroupState) (commit : MlsCommitEnvelope)
    (next : MlsLocalGroupState) : Prop where
  secret : ¬ Deduces (Computes W.kdf) (held mine commit) next.epochSecretHex
  mediaKeys : ∀ groupId participantId, ∀ key ∈ next.exportGroupMediaKey W.kdf groupId participantId,
    ¬ Deduces (Computes W.kdf) (held mine commit) key.keyHex
  commit : ∀ after ∈ applyIncomingCommit W mine channelId commit commit.epoch,
    after.epochSecretHex ≠ next.epochSecretHex

end

variable {Private Public : Type} {W : WebCrypto Private Public}
  {state mine next : MlsLocalGroupState} {commit : MlsCommitEnvelope}

/-! ## One removal -/

/-- Whoever holds the secret before a removal computes the next one. -/
theorem deduces_next {channelId committerUserId removedUserId : String}
    (removed : advanceEpoch W state channelId committerUserId removedUserId = some (next, commit))
    (member : Agree mine state) :
    Deduces (Computes W.kdf) (held mine commit) next.epochSecretHex := by
  obtain ⟨next', moved, rest⟩ := Option.bind_eq_some_iff.mp removed
  obtain ⟨commit', told, same⟩ := Option.bind_eq_some_iff.mp rest
  obtain ⟨rfl, rfl⟩ := Prod.mk.inj (Option.some.inj same)
  have moved := nextState_eq moved
  cases moved
  have known : Deduces (Computes W.kdf) (held mine commit') state.epochSecretHex :=
    .known (.inl member.2.1.symm)
  exact known.unary (.hkdf _ _ _)

/-- A secret gives all media keys of its epoch. -/
theorem deduces_mediaKey {known : Set String} {groupId participantId : String} {key : MediaKey}
    (secret : Deduces (Computes W.kdf) known next.epochSecretHex)
    (exported : next.exportGroupMediaKey W.kdf groupId participantId = some key) :
    Deduces (Computes W.kdf) known key.keyHex := by
  obtain ⟨-, exported⟩ := Option.ite_none_left_eq_some.mp exported
  cases exported
  exact (secret.unary (.hkdf _ _ _)).unary (.hkdf _ _ _)

/-- The removed member applies the commit like everybody else. -/
theorem applies_removal {channelId committerUserId removedUserId : String}
    (removed : advanceEpoch W state channelId committerUserId removedUserId = some (next, commit))
    (member : Agree mine state) :
    ∃ after ∈ applyIncomingCommit W mine channelId commit commit.epoch, Agree after next := by
  obtain ⟨next', moved, rest⟩ := Option.bind_eq_some_iff.mp removed
  obtain ⟨commit', told, same⟩ := Option.bind_eq_some_iff.mp rest
  obtain ⟨rfl, rfl⟩ := Prod.mk.inj (Option.some.inj same)
  have applied : (applyIncomingCommit W mine channelId commit' commit'.epoch).isSome := by
    have bytes := (Option.ite_none_right_eq_some.mp moved).1
    obtain ⟨up, epoch⟩ := commit_epoch moved told
    have later : ¬ commit'.epoch ≤ mine.epoch := by
      rw [epoch, up, member.1]
      omega
    simp [applyIncomingCommit, nextState, MlsLocalGroupState.next, member.2.1, bytes, later]
  obtain ⟨after, found⟩ := Option.isSome_iff_exists.mp applied
  exact ⟨after, found, Agree.apply moved told member found⟩

/-- No removal excludes the removed member, whatever the state. -/
theorem removed_never_excluded {channelId committerUserId removedUserId : String}
    (removed : advanceEpoch W state channelId committerUserId removedUserId = some (next, commit))
    (member : Agree mine state) : ¬ Excluded W channelId mine commit next ∧
      (∀ groupId participantId, ∀ key ∈ next.exportGroupMediaKey W.kdf groupId participantId,
        Deduces (Computes W.kdf) (held mine commit) key.keyHex) ∧
      ∃ after ∈ applyIncomingCommit W mine channelId commit commit.epoch,
        after.epochSecretHex = next.epochSecretHex := by
  have secret := deduces_next removed member
  obtain ⟨after, applied, agree⟩ := applies_removal removed member
  exact ⟨fun excluded => excluded.secret secret,
    fun _ _ _ exported => deduces_mediaKey secret exported, after, applied, agree.2.1⟩

/-! ## Alice removes Bob -/

namespace Sample

def bobState : MlsLocalGroupState := { aliceState with myLeafIndex := 1 }

def bobRemoval : Option (MlsLocalGroupState × MlsCommitEnvelope) :=
  advanceEpoch crypto aliceState "chan_g" "alice" "bob"

theorem bobRemoval_isSome : bobRemoval.isSome := by rfl

theorem removed_never_excluded_sample : ∃ next commit, bobRemoval = some (next, commit) ∧
    ¬ Excluded crypto "chan_g" bobState commit next ∧
      (∀ groupId participantId, ∀ key ∈ next.exportGroupMediaKey crypto.kdf groupId participantId,
        Deduces (Computes crypto.kdf) (held bobState commit) key.keyHex) ∧
      ∃ after ∈ applyIncomingCommit crypto bobState "chan_g" commit commit.epoch,
        after.epochSecretHex = next.epochSecretHex := by
  obtain ⟨⟨next, commit⟩, removed⟩ := Option.isSome_iff_exists.mp bobRemoval_isSome
  exact ⟨next, commit, removed, removed_never_excluded removed ⟨rfl, rfl, rfl⟩⟩

/-- Bob's own `applyIncomingCommit` gives him the secret of the others. -/
theorem bob_applies_removal : ∃ next commit, bobRemoval = some (next, commit) ∧
    ¬ Excluded crypto "chan_g" bobState commit next := by
  obtain ⟨⟨next, commit⟩, removed⟩ := Option.isSome_iff_exists.mp bobRemoval_isSome
  have same : bobRemoval.bind (fun x =>
      (applyIncomingCommit crypto bobState "chan_g" x.2 x.2.epoch).map (·.epochSecretHex)) =
      bobRemoval.map (·.1.epochSecretHex) := by rfl
  rw [removed] at same
  obtain ⟨after, applied, secret⟩ := Option.map_eq_some_iff.mp same
  exact ⟨next, commit, removed, fun excluded => excluded.commit after applied secret⟩

end Sample

end GenChat.Group
