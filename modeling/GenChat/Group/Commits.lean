import GenChat.Group.Manager

/-!
# Commits

What `advanceEpoch` and `addMember` tell the other members, and what `applyIncomingCommit` makes of
it. The next secret is derived from the last one and from public texts only.
-/
namespace GenChat.Group
open Library BrowserText
open Call (Kdf Member MlsLocalGroupState GroupOp CommitAction)

/-- The empty text stands for no user. -/
structure MlsCommitEnvelope extends Call.MlsCommitEnvelope where
  groupId : String
  epoch : Nat
  committerId : String
  commitHashHex : String
  deriving DecidableEq

/-- `slice(0, 32)` of a secret. -/
def commitHash (secretHex : String) : String := String.ofList (secretHex.toList.take 32)

/-- The commit for the state that an operation has led to. -/
def commitEnvelope (channelId committerUserId : String) (next : MlsLocalGroupState) :
    GroupOp → Option MlsCommitEnvelope
  | .advanceEpoch removedUserId => some
    { groupId := channelId
      epoch := next.epoch
      committerId := committerUserId
      action := if removedUserId = "" then .rekey else .remove
      targetUserId := removedUserId
      addedMember := none
      commitHashHex := commitHash next.epochSecretHex }
  | .addMember newUserId _ => some
    { groupId := channelId
      epoch := next.epoch
      committerId := committerUserId
      action := .add
      targetUserId := newUserId
      addedMember := next.members.getLast?
      commitHashHex := commitHash next.epochSecretHex }
  | .applyIncomingCommit .. => none

section
variable {Private Public : Type} (W : WebCrypto Private Public)

/-- The next state and the commit. -/
def advanceEpoch (state : MlsLocalGroupState) (channelId committerUserId removedUserId : String) :
    Option (MlsLocalGroupState × MlsCommitEnvelope) := do
  let next ← nextState W state channelId (.advanceEpoch removedUserId)
  let commit ← commitEnvelope channelId committerUserId next (.advanceEpoch removedUserId)
  return (next, commit)

def applyIncomingCommit (state : MlsLocalGroupState) (channelId : String)
    (commit : MlsCommitEnvelope) (newEpoch : Nat) : Option MlsLocalGroupState :=
  nextState W state channelId (.applyIncomingCommit commit.toMlsCommitEnvelope newEpoch)

end

/-! ## Two states of one epoch -/

/-- Everything but the own leaf. -/
def Agree (a b : MlsLocalGroupState) : Prop :=
  a.epoch = b.epoch ∧ a.epochSecretHex = b.epochSecretHex ∧ a.members = b.members

end GenChat.Group
