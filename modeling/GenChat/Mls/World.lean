import GenChat.Library.Machine
import GenChat.Mls.Group

/-!
# Runs of one group

A world holds every member of one group, the commits broadcast so far in their order, and a log
of the AES-GCM encryptions. Members commit one at a time: a commit is issued by a current member
that has applied all earlier commits. Its delivery to the others is asynchronous, but each
receives the commits in order and once. An added member exists from its addition on and starts
when it opens its own Welcome; a removed member receives nothing after the commit that removed it.

`leafIndex`, `joinedAt`, `removedAt`, `applied` and `sent` are bookkeeping of the run, not state
of the program.
-/
namespace GenChat.Mls
open Crypto Library MlsGroup

variable {Block Bytes : Type}

structure Party (Block Bytes : Type) where
  userId : String
  deviceId : String
  publicKey : Block
  /-- The Welcome of its own addition; `none` for the creator. -/
  welcome : Option (MlsWelcome Block Bytes)
  /-- The leaf index assigned when it was added. -/
  leafIndex : Nat
  /-- The number of the commit that added it, counted from 1; 0 for the creator. -/
  joinedAt : Nat
  /-- The number of the commit that removed it. -/
  removedAt : Option Nat
  /-- `none` until it opens its Welcome. -/
  group : Option (MlsGroup Block)
  /-- How many commits its state includes. -/
  applied : Nat
  /-- How many messages it encrypted since its last epoch change. -/
  sent : Nat
  deriving DecidableEq

/-- One call of the AES-GCM encryption inside `encrypt_message`. -/
structure Encryption (Block : Type) where
  key : Block
  nonce : List UInt8
  deriving DecidableEq

structure World (Block Bytes : Type) where
  parties : List (Party Block Bytes)
  commits : List (MlsCommit Block)
  log : List (Encryption Block)
  deriving DecidableEq

inductive Action (Block Bytes : Type) where
  | add (i : Nat) (kp : MlsKeyPackage Block Bytes) (rng : AddRandomness Block)
  | join (i : Nat) (identity : IdentityKeyPair Block) (hpkeSecret : Block)
  | remove (i : Nat) (userId : String) (pathSecret : Block)
  | deliver (i : Nat)
  | encrypt (i : Nat) (plaintext : Bytes)
  deriving DecidableEq

namespace World
variable (P : Primitives Block Bytes)

def start (groupId userId deviceId : String) (identity : IdentityKeyPair Block)
    (hpkeKeypair : X25519KeyPair P) (initialEpochSecret : Block) : World Block Bytes :=
  let g := MlsGroup.create P groupId userId deviceId identity hpkeKeypair initialEpochSecret
  { parties := [{ userId, deviceId, publicKey := hpkeKeypair.pub, welcome := none,
                  leafIndex := g.myLeafIndex, joinedAt := 0, removedAt := none,
                  group := some g, applied := 0, sent := 0 }]
    commits := []
    log := [] }

/-- The state of a current member that has applied every commit so far. -/
def committer (w : World Block Bytes) (p : Party Block Bytes) : Option (MlsGroup Block) :=
  if p.removedAt = none ∧ p.applied = w.commits.length then p.group else none

def update (w : World Block Bytes) (i : Nat) (p : Party Block Bytes) : World Block Bytes :=
  { w with parties := w.parties.set i p }

/-- The member that `add_member` creates by handing out a Welcome. -/
def invited (kp : MlsKeyPackage Block Bytes) (welcome : MlsWelcome Block Bytes)
    (leafIndex joinedAt : Nat) : Party Block Bytes :=
  { userId := kp.userId, deviceId := kp.deviceId, publicKey := kp.hpkePublicKey,
    welcome := some welcome, leafIndex, joinedAt, removedAt := none, group := none,
    applied := joinedAt, sent := 0 }

def add (w : World Block Bytes) (i : Nat) (kp : MlsKeyPackage Block Bytes)
    (rng : AddRandomness Block) : Option (World Block Bytes) :=
  w.parties[i]?.bind fun p => (w.committer p).bind fun g =>
    let r := g.addMember P kp rng
    match r.1 with
    | .error _ => some (w.update i { p with group := some r.2 })
    | .ok (welcome, commit) =>
      let n := w.commits.length + 1
      let w' := w.update i { p with group := some r.2, applied := n, sent := 0 }
      some { w' with
        parties := w'.parties ++ [invited kp welcome g.tree.nextIndex n]
        commits := w.commits ++ [commit] }

def join [DecidableEq Block] (w : World Block Bytes) (i : Nat) (identity : IdentityKeyPair Block)
    (hpkeSecret : Block) : Option (World Block Bytes) :=
  w.parties[i]?.bind fun p => p.welcome.bind fun welcome =>
    if p.group.isNone ∧ P.x25519Public hpkeSecret = p.publicKey then
      match fromWelcome P welcome identity hpkeSecret with
      | .error _ => some w
      | .ok g => some (w.update i { p with group := some g, sent := 0 })
    else none

/-- Mark the member whose leaf the `n`-th commit blanked. -/
def markRemoved [DecidableEq Block] (g : MlsGroup Block) (userId : String) (n : Nat)
    (p : Party Block Bytes) : Party Block Bytes :=
  match g.tree.findLeafByUser userId with
  | none => p
  | some idx =>
    match g.tree.leaves[idx]? with
    | none => p
    | some leaf =>
      if p.removedAt = none ∧ p.leafIndex = idx ∧ p.userId = leaf.userId ∧
          p.deviceId = leaf.deviceId ∧ p.publicKey = leaf.publicKey
      then { p with removedAt := some n } else p

def remove [DecidableEq Block] (w : World Block Bytes) (i : Nat) (userId : String)
    (pathSecret : Block) : Option (World Block Bytes) :=
  w.parties[i]?.bind fun p => (w.committer p).bind fun g =>
    let r := g.removeMember P userId pathSecret
    match r.1 with
    | .error _ => some (w.update i { p with group := some r.2 })
    | .ok commit =>
      let n := w.commits.length + 1
      let w' := w.update i { p with group := some r.2, applied := n, sent := 0 }
      some { w' with
        parties := w'.parties.map (markRemoved g userId n)
        commits := w.commits ++ [commit] }

/-- Whether the next commit is still meant for this member. -/
def Receives (p : Party Block Bytes) : Prop := ∀ r ∈ p.removedAt, p.applied < r

instance (p : Party Block Bytes) : Decidable (Receives p) :=
  inferInstanceAs (Decidable (∀ r ∈ p.removedAt, p.applied < r))

def deliver (w : World Block Bytes) (i : Nat) : Option (World Block Bytes) :=
  w.parties[i]?.bind fun p => p.group.bind fun g => w.commits[p.applied]?.bind fun commit =>
    if Receives p then
      let r := g.applyCommit P commit
      match r.1 with
      | .error _ => some (w.update i { p with group := some r.2 })
      | .ok () =>
        some (w.update i { p with group := some r.2, applied := p.applied + 1, sent := 0 })
    else none

def encrypt (w : World Block Bytes) (i : Nat) (plaintext : Bytes) : Option (World Block Bytes) :=
  w.parties[i]?.bind fun p => p.group.bind fun g =>
    let w' := w.update i
      { p with group := some (g.encryptMessage P plaintext).2, sent := p.sent + 1 }
    some { w' with
      log := w.log ++ [⟨messageKey P g.applicationSecret g.messageGeneration,
        messageNonce g.myLeafIndex g.messageGeneration⟩] }

def step [DecidableEq Block] (w : World Block Bytes) : Action Block Bytes →
    Option (World Block Bytes)
  | .add i kp rng => w.add P i kp rng
  | .join i identity hpkeSecret => w.join P i identity hpkeSecret
  | .remove i userId pathSecret => w.remove P i userId pathSecret
  | .deliver i => w.deliver P i
  | .encrypt i plaintext => w.encrypt P i plaintext

/-- The runs of one group, from its creation on. -/
def machine [DecidableEq Block] : Machine (World Block Bytes) (Action Block Bytes) where
  start w := ∃ groupId userId deviceId identity hpkeKeypair secret,
    w = World.start P groupId userId deviceId identity hpkeKeypair secret
  step := step P

/-! ## What each action does -/

variable {P} {w w' : World Block Bytes} {i : Nat}

theorem committer_eq_some {p : Party Block Bytes} {g : MlsGroup Block} :
    w.committer p = some g ↔ p.removedAt = none ∧ p.applied = w.commits.length ∧
      p.group = some g := by
  simp only [committer]
  split
  · rename_i h; simp [h]
  · rename_i h; simp only [reduceCtorEq, false_iff]; rintro ⟨a, b, -⟩; exact h ⟨a, b⟩

theorem add_cases {kp : MlsKeyPackage Block Bytes} {rng : AddRandomness Block}
    (h : w.add P i kp rng = some w') :
    ∃ p g, w.parties[i]? = some p ∧ w.committer p = some g ∧
      ((∃ e, (g.addMember P kp rng).1 = .error e ∧
          w' = w.update i { p with group := some (g.addMember P kp rng).2 }) ∨
       ∃ welcome commit, (g.addMember P kp rng).1 = .ok (welcome, commit) ∧
          w' = { w with
            parties := w.parties.set i { p with group := some (g.addMember P kp rng).2,
                                                applied := w.commits.length + 1, sent := 0 } ++
              [invited kp welcome g.tree.nextIndex (w.commits.length + 1)]
            commits := w.commits ++ [commit] }) := by
  obtain ⟨p, hp, h⟩ := Option.bind_eq_some_iff.mp h
  obtain ⟨g, hg, h⟩ := Option.bind_eq_some_iff.mp h
  refine ⟨p, g, hp, hg, ?_⟩
  dsimp only at h
  split at h
  · rename_i e failed
    exact .inl ⟨e, failed, (Option.some.inj h).symm⟩
  · rename_i welcome commit ok
    exact .inr ⟨welcome, commit, ok, (Option.some.inj h).symm⟩

theorem join_cases [DecidableEq Block] {identity : IdentityKeyPair Block} {hpkeSecret : Block}
    (h : w.join P i identity hpkeSecret = some w') :
    ∃ p welcome, w.parties[i]? = some p ∧ p.welcome = some welcome ∧ p.group = none ∧
      P.x25519Public hpkeSecret = p.publicKey ∧
      (w' = w ∨ ∃ g, fromWelcome P welcome identity hpkeSecret = .ok g ∧
        w' = w.update i { p with group := some g, sent := 0 }) := by
  obtain ⟨p, hp, h⟩ := Option.bind_eq_some_iff.mp h
  obtain ⟨welcome, hw, h⟩ := Option.bind_eq_some_iff.mp h
  split at h
  case isFalse => cases h
  case isTrue own =>
    refine ⟨p, welcome, hp, hw, by simpa using own.1, own.2, ?_⟩
    split at h
    · exact .inl (Option.some.inj h).symm
    · rename_i g opened
      exact .inr ⟨g, opened, (Option.some.inj h).symm⟩

theorem remove_cases [DecidableEq Block] {userId : String} {pathSecret : Block}
    (h : w.remove P i userId pathSecret = some w') :
    ∃ p g, w.parties[i]? = some p ∧ w.committer p = some g ∧
      (w' = w.update i { p with group := some g } ∨
       ∃ commit, (g.removeMember P userId pathSecret).1 = .ok commit ∧
          w' = { w with
            parties := (w.parties.set i
                { p with group := some (g.removeMember P userId pathSecret).2,
                         applied := w.commits.length + 1, sent := 0 }).map
              (markRemoved g userId (w.commits.length + 1))
            commits := w.commits ++ [commit] }) := by
  obtain ⟨p, hp, h⟩ := Option.bind_eq_some_iff.mp h
  obtain ⟨g, hg, h⟩ := Option.bind_eq_some_iff.mp h
  refine ⟨p, g, hp, hg, ?_⟩
  dsimp only at h
  split at h
  · rename_i e failed
    rw [removeMember_error failed] at h
    exact .inl (Option.some.inj h).symm
  · rename_i commit ok
    exact .inr ⟨commit, ok, (Option.some.inj h).symm⟩

theorem deliver_cases (h : w.deliver P i = some w') :
    ∃ p g commit, w.parties[i]? = some p ∧ p.group = some g ∧
      w.commits[p.applied]? = some commit ∧ Receives p ∧
      ((∃ e, (g.applyCommit P commit).1 = .error e ∧
          w' = w.update i { p with group := some (g.applyCommit P commit).2 }) ∨
       ((g.applyCommit P commit).1 = .ok () ∧
          w' = w.update i { p with group := some (g.applyCommit P commit).2,
                                   applied := p.applied + 1, sent := 0 })) := by
  obtain ⟨p, hp, h⟩ := Option.bind_eq_some_iff.mp h
  obtain ⟨g, hg, h⟩ := Option.bind_eq_some_iff.mp h
  obtain ⟨commit, hc, h⟩ := Option.bind_eq_some_iff.mp h
  split at h
  case isFalse => cases h
  case isTrue receives =>
    refine ⟨p, g, commit, hp, hg, hc, receives, ?_⟩
    dsimp only at h
    split at h
    · rename_i e failed
      exact .inl ⟨e, failed, (Option.some.inj h).symm⟩
    · rename_i ok
      exact .inr ⟨ok, (Option.some.inj h).symm⟩

theorem encrypt_cases {plaintext : Bytes} (h : w.encrypt P i plaintext = some w') :
    ∃ p g, w.parties[i]? = some p ∧ p.group = some g ∧
      w' = { w.update i { p with
              group := some { g with messageGeneration := (g.messageGeneration + 1) % 2 ^ 32 }
              sent := p.sent + 1 } with
        log := w.log ++ [⟨messageKey P g.applicationSecret g.messageGeneration,
          messageNonce g.myLeafIndex g.messageGeneration⟩] } := by
  obtain ⟨p, hp, h⟩ := Option.bind_eq_some_iff.mp h
  obtain ⟨g, hg, h⟩ := Option.bind_eq_some_iff.mp h
  exact ⟨p, g, hp, hg, by rw [← Option.some.inj h, encryptMessage_snd]⟩

/-- `markRemoved` changes nothing but the mark. -/
theorem markRemoved_eq [DecidableEq Block] (g : MlsGroup Block) (userId : String) (n : Nat)
    (p : Party Block Bytes) : ∃ r, markRemoved g userId n p = { p with removedAt := r } ∧
      (r = p.removedAt ∨ p.removedAt = none ∧ r = some n) := by
  unfold markRemoved
  split
  · exact ⟨p.removedAt, rfl, .inl rfl⟩
  · split
    · exact ⟨p.removedAt, rfl, .inl rfl⟩
    · split
      · rename_i current
        exact ⟨some n, rfl, .inr ⟨current.1, rfl⟩⟩
      · exact ⟨p.removedAt, rfl, .inl rfl⟩

@[simp] theorem update_commits (p : Party Block Bytes) : (w.update i p).commits = w.commits := rfl
@[simp] theorem update_log (p : Party Block Bytes) : (w.update i p).log = w.log := rfl
@[simp] theorem update_parties (p : Party Block Bytes) :
    (w.update i p).parties = w.parties.set i p := rfl

end World
end GenChat.Mls
