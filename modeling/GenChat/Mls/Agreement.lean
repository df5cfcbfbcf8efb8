import GenChat.Crypto.Symbolic
import GenChat.Mls.World

/-!
# Members of one epoch hold the same secrets

The secrets of an epoch are a function of the initial secret and of the context tags of the
commits so far: `secretsAt`. Committers, receivers and joiners all compute this function, each in
its own way, so two members at one epoch agree.
-/
namespace GenChat.Mls
open Crypto Library MlsGroup

variable {Block Bytes : Type} (P : Primitives Block Bytes)

/-- Epoch secret and application secret after the first `n` commits. -/
def secretsAt (initial : Block) (commits : List (MlsCommit Block)) : Nat → Block × Block
  | 0 => (initial, (deriveEpochSecrets P initial 0 "init").2)
  | n + 1 =>
    let previous := secretsAt initial commits n
    match commits[n]? with
    | none => previous
    | some c => deriveEpochSecrets P previous.1 (n + 1) (contextTag c)

variable {P} {initial : Block} {commits : List (MlsCommit Block)}

theorem secretsAt_succ {n : Nat} {c : MlsCommit Block} (h : commits[n]? = some c) :
    secretsAt P initial commits (n + 1) =
      deriveEpochSecrets P (secretsAt P initial commits n).1 (n + 1) (contextTag c) := by
  simp [secretsAt, h]

/-- A new commit leaves the earlier epochs as they were. -/
theorem secretsAt_append (more : List (MlsCommit Block)) {n : Nat} (h : n ≤ commits.length) :
    secretsAt P initial (commits ++ more) n = secretsAt P initial commits n := by
  induction n with
  | zero => rfl
  | succ n ih =>
    have lt : n < commits.length := h
    simp [secretsAt, ih lt.le, List.getElem?_append_left lt]

variable (P) in
/-- The state `g` belongs to epoch `n`. -/
structure MlsGroup.AtEpoch (initial : Block) (commits : List (MlsCommit Block)) (n : Nat)
    (g : MlsGroup Block) : Prop where
  epoch : g.epoch = n
  epochSecret : g.epochSecret = (secretsAt P initial commits n).1
  applicationSecret : g.applicationSecret = (secretsAt P initial commits n).2

/-- The leaf a Welcome names for its recipient. -/
def OwnLeaf (p : Party Block Bytes) (tree : TreeKemTree Block) : Prop :=
  ∃ leaf, tree.leaves[p.leafIndex]? = some leaf ∧ leaf.isBlank = false ∧
    leaf.userId = p.userId ∧ leaf.deviceId = p.deviceId ∧ leaf.publicKey = p.publicKey

variable (P) in
/-- What holds of one member. -/
structure Party.Agrees (initial : Block) (commits : List (MlsCommit Block))
    (p : Party Block Bytes) : Prop where
  joinedAt_le : p.joinedAt ≤ p.applied
  applied_le : p.applied ≤ commits.length
  pending : p.group = none → p.applied = p.joinedAt
  atEpoch : ∀ g ∈ p.group, g.AtEpoch P initial commits p.applied
  leafIndex : ∀ g ∈ p.group, g.myLeafIndex = p.leafIndex
  ownKey : ∀ g ∈ p.group, P.x25519Public g.myHpkeSecret = p.publicKey
  ownLeaf : ∀ welcome ∈ p.welcome, OwnLeaf p welcome.tree
  opens : ∀ welcome ∈ p.welcome, ∀ identity sk, P.x25519Public sk = p.publicKey →
    ∃ g, fromWelcome P welcome identity sk = .ok g ∧ g.AtEpoch P initial commits p.joinedAt ∧
      g.myLeafIndex = p.leafIndex ∧ g.myHpkeSecret = sk

variable (P) in
structure World.Agreement (initial : Block) (w : World Block Bytes) : Prop where
  numbered : ∀ n c, w.commits[n]? = some c → c.epoch = n + 1
  parties : ∀ p ∈ w.parties, p.Agrees P initial w.commits

/-! ## Steps of one member -/

theorem MlsGroup.AtEpoch.append {n : Nat} {g : MlsGroup Block}
    (h : g.AtEpoch P initial commits n) (more : List (MlsCommit Block))
    (le : n ≤ commits.length) : g.AtEpoch P initial (commits ++ more) n := by
  obtain ⟨epoch, es, as⟩ := h
  exact ⟨epoch, by rw [secretsAt_append _ le, es], by rw [secretsAt_append _ le, as]⟩

/-- Moving on with the tag of the next commit leads to its epoch. -/
theorem MlsGroup.AtEpoch.advance {n : Nat} {g : MlsGroup Block} {c : MlsCommit Block}
    (h : g.AtEpoch P initial commits n) (next : commits[n]? = some c) :
    (g.advance (g.epoch + 1) (deriveEpochSecrets P g.epochSecret (g.epoch + 1)
      (contextTag c))).AtEpoch P initial commits (n + 1) := by
  obtain ⟨epoch, es, as⟩ := h
  refine ⟨by simp [MlsGroup.advance, epoch], ?_, ?_⟩ <;>
    simp [MlsGroup.advance, secretsAt_succ next, es, epoch]

theorem Party.Agrees.append {p : Party Block Bytes} (h : p.Agrees P initial commits)
    (more : List (MlsCommit Block)) : p.Agrees P initial (commits ++ more) where
  joinedAt_le := h.joinedAt_le
  applied_le := by simpa using h.applied_le.trans (Nat.le_add_right _ _)
  pending := h.pending
  atEpoch g hg := (h.atEpoch g hg).append more h.applied_le
  leafIndex := h.leafIndex
  ownKey := h.ownKey
  ownLeaf := h.ownLeaf
  opens welcome hw identity sk own := by
    obtain ⟨g, ok, atEpoch, rest⟩ := h.opens welcome hw identity sk own
    exact ⟨g, ok, atEpoch.append more (h.joinedAt_le.trans h.applied_le), rest⟩

/-- Replacing a member's state, and how far it has come, by one of the right epoch. -/
theorem Party.Agrees.withGroup {p : Party Block Bytes} (h : p.Agrees P initial commits)
    {g : MlsGroup Block} {applied sent : Nat} (joined : p.joinedAt ≤ applied)
    (le : applied ≤ commits.length) (atEpoch : g.AtEpoch P initial commits applied)
    (leafIndex : g.myLeafIndex = p.leafIndex)
    (ownKey : P.x25519Public g.myHpkeSecret = p.publicKey) :
    Party.Agrees P initial commits { p with group := some g, applied, sent } where
  joinedAt_le := joined
  applied_le := le
  pending := nofun
  atEpoch := by rintro _ ⟨⟩; exact atEpoch
  leafIndex := by rintro _ ⟨⟩; exact leafIndex
  ownKey := by rintro _ ⟨⟩; exact ownKey
  ownLeaf := h.ownLeaf
  opens := h.opens

theorem Party.Agrees.markRemoved [DecidableEq Block] {p : Party Block Bytes}
    (h : p.Agrees P initial commits) (g : MlsGroup Block) (userId : String) (n : Nat) :
    (World.markRemoved g userId n p).Agrees P initial commits := by
  obtain ⟨r, eq, -⟩ := World.markRemoved_eq g userId n p
  rw [eq]
  exact ⟨h.joinedAt_le, h.applied_le, h.pending, h.atEpoch, h.leafIndex, h.ownKey, h.ownLeaf,
    h.opens⟩

/-- The next commit is never refused. -/
theorem World.Agreement.applyCommit {w : World Block Bytes} (h : w.Agreement P initial)
    {p : Party Block Bytes} (hp : p ∈ w.parties) {g : MlsGroup Block} (hg : p.group = some g)
    {c : MlsCommit Block} (next : w.commits[p.applied]? = some c) :
    g.applyCommit P c = (.ok (), g.advance (g.epoch + 1)
      (deriveEpochSecrets P g.epochSecret (g.epoch + 1) (contextTag c))) := by
  apply applyCommit_eq
  rw [h.numbered _ _ next, ((h.parties p hp).atEpoch g hg).epoch]

/-! ## Steps of the world -/

section Step
variable {w w' : World Block Bytes} {i : Nat}

theorem World.Agreement.start (groupId userId deviceId : String)
    (identity : IdentityKeyPair Block) (hpkeKeypair : X25519KeyPair P) (secret : Block) :
    (World.start P groupId userId deviceId identity hpkeKeypair secret).Agreement P secret where
  numbered n c h := by simp [World.start] at h
  parties p hp := by
    rw [List.mem_singleton.mp hp]
    refine ⟨le_rfl, le_rfl, nofun, ?_, ?_, ?_, nofun, nofun⟩ <;> rintro _ ⟨⟩
    · exact ⟨rfl, rfl, rfl⟩
    · rfl
    · exact hpkeKeypair.pub_eq.symm

/-- Replacing one member by one that agrees. -/
theorem World.Agreement.update (h : w.Agreement P initial) {p : Party Block Bytes}
    (hp : p.Agrees P initial w.commits) : (w.update i p).Agreement P initial where
  numbered := h.numbered
  parties q hq := by
    rcases List.mem_or_eq_of_mem_set hq with old | rfl
    · exact h.parties q old
    · exact hp

/-- A new commit that carries the next number. -/
theorem World.Agreement.commit (h : w.Agreement P initial) {c : MlsCommit Block}
    (number : c.epoch = w.commits.length + 1) {ps : List (Party Block Bytes)}
    (hps : ∀ p ∈ ps, p.Agrees P initial (w.commits ++ [c])) :
    World.Agreement P initial { w with parties := ps, commits := w.commits ++ [c] } where
  numbered n c' next := by
    rcases lt_trichotomy n w.commits.length with lt | rfl | gt
    · exact h.numbered n c' (by simpa [List.getElem?_append_left lt] using next)
    · obtain rfl : c = c' := by simpa using next
      exact number
    · simp [gt] at next
  parties := hps

/-- The committer's own state after the commit it issues. -/
theorem World.Agreement.committed (h : w.Agreement P initial) {p : Party Block Bytes}
    (hp : p ∈ w.parties) {g : MlsGroup Block} (hg : w.committer p = some g)
    (tree : TreeKemTree Block) {tag : String} {c : MlsCommit Block} (tagged : contextTag c = tag) :
    Party.Agrees P initial (w.commits ++ [c])
      { p with
        group := some ({ g with tree := tree }.advance (g.epoch + 1)
          (deriveEpochSecrets P g.epochSecret (g.epoch + 1) tag))
        applied := w.commits.length + 1, sent := 0 } := by
  obtain ⟨-, current, group⟩ := World.committer_eq_some.mp hg
  have agrees := h.parties p hp
  have now := (agrees.atEpoch g group).append [c] agrees.applied_le
  rw [current] at now
  have next : (w.commits ++ [c])[w.commits.length]? = some c := by simp
  have moved : MlsGroup.AtEpoch P initial (w.commits ++ [c]) w.commits.length
      { g with tree := tree } := ⟨now.epoch, now.epochSecret, now.applicationSecret⟩
  refine (agrees.append [c]).withGroup ?_ (by simp) (tagged ▸ moved.advance next)
    (agrees.leafIndex g group) (agrees.ownKey g group)
  have := agrees.joinedAt_le
  omega

theorem contextTag_commitOf {g : MlsGroup Block} {n : Nat} {tag : String} (path : Block)
    (h : tag ≠ "") : contextTag (commitOf P g n tag path) = tag := by
  simp [contextTag, commitOf, h]

theorem World.Agreement.add (hP : P.Correct) (h : w.Agreement P initial)
    {kp : MlsKeyPackage Block Bytes} {rng : AddRandomness Block}
    (step : w.add P i kp rng = some w') : w'.Agreement P initial := by
  obtain ⟨p, g, hp, hg, ⟨e, failed, rfl⟩ | ⟨welcome, commit, ok, rfl⟩⟩ := World.add_cases step
  all_goals
    have mem := List.mem_of_getElem? hp
    obtain ⟨-, current, group⟩ := World.committer_eq_some.mp hg
    have agrees := h.parties p mem
    have now := agrees.atEpoch g group
  · -- A failing call may have touched the tree, which no secret depends on.
    obtain ⟨tree, eq, -⟩ := addMember_error failed
    rw [eq]
    exact h.update (agrees.withGroup agrees.joinedAt_le agrees.applied_le
      ⟨now.epoch, now.epochSecret, now.applicationSecret⟩ (agrees.leafIndex g group)
      (agrees.ownKey g group))
  · obtain ⟨⟨sealedSecrets, sealing, rfl⟩, rfl, moved⟩ := addMember_ok ok
    rw [moved]
    have number : g.epoch = w.commits.length := by rw [now.epoch, current]
    have tagged := contextTag_commitOf (P := P)
      (g := { g with tree := (g.tree.addLeaf (leafOf kp)).1 }) (n := g.epoch + 1) rng.pathSecret
      (show "add_member" ≠ "" by decide)
    have self := h.committed mem hg (g.tree.addLeaf (leafOf kp)).1 tagged
    refine h.commit (by simp [commitOf, number]) ?_
    intro q hq
    rcases List.mem_append.mp hq with old | new
    · rcases List.mem_or_eq_of_mem_set old with old | rfl
      · exact (h.parties q old).append _
      · exact self
    · obtain rfl := List.mem_singleton.mp new
      have there := self.atEpoch _ rfl
      refine ⟨le_rfl, by simp [World.invited], fun _ => rfl, nofun, nofun, nofun, ?_, ?_⟩ <;>
        rintro _ ⟨⟩
      · refine ⟨leafOf kp, ?_, rfl, rfl, rfl, rfl⟩
        simp [World.invited, TreeKemTree.getElem?_addLeaf]
      · intro identity sk own
        exact ⟨_, fromWelcome_sealed hP own sealing _ _ _ _,
          ⟨there.epoch, there.epochSecret, there.applicationSecret⟩, rfl, rfl⟩

theorem World.Agreement.join [DecidableEq Block] (h : w.Agreement P initial)
    {identity : IdentityKeyPair Block} {hpkeSecret : Block}
    (step : w.join P i identity hpkeSecret = some w') : w'.Agreement P initial := by
  obtain ⟨p, welcome, hp, hw, waiting, own, rfl | ⟨g, opened, rfl⟩⟩ := World.join_cases step
  · exact h
  · have agrees := h.parties p (List.mem_of_getElem? hp)
    obtain ⟨g', opened', atEpoch, leaf, key⟩ := agrees.opens welcome hw identity hpkeSecret own
    obtain rfl : g' = g := by rw [opened] at opened'; cases opened'; rfl
    rw [← agrees.pending waiting] at atEpoch
    exact h.update (agrees.withGroup agrees.joinedAt_le agrees.applied_le atEpoch leaf
      (key ▸ own))

theorem World.Agreement.remove [DecidableEq Block] (h : w.Agreement P initial) {userId : String}
    {pathSecret : Block} (step : w.remove P i userId pathSecret = some w') :
    w'.Agreement P initial := by
  obtain ⟨p, g, hp, hg, rfl | ⟨commit, ok, rfl⟩⟩ := World.remove_cases step
  all_goals
    have mem := List.mem_of_getElem? hp
    obtain ⟨-, current, group⟩ := World.committer_eq_some.mp hg
    have agrees := h.parties p mem
    have now := agrees.atEpoch g group
  · exact h.update (agrees.withGroup agrees.joinedAt_le agrees.applied_le now
      (agrees.leafIndex g group) (agrees.ownKey g group))
  · obtain ⟨idx, found, rfl, moved⟩ := removeMember_ok ok
    rw [moved]
    have number : g.epoch = w.commits.length := by rw [now.epoch, current]
    have self := h.committed mem hg (g.tree.blankLeaf idx) (contextTag_commitOf (P := P)
      (g := { g with tree := g.tree.blankLeaf idx }) (n := g.epoch + 1) pathSecret
      (show "remove_member" ≠ "" by decide))
    refine h.commit (by simp [commitOf, number]) ?_
    intro q hq
    obtain ⟨q', hq', rfl⟩ := List.mem_map.mp hq
    rcases List.mem_or_eq_of_mem_set hq' with old | rfl
    · exact ((h.parties q' old).append _).markRemoved g userId _
    · exact self.markRemoved g userId _

theorem World.Agreement.deliver (h : w.Agreement P initial) (step : w.deliver P i = some w') :
    w'.Agreement P initial := by
  obtain ⟨p, g, c, hp, hg, hc, -, ⟨e, failed, rfl⟩ | ⟨-, rfl⟩⟩ := World.deliver_cases step
  all_goals
    have mem := List.mem_of_getElem? hp
    have applies := h.applyCommit mem hg hc
  · rw [applies] at failed
    cases failed
  · rw [applies]
    have agrees := h.parties p mem
    obtain ⟨lt, -⟩ := List.getElem?_eq_some_iff.mp hc
    exact h.update (agrees.withGroup (agrees.joinedAt_le.trans (Nat.le_succ _)) lt
      ((agrees.atEpoch g hg).advance hc) (agrees.leafIndex g hg) (agrees.ownKey g hg))

theorem World.Agreement.encrypt (h : w.Agreement P initial) {plaintext : Bytes}
    (step : w.encrypt P i plaintext = some w') : w'.Agreement P initial := by
  obtain ⟨p, g, hp, hg, rfl⟩ := World.encrypt_cases step
  have agrees := h.parties p (List.mem_of_getElem? hp)
  have now := agrees.atEpoch g hg
  let g' := { g with messageGeneration := (g.messageGeneration + 1) % 2 ^ 32 }
  have sent : Party.Agrees P initial w.commits { p with group := some g', sent := p.sent + 1 } :=
    agrees.withGroup agrees.joinedAt_le agrees.applied_le
      ⟨now.epoch, now.epochSecret, now.applicationSecret⟩ (agrees.leafIndex g hg)
      (agrees.ownKey g hg)
  have moved := h.update (i := i) sent
  exact ⟨moved.numbered, moved.parties⟩

theorem World.Agreement.step [DecidableEq Block] (hP : P.Correct) (h : w.Agreement P initial)
    {a : Action Block Bytes} (step : w.step P a = some w') : w'.Agreement P initial := by
  cases a with
  | add i kp rng => exact h.add hP step
  | join i identity sk => exact h.join step
  | remove i userId path => exact h.remove step
  | deliver i => exact h.deliver step
  | encrypt i plaintext => exact h.encrypt step

/-- A current member with nothing left to deliver has applied every commit. -/
theorem World.Agreement.applied_eq (h : w.Agreement P initial) {p : Party Block Bytes}
    {g : MlsGroup Block} (hp : w.parties[i]? = some p) (current : p.removedAt = none)
    (hg : p.group = some g) (idle : w.deliver P i = none) : p.applied = w.commits.length := by
  have agrees := h.parties p (List.mem_of_getElem? hp)
  cases next : w.commits[p.applied]? with
  | none => exact le_antisymm agrees.applied_le (List.getElem?_eq_none_iff.mp next)
  | some c =>
    have receives : Receives p := by simp [Receives, current]
    simp [World.deliver, hp, hg, next, receives,
      h.applyCommit (List.mem_of_getElem? hp) hg next] at idle

end Step

/-! ## Every run -/

section Runs
variable [DecidableEq Block] {w : World Block Bytes}

theorem World.reachable_agreement (hP : P.Correct)
    {ok : World Block Bytes → Action Block Bytes → Prop} 
    (hw : (World.machine P).Reach ok w) : ∃ initial, w.Agreement P initial := by
  refine hw.invariant (I := fun w => ∃ initial, w.Agreement P initial) ?_ ?_
  · rintro _ ⟨groupId, userId, deviceId, identity, keypair, secret, rfl⟩
    exact ⟨secret, .start ..⟩
  · rintro w a w' ⟨initial, h⟩ - step
    exact ⟨initial, h.step hP step⟩

/-- What the members of one group agree on. -/
structure World.SecretAgreement (P : Primitives Block Bytes) (w : World Block Bytes) : Prop where
  sameSecrets : ∀ p ∈ w.parties, ∀ q ∈ w.parties, ∀ g ∈ p.group, ∀ g' ∈ q.group,
    g.epoch = g'.epoch → g.epochSecret = g'.epochSecret ∧ g.applicationSecret = g'.applicationSecret
  /-- The epoch counts the commits that reached the member. -/
  countsCommits : ∀ p ∈ w.parties, ∀ g ∈ p.group,
    g.epoch = p.applied ∧ p.applied ≤ w.commits.length
  upToDate : ∀ i p g, w.parties[i]? = some p → p.removedAt = none → p.group = some g →
    w.deliver P i = none → g.epoch = w.commits.length
  joinerLeaf : ∀ p ∈ w.parties, ∀ welcome ∈ p.welcome, ∀ g ∈ p.group,
    ∃ leaf, welcome.tree.leaves[g.myLeafIndex]? = some leaf ∧ leaf.isBlank = false ∧
      leaf.userId = p.userId ∧ leaf.deviceId = p.deviceId ∧ leaf.publicKey = p.publicKey ∧
      leaf.publicKey = P.x25519Public g.myHpkeSecret

theorem secret_agreement (hP : P.Correct) (hw : (World.machine P).Reachable w) :
    w.SecretAgreement P := by
  obtain ⟨initial, h⟩ := World.reachable_agreement hP hw
  refine ⟨?_, ?_, ?_, ?_⟩
  · intro p hp q hq g hg g' hg' same
    have mine := (h.parties p hp).atEpoch g hg
    have other := (h.parties q hq).atEpoch g' hg'
    have meet : p.applied = q.applied := by rw [← mine.epoch, same, other.epoch]
    exact ⟨by rw [mine.epochSecret, other.epochSecret, meet],
      by rw [mine.applicationSecret, other.applicationSecret, meet]⟩
  · intro p hp g hg
    exact ⟨((h.parties p hp).atEpoch g hg).epoch, (h.parties p hp).applied_le⟩
  · intro i p g hp current hg idle
    rw [((h.parties p (List.mem_of_getElem? hp)).atEpoch g hg).epoch]
    exact h.applied_eq hp current hg idle
  · intro p hp welcome hw g hg
    have agrees := h.parties p hp
    obtain ⟨leaf, at_, active, user, device, key⟩ := agrees.ownLeaf welcome hw
    exact ⟨leaf, agrees.leafIndex g hg ▸ at_, active, user, device, key,
      key.trans (agrees.ownKey g hg).symm⟩

/-- A joiner never fails to open its Welcome. -/
theorem join_succeeds (hP : P.Correct) (hw : (World.machine P).Reachable w) {i : Nat}
    {p : Party Block Bytes} {welcome : MlsWelcome Block Bytes} (hp : w.parties[i]? = some p)
    (invited : p.welcome = some welcome) (waiting : p.group = none)
    (identity : IdentityKeyPair Block) {sk : Block} (own : P.x25519Public sk = p.publicKey) :
    ∃ g, w.join P i identity sk = some (w.update i { p with group := some g, sent := 0 }) ∧
      g.epoch = p.joinedAt := by
  obtain ⟨initial, h⟩ := World.reachable_agreement hP hw
  obtain ⟨g, opened, atEpoch, -⟩ :=
    (h.parties p (List.mem_of_getElem? hp)).opens welcome invited identity sk own
  exact ⟨g, by simp [World.join, hp, invited, waiting, own, opened], atEpoch.epoch⟩

end Runs

/-! ## A run over the symbolic primitives -/

section Sample
open Symbolic

def sampleIdentity (n : Nat) : IdentityKeyPair Term := ⟨.atom (2 * n)⟩

/-- The key package of a user whose keys are made of atoms `2 * n` and `2 * n + 1`. -/
def samplePackage (userId : String) (n : Nat) : MlsKeyPackage Term Data :=
  .new symbolic userId "phone" (sampleIdentity n) (.generate symbolic (.atom (2 * n + 1)))

def sampleRandomness (n : Nat) : AddRandomness Term :=
  ⟨.atom (100 + 2 * n), List.replicate 12 0, .atom (101 + 2 * n)⟩

def sampleAdd (i : Nat) (userId : String) (n : Nat) : Action Term Data :=
  .add i (samplePackage userId n) (sampleRandomness n)

def sampleJoin (i n : Nat) : Action Term Data :=
  .join i (sampleIdentity n) (.atom (2 * n + 1))

/-- Alice alone. -/
def sampleStart : World Term Data :=
  .start symbolic "g" "alice" "phone" (sampleIdentity 0) (.generate symbolic (.atom 1)) (.atom 99)

theorem sampleStart_start : (World.machine symbolic).start sampleStart :=
  ⟨_, _, _, _, _, _, rfl⟩

/-- Alice adds Bob and then Carol; Bob, who has joined, follows and adds Dave. -/
def sampleScript : List (Action Term Data) :=
  [sampleAdd 0 "bob" 1, sampleJoin 1 1, sampleAdd 0 "carol" 2, .deliver 1, sampleAdd 1 "dave" 3,
    sampleJoin 2 2, sampleJoin 3 3]

def sampleWorld : World Term Data :=
  ((World.machine symbolic).follow (fun _ _ => True) sampleStart sampleScript).get (by decide)

theorem sampleWorld_reachable : (World.machine symbolic).Reachable sampleWorld :=
  (Machine.Reach.start sampleStart_start).follow (Option.some_get _).symm

theorem secret_agreement_sample : sampleWorld.parties.length = 4 ∧
    sampleWorld.SecretAgreement symbolic :=
  ⟨by decide, secret_agreement symbolic_correct sampleWorld_reachable⟩

end Sample

end GenChat.Mls
