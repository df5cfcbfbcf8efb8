import GenChat.Mls.Agreement

/-!
# Where the ratchet trees stay equal

The committer changes its tree and the new member receives a copy, but `apply_commit` moves a
member on to the next epoch with the tree of the previous one. Trees agree in the runs in which
no remaining member depends on `apply_commit`.
-/
namespace GenChat.Mls
open Crypto Library MlsGroup World

variable {Block Bytes : Type}

/-- Members at one epoch have the same leaves, hence choose the same index for a new leaf and find
a user at the same place. A member that was removed is one until the commit that removed it. -/
def World.TreeAgreement (w : World Block Bytes) : Prop :=
  ∀ p ∈ w.parties, ∀ q ∈ w.parties, Receives p → Receives q → ∀ g ∈ p.group, ∀ g' ∈ q.group,
    g.epoch = g'.epoch → g.tree.leaves = g'.tree.leaves ∧
      (∀ leaf, (g.tree.addLeaf leaf).2 = (g'.tree.addLeaf leaf).2) ∧
      ∀ userId, g.tree.findLeafByUser userId = g'.tree.findLeafByUser userId

/-- No member applies a commit, unless it is the one that removes that member. -/
def NoBystander (w : World Block Bytes) : Action Block Bytes → Prop
  | .deliver i => ∀ p ∈ w.parties[i]?, p.removedAt = some (p.applied + 1)
  | _ => True

instance (w : World Block Bytes) : ∀ a : Action Block Bytes, Decidable (NoBystander w a)
  | .deliver i => inferInstanceAs (Decidable
    (∀ p ∈ w.parties[i]?, p.removedAt = some (p.applied + 1)))
  | .add _ _ _ | .join _ _ _ | .remove _ _ _ | .encrypt _ _ => .isTrue trivial

/-- `trees n` is the tree of epoch `n`. -/
structure World.Trees (trees : Nat → TreeKemTree Block) (w : World Block Bytes) : Prop where
  group : ∀ p ∈ w.parties, Receives p → ∀ g ∈ p.group, g.tree = trees p.applied
  welcome : ∀ p ∈ w.parties, ∀ welcome ∈ p.welcome, welcome.tree = trees p.joinedAt

variable {P : Primitives Block Bytes} {w w' : World Block Bytes} {i : Nat} {initial : Block}
  {trees : Nat → TreeKemTree Block}

/-! ## Steps -/

theorem World.Receives.of_markRemoved [DecidableEq Block] {p : Party Block Bytes}
    {g : MlsGroup Block} {userId : String} {n : Nat}
    (h : Receives (World.markRemoved g userId n p)) : Receives p := by
  obtain ⟨r, eq, rfl | ⟨current, -⟩⟩ := World.markRemoved_eq g userId n p
  · rwa [eq] at h
  · simp [Receives, current]

theorem World.Trees.update (h : w.Trees trees) {p q : Party Block Bytes}
    (hp : w.parties[i]? = some p) (sameWelcome : q.welcome = p.welcome)
    (sameJoinedAt : q.joinedAt = p.joinedAt)
    (hq : Receives q → ∀ g ∈ q.group, g.tree = trees q.applied) : (w.update i q).Trees trees where
  group r hr := by
    rcases List.mem_or_eq_of_mem_set hr with old | rfl
    · exact h.group r old
    · exact hq
  welcome r hr := by
    rcases List.mem_or_eq_of_mem_set hr with old | rfl
    · exact h.welcome r old
    · rw [sameWelcome, sameJoinedAt]
      exact h.welcome p (List.mem_of_getElem? hp)

/-- The tree of a new epoch is added without touching the earlier ones. -/
theorem World.Trees.extend (h : w.Trees trees) (agreement : w.Agreement P initial)
    (tree : TreeKemTree Block) : w.Trees (Function.update trees (w.commits.length + 1) tree) where
  group p hp receives g hg := by
    have le := (agreement.parties p hp).applied_le
    rw [Function.update_of_ne (by omega)]
    exact h.group p hp receives g hg
  welcome p hp welcome hw := by
    have le := (agreement.parties p hp).applied_le
    have joined := (agreement.parties p hp).joinedAt_le
    rw [Function.update_of_ne (by omega)]
    exact h.welcome p hp welcome hw

theorem World.Trees.add (seals : P.Seals) (agreement : w.Agreement P initial) (h : w.Trees trees)
    {kp : MlsKeyPackage Block Bytes} {rng : AddRandomness Block}
    (step : w.add P i kp rng = some w') : ∃ trees', w'.Trees trees' := by
  obtain ⟨p, g, hp, hg, ⟨e, failed, rfl⟩ | ⟨welcome, commit, ok, rfl⟩⟩ := World.add_cases step
  all_goals
    have mem := List.mem_of_getElem? hp
    obtain ⟨-, current, group⟩ := World.committer_eq_some.mp hg
  · obtain ⟨tree, eq, rfl | ⟨payload, unsealed⟩⟩ := addMember_error failed
    · refine ⟨trees, h.update hp rfl rfl fun receives g' hg' => ?_⟩
      rw [eq] at hg'
      cases hg'
      exact h.group p mem receives g group
    · obtain ⟨sealedSecrets, sealing⟩ := sealSecrets_total seals kp.hpkePublicKey payload rng
      rw [sealing] at unsealed
      cases unsealed
  · obtain ⟨⟨-, -, rfl⟩, rfl, moved⟩ := addMember_ok ok
    have extended := h.extend agreement (g.tree.addLeaf (leafOf kp)).1
    have self := extended.update hp (q := { p with
        group := some (g.addMember P kp rng).2, applied := w.commits.length + 1, sent := 0 })
      rfl rfl (by
        rintro - _ ⟨⟩
        rw [moved]
        simp [MlsGroup.advance])
    refine ⟨Function.update trees (w.commits.length + 1) (g.tree.addLeaf (leafOf kp)).1,
      fun q hq => ?_, fun q hq => ?_⟩
    all_goals rcases List.mem_append.mp hq with old | new
    · exact self.group q old
    · obtain rfl := List.mem_singleton.mp new
      rintro - _ ⟨⟩
    · exact self.welcome q old
    · obtain rfl := List.mem_singleton.mp new
      rintro _ ⟨⟩
      simp [World.invited]

theorem World.Trees.join [DecidableEq Block] (agreement : w.Agreement P initial)
    (h : w.Trees trees) {identity : IdentityKeyPair Block} {hpkeSecret : Block}
    (step : w.join P i identity hpkeSecret = some w') : w'.Trees trees := by
  obtain ⟨p, welcome, hp, hw, waiting, own, rfl | ⟨g, opened, rfl⟩⟩ := World.join_cases step
  · exact h
  · have mem := List.mem_of_getElem? hp
    refine h.update hp rfl rfl fun _ g' hg' => ?_
    cases hg'
    rw [(fromWelcome_ok opened).1, h.welcome p mem welcome hw,
      (agreement.parties p mem).pending waiting]

theorem World.Trees.remove [DecidableEq Block] (agreement : w.Agreement P initial)
    (h : w.Trees trees) {userId : String} {pathSecret : Block}
    (step : w.remove P i userId pathSecret = some w') : ∃ trees', w'.Trees trees' := by
  obtain ⟨p, g, hp, hg, rfl | ⟨commit, ok, rfl⟩⟩ := World.remove_cases step
  all_goals
    have mem := List.mem_of_getElem? hp
    obtain ⟨-, current, group⟩ := World.committer_eq_some.mp hg
  · refine ⟨trees, h.update hp rfl rfl fun receives g' hg' => ?_⟩
    cases hg'
    exact h.group p mem receives g group
  · obtain ⟨idx, found, rfl, moved⟩ := removeMember_ok ok
    have extended := h.extend agreement (g.tree.blankLeaf idx)
    have self := extended.update hp (q := { p with
        group := some (g.removeMember P userId pathSecret).2, applied := w.commits.length + 1,
        sent := 0 }) rfl rfl (by
      rintro - _ ⟨⟩
      rw [moved]
      simp [MlsGroup.advance])
    refine ⟨Function.update trees (w.commits.length + 1) (g.tree.blankLeaf idx),
      fun q hq => ?_, fun q hq => ?_⟩
    all_goals
      obtain ⟨q, old, rfl⟩ := List.mem_map.mp hq
      obtain ⟨r, eq, -⟩ := World.markRemoved_eq g userId (w.commits.length + 1) q
    · intro receives
      rw [eq]
      exact self.group q old receives.of_markRemoved
    · rw [eq]
      exact self.welcome q old

theorem World.Trees.deliver (h : w.Trees trees)
    (lonely : ∀ p ∈ w.parties[i]?, p.removedAt = some (p.applied + 1))
    (agreement : w.Agreement P initial) (step : w.deliver P i = some w') : w'.Trees trees := by
  obtain ⟨p, g, c, hp, hg, hc, -, ⟨e, failed, rfl⟩ | ⟨-, rfl⟩⟩ := World.deliver_cases step
  · rw [agreement.applyCommit (List.mem_of_getElem? hp) hg hc] at failed
    cases failed
  · refine h.update hp rfl rfl fun receives => ?_
    have gone := receives _ (lonely p hp)
    exact absurd gone (lt_irrefl _)

theorem World.Trees.encrypt (h : w.Trees trees) {plaintext : Bytes}
    (step : w.encrypt P i plaintext = some w') : w'.Trees trees := by
  obtain ⟨p, g, hp, hg, rfl⟩ := World.encrypt_cases step
  have moved := h.update hp (q := { p with
      group := some { g with messageGeneration := (g.messageGeneration + 1) % 2 ^ 32 }
      sent := p.sent + 1 }) rfl rfl (by
    rintro receives _ ⟨⟩
    exact h.group p (List.mem_of_getElem? hp) receives g hg)
  exact ⟨moved.group, moved.welcome⟩

theorem World.Trees.step [DecidableEq Block] (seals : P.Seals)
    (agreement : w.Agreement P initial) (h : w.Trees trees) {a : Action Block Bytes}
    (ok : NoBystander w a) (step : w.step P a = some w') : ∃ trees', w'.Trees trees' := by
  cases a with
  | add i kp rng => exact h.add seals agreement step
  | join i identity sk => exact ⟨trees, h.join agreement step⟩
  | remove i userId path => exact h.remove agreement step
  | deliver i => exact ⟨trees, h.deliver ok agreement step⟩
  | encrypt i plaintext => exact ⟨trees, h.encrypt step⟩

/-! ## Runs -/

theorem World.reach_trees [DecidableEq Block] (hP : P.Correct) (seals : P.Seals)
    (hw : (World.machine P).Reach NoBystander w) :
    ∃ initial trees, w.Agreement P initial ∧ w.Trees trees := by
  refine hw.invariant (I := fun w => ∃ initial trees, w.Agreement P initial ∧ w.Trees trees) ?_ ?_
  · rintro _ ⟨groupId, userId, deviceId, identity, keypair, secret, rfl⟩
    refine ⟨secret,
      fun _ => (MlsGroup.create P groupId userId deviceId identity keypair secret).tree,
      .start .., ⟨?_, ?_⟩⟩
    · rintro p hp - g hg
      rw [List.mem_singleton.mp hp] at hg
      cases hg
      rfl
    · intro p hp welcome hw
      rw [List.mem_singleton.mp hp] at hw
      cases hw
  · rintro w a w' ⟨initial, trees, agreement, h⟩ ok step
    obtain ⟨trees', h'⟩ := h.step seals agreement ok step
    exact ⟨initial, trees', agreement.step hP step, h'⟩

theorem tree_agreement [DecidableEq Block] (hP : P.Correct) (seals : P.Seals)
    (hw : (World.machine P).Reach NoBystander w) : w.TreeAgreement := by
  obtain ⟨initial, trees, agreement, h⟩ := World.reach_trees hP seals hw
  intro p hp q hq receives receives' g hg g' hg' same
  have meet : p.applied = q.applied := by
    rw [← ((agreement.parties p hp).atEpoch g hg).epoch, same,
      ((agreement.parties q hq).atEpoch g' hg').epoch]
  have trees_eq : g.tree = g'.tree := by
    rw [h.group p hp receives g hg, h.group q hq receives' g' hg', meet]
  simp [trees_eq]

/-! ## Runs over the symbolic primitives -/

section Sample
open Symbolic

/-- Alice adds Bob, who joins and adds Carol, who joins. -/
def sampleRelay : World Term Data :=
  ((World.machine symbolic).follow NoBystander sampleStart
    [sampleAdd 0 "bob" 1, sampleJoin 1 1, sampleAdd 1 "carol" 2, sampleJoin 2 2]).get (by decide)

theorem sampleRelay_reach : (World.machine symbolic).Reach NoBystander sampleRelay :=
  (Machine.Reach.start sampleStart_start).follow (Option.some_get _).symm

theorem tree_agreement_sample : sampleRelay.parties.length = 3 ∧ sampleRelay.TreeAgreement :=
  ⟨by decide, tree_agreement symbolic_correct symbolic_seals sampleRelay_reach⟩

/-- Alice adds Bob, who joins, and then Carol; Bob applies the second commit. -/
def sampleBystander : World Term Data :=
  ((World.machine symbolic).follow (fun _ _ => True) sampleStart
    [sampleAdd 0 "bob" 1, sampleJoin 1 1, sampleAdd 0 "carol" 2, .deliver 1]).get (by decide)

theorem sampleBystander_reachable : (World.machine symbolic).Reachable sampleBystander :=
  (Machine.Reach.start sampleStart_start).follow (Option.some_get _).symm

/-- Both are in epoch 2; Alice's next leaf is number 3, Bob's is number 2. -/
theorem bystander_tree_differs : (World.machine symbolic).Reachable sampleBystander ∧
    ¬ sampleBystander.TreeAgreement := by
  refine ⟨sampleBystander_reachable, fun agree => ?_⟩
  have same := agree _ (List.get_mem sampleBystander.parties ⟨0, by decide⟩) _
    (List.get_mem sampleBystander.parties ⟨1, by decide⟩) (by decide) (by decide)
    _ rfl _ rfl rfl
  exact absurd (congrArg List.length same.1) (by decide)

end Sample

end GenChat.Mls
