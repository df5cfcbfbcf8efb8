import GenChat.Mls.Agreement

/-!
# When no message key meets a nonce twice

`encrypt_message` derives its key from the application secret and the generation, and its nonce
from the sender's leaf index and the generation. The pair is fresh as long as the leaf index is
the sender's own throughout the epoch, the 32-bit generation has not wrapped and the 64-bit epoch
has not either. The last two bounds are far away; the first one fails as soon as a member whose
tree lags behind adds somebody.
-/
namespace GenChat.Mls
open Crypto Library MlsGroup World

variable {Block Bytes : Type}

/-- The index the `i`-th member would assign belongs to no current member. -/
def FreshLeaf (w : World Block Bytes) (i : Nat) : Prop :=
  ∀ p ∈ w.parties[i]?, ∀ g ∈ w.committer p, ∀ q ∈ w.parties, q.removedAt = none →
    q.leafIndex % 2 ^ 32 ≠ g.tree.nextIndex % 2 ^ 32

instance (w : World Block Bytes) (i : Nat) : Decidable (FreshLeaf w i) := by
  unfold FreshLeaf; infer_instance

/-- The steps that keep nonces unique. -/
def KeepsNonces (w : World Block Bytes) : Action Block Bytes → Prop
  | .add i _ _ => FreshLeaf w i ∧ w.commits.length + 1 < 2 ^ 64
  | .remove _ _ _ => w.commits.length + 1 < 2 ^ 64
  | .encrypt i _ => ∀ p ∈ w.parties[i]?, p.sent < 2 ^ 32
  | _ => True

instance (w : World Block Bytes) (a : Action Block Bytes) : Decidable (KeepsNonces w a) := by
  cases a <;> unfold KeepsNonces <;> infer_instance

/-- A leaf index with the commits between which it was in use. -/
structure Seat where
  leafIndex : Nat
  joinedAt : Nat
  removedAt : Option Nat

def Party.seat (p : Party Block Bytes) : Seat := ⟨p.leafIndex, p.joinedAt, p.removedAt⟩

/-- One was given up before the other was taken, unless the indices differ in the nonce. -/
def Seat.Apart (a b : Seat) : Prop :=
  a.leafIndex % 2 ^ 32 = b.leafIndex % 2 ^ 32 →
    (∃ r ∈ a.removedAt, r < b.joinedAt) ∨ ∃ r ∈ b.removedAt, r < a.joinedAt

instance : Std.Symm fun p q : Party Block Bytes => p.seat.Apart q.seat :=
  ⟨fun _ _ h same => (h same.symm).symm⟩

variable (P : Primitives Block Bytes) (initial : Block)

/-- The message of generation `k` in epoch `n` by the holder of a leaf. -/
def encryptionAt (commits : List (MlsCommit Block)) (leafIndex n k : Nat) : Encryption Block :=
  ⟨messageKey P (secretsAt P initial commits n).2 k, messageNonce leafIndex k⟩

/-- The member sent this message, in an earlier epoch or earlier in its present one. -/
def Party.Sent (commits : List (MlsCommit Block)) (p : Party Block Bytes) (e : Encryption Block) :
    Prop :=
  ∃ n k, p.joinedAt ≤ n ∧ n ≤ p.applied ∧ (n = p.applied → k < p.sent) ∧ k < 2 ^ 32 ∧
    e = encryptionAt P initial commits p.leafIndex n k

structure World.Nonces (w : World Block Bytes) : Prop where
  short : w.commits.length < 2 ^ 64
  generation : ∀ p ∈ w.parties, ∀ g ∈ p.group, g.messageGeneration = p.sent % 2 ^ 32
  idle : ∀ p ∈ w.parties, p.group = none → p.sent = 0
  gone : ∀ p ∈ w.parties, ∀ r ∈ p.removedAt, p.applied ≤ r ∧ r ≤ w.commits.length
  apart : (w.parties.map Party.seat).Pairwise Seat.Apart
  logged : ∀ e ∈ w.log, ∃ p ∈ w.parties, p.Sent P initial w.commits e
  distinct : w.log.Nodup

variable {P initial} {w w' : World Block Bytes} {i : Nat} {commits : List (MlsCommit Block)}

/-! ## Keys and nonces determine epoch, generation and leaf -/

theorem deriveEpochSecrets_epoch (ideal : P.HkdfIdeal) {c c' : Block} {n m : Nat}
    {tag tag' : String}
    (h : (deriveEpochSecrets P c n tag).2 = (deriveEpochSecrets P c' m tag').2) :
    n % 2 ^ 64 = m % 2 ^ 64 := by
  obtain ⟨-, seeds, -⟩ := ideal _ _ _ _ _ _ h
  obtain ⟨-, infos, -⟩ := ideal _ _ _ _ _ _ (Option.some.inj (congrArg Ikm.secret seeds))
  exact (append_toBeBytes_inj (congrArg Ikm.bytes infos)).2

/-- Every application secret was derived with the number of its epoch. -/
theorem secretsAt_derived {n : Nat} (h : n ≤ commits.length) :
    ∃ c tag, (secretsAt P initial commits n).2 = (deriveEpochSecrets P c n tag).2 := by
  cases n with
  | zero => exact ⟨initial, "init", rfl⟩
  | succ n =>
    rw [secretsAt_succ (List.getElem?_eq_getElem (Nat.lt_of_succ_le h))]
    exact ⟨_, _, rfl⟩

theorem secretsAt_inj (ideal : P.HkdfIdeal) (short : commits.length < 2 ^ 64) {n m : Nat}
    (hn : n ≤ commits.length) (hm : m ≤ commits.length)
    (h : (secretsAt P initial commits n).2 = (secretsAt P initial commits m).2) : n = m := by
  obtain ⟨c, tag, en⟩ : ∃ c tag, (secretsAt P initial commits n).2 =
      (deriveEpochSecrets P c n tag).2 := secretsAt_derived hn
  obtain ⟨c', tag', em⟩ : ∃ c tag, (secretsAt P initial commits m).2 =
      (deriveEpochSecrets P c m tag).2 := secretsAt_derived hm
  rw [en, em] at h
  have := deriveEpochSecrets_epoch ideal h
  omega

theorem encryptionAt_inj (ideal : P.HkdfIdeal) (short : commits.length < 2 ^ 64)
    {l l' n n' k k' : Nat} (hn : n ≤ commits.length) (hn' : n' ≤ commits.length)
    (hk : k < 2 ^ 32) (hk' : k' < 2 ^ 32)
    (h : encryptionAt P initial commits l n k = encryptionAt P initial commits l' n' k') :
    n = n' ∧ k = k' ∧ l % 2 ^ 32 = l' % 2 ^ 32 := by
  obtain ⟨keys, nonces⟩ := Encryption.mk.inj h
  obtain ⟨-, ikm, -⟩ := ideal _ _ _ _ _ _ keys
  have epochs := secretsAt_inj ideal short hn hn' (Option.some.inj (congrArg Ikm.secret ikm))
  have generations := toBeBytes_inj.mp (congrArg Ikm.bytes ikm)
  have leaves := toBeBytes_inj.mp (List.append_inj nonces (by simp)).1
  exact ⟨epochs, by omega, by omega⟩

/-! ## Steps -/

/-- A message that a member is about to send was not sent before. -/
theorem World.Nonces.fresh (ideal : P.HkdfIdeal) (h : w.Nonces P initial)
    (agreement : w.Agreement P initial) {p : Party Block Bytes} (hp : p ∈ w.parties)
    (bound : p.sent < 2 ^ 32) :
    encryptionAt P initial w.commits p.leafIndex p.applied p.sent ∉ w.log := by
  intro mem
  obtain ⟨q, hq, n, k, joined, le, before, hk, eq⟩ := h.logged _ mem
  obtain ⟨rfl, rfl, leaves⟩ := encryptionAt_inj ideal h.short (agreement.parties p hp).applied_le
    (le.trans (agreement.parties q hq).applied_le) bound hk eq
  by_cases same : p = q
  · subst same
    exact absurd (before rfl) (lt_irrefl _)
  · -- Two holders of one leaf index are members at different times.
    have apart := (List.pairwise_map.mp h.apart).forall hp hq same
    have mine := (agreement.parties p hp).joinedAt_le
    obtain ⟨r, hr, lt⟩ | ⟨r, hr, lt⟩ := apart leaves
    · have := (h.gone p hp r hr).1
      simp only [Party.seat] at lt
      omega
    · have := (h.gone q hq r hr).1
      simp only [Party.seat] at lt
      omega

theorem World.Nonces.start {groupId userId deviceId : String} {identity : IdentityKeyPair Block}
    {hpkeKeypair : X25519KeyPair P} :
    (World.start P groupId userId deviceId identity hpkeKeypair initial).Nonces P initial where
  short := by simp [World.start]
  generation p hp g hg := by
    rw [List.mem_singleton.mp hp] at hg ⊢
    cases hg
    rfl
  idle p hp := by
    rw [List.mem_singleton.mp hp]
    exact fun _ => rfl
  gone p hp := by
    rw [List.mem_singleton.mp hp]
    rintro _ ⟨⟩
  apart := by simp [World.start]
  logged := by simp [World.start]
  distinct := by simp [World.start]

theorem Party.Sent.append {p : Party Block Bytes} {e : Encryption Block}
    (h : p.Sent P initial commits e) (le : p.applied ≤ commits.length)
    (more : List (MlsCommit Block)) : p.Sent P initial (commits ++ more) e := by
  obtain ⟨n, k, joined, applied, before, bound, rfl⟩ := h
  refine ⟨n, k, joined, applied, before, bound, ?_⟩
  rw [encryptionAt, encryptionAt, secretsAt_append more (applied.trans le)]

/-- A commit is added to the list; nobody has applied it yet. -/
theorem World.Nonces.extend (h : w.Nonces P initial) (agreement : w.Agreement P initial)
    (c : MlsCommit Block) (short : w.commits.length + 1 < 2 ^ 64) :
    World.Nonces P initial { w with commits := w.commits ++ [c] } where
  short := by simpa using short
  generation := h.generation
  idle := h.idle
  gone p hp r hr := by
    have := h.gone p hp r hr
    simp only [List.length_append, List.length_singleton]
    omega
  apart := h.apart
  logged e he := by
    obtain ⟨p, hp, sent⟩ := h.logged e he
    exact ⟨p, hp, sent.append (agreement.parties p hp).applied_le [c]⟩
  distinct := h.distinct

/-- A member moves on in its seat, to a later epoch or within its epoch. -/
theorem World.Nonces.update (h : w.Nonces P initial) {p q : Party Block Bytes}
    (hp : w.parties[i]? = some p) (seat : q.seat = p.seat)
    (generation : ∀ g ∈ q.group, g.messageGeneration = q.sent % 2 ^ 32)
    (idle : q.group = none → q.sent = 0)
    (gone : ∀ r ∈ q.removedAt, q.applied ≤ r)
    (later : p.applied < q.applied ∨ p.applied = q.applied ∧ p.sent ≤ q.sent) :
    (w.update i q).Nonces P initial where
  short := h.short
  generation a ha := by
    rcases List.mem_or_eq_of_mem_set ha with old | rfl
    · exact h.generation a old
    · exact generation
  idle a ha := by
    rcases List.mem_or_eq_of_mem_set ha with old | rfl
    · exact h.idle a old
    · exact idle
  gone a ha r hr := by
    rcases List.mem_or_eq_of_mem_set ha with old | rfl
    · exact h.gone a old r hr
    · have removed : a.removedAt = p.removedAt := congrArg Seat.removedAt seat
      exact ⟨gone r hr, (h.gone p (List.mem_of_getElem? hp) r (removed ▸ hr)).2⟩
  apart := by
    have same : (w.update i q).parties.map Party.seat = w.parties.map Party.seat := by
      rw [update_parties, List.map_set, seat]
      apply List.ext_getElem?
      intro j
      by_cases eq : i = j
      · subst eq
        obtain ⟨lt, at_⟩ := List.getElem?_eq_some_iff.mp hp
        simp [lt, ← at_]
      · simp [eq]
    exact same ▸ h.apart
  logged e he := by
    obtain ⟨a, ha, sent⟩ := h.logged e he
    obtain ⟨j, hj⟩ := List.mem_iff_getElem?.mp ha
    by_cases eq : i = j
    · subst eq
      obtain rfl : p = a := Option.some.inj (hp.symm.trans hj)
      have leaf : q.leafIndex = p.leafIndex := congrArg Seat.leafIndex seat
      have joinedAt : q.joinedAt = p.joinedAt := congrArg Seat.joinedAt seat
      obtain ⟨n, k, joined, applied, before, bound, rfl⟩ := sent
      refine ⟨q, List.mem_set (List.getElem?_eq_some_iff.mp hp).1 q, n, k, by omega, by omega,
        fun now => ?_, bound, by rw [leaf]; rfl⟩
      have := before (by omega)
      omega
    · exact ⟨a, List.mem_iff_getElem?.mpr ⟨j, by simp [eq, hj]⟩, sent⟩
  distinct := h.distinct

/-- A new member takes a seat that nobody holds. -/
theorem World.Nonces.seat (h : w.Nonces P initial) {p : Party Block Bytes}
    (new : p.removedAt = none ∧ p.group = none ∧ p.sent = 0)
    (free : ∀ q ∈ w.parties, q.seat.Apart p.seat) :
    World.Nonces P initial { w with parties := w.parties ++ [p] } where
  short := h.short
  generation q hq := by
    rcases List.mem_append.mp hq with old | last
    · exact h.generation q old
    · rw [List.mem_singleton.mp last, new.2.1]
      exact nofun
  idle q hq := by
    rcases List.mem_append.mp hq with old | last
    · exact h.idle q old
    · rw [List.mem_singleton.mp last]
      exact fun _ => new.2.2
  gone q hq := by
    rcases List.mem_append.mp hq with old | last
    · exact h.gone q old
    · rw [List.mem_singleton.mp last, new.1]
      exact nofun
  apart := by
    rw [List.map_append, List.pairwise_append]
    refine ⟨h.apart, by simp, ?_⟩
    simpa using free
  logged e he := by
    obtain ⟨q, hq, sent⟩ := h.logged e he
    exact ⟨q, List.mem_append_left _ hq, sent⟩
  distinct := h.distinct

theorem Party.Sent.mark {p : Party Block Bytes} {e : Encryption Block} {r : Option Nat}
    (h : p.Sent P initial commits e) : Party.Sent P initial commits { p with removedAt := r } e := h

/-- Members give up their seats at the latest commit. -/
theorem World.Nonces.leave [DecidableEq Block] (h : w.Nonces P initial)
    (all : ∀ p ∈ w.parties, p.applied ≤ w.commits.length) (g : MlsGroup Block) (userId : String) :
    World.Nonces P initial
      { w with parties := w.parties.map (markRemoved g userId w.commits.length) } where
  short := h.short
  generation q hq := by
    obtain ⟨p, hp, rfl⟩ := List.mem_map.mp hq
    obtain ⟨r, eq, -⟩ := markRemoved_eq g userId w.commits.length p
    exact eq ▸ h.generation p hp
  idle q hq := by
    obtain ⟨p, hp, rfl⟩ := List.mem_map.mp hq
    obtain ⟨r, eq, -⟩ := markRemoved_eq g userId w.commits.length p
    exact eq ▸ h.idle p hp
  gone q hq := by
    obtain ⟨p, hp, rfl⟩ := List.mem_map.mp hq
    obtain ⟨r, eq, rfl | ⟨-, rfl⟩⟩ := markRemoved_eq g userId w.commits.length p
    · exact eq ▸ h.gone p hp
    · rw [eq]
      rintro _ ⟨⟩
      exact ⟨all p hp, le_rfl⟩
  apart := by
    rw [List.map_map, List.pairwise_map]
    refine (List.pairwise_map.mp h.apart).imp fun {a b} apart => ?_
    obtain ⟨r, eq, hr⟩ := markRemoved_eq g userId w.commits.length a
    obtain ⟨r', eq', hr'⟩ := markRemoved_eq g userId w.commits.length b
    simp only [Function.comp, eq, eq']
    intro same
    -- A seat that was given up before stays as it is.
    refine (apart same).imp ?_ ?_
    · rintro ⟨n, hn, lt⟩
      obtain rfl | ⟨none, -⟩ := hr
      · exact ⟨n, hn, lt⟩
      · simp [Party.seat, none] at hn
    · rintro ⟨n, hn, lt⟩
      obtain rfl | ⟨none, -⟩ := hr'
      · exact ⟨n, hn, lt⟩
      · simp [Party.seat, none] at hn
  logged e he := by
    obtain ⟨p, hp, sent⟩ := h.logged e he
    obtain ⟨r, eq, -⟩ := markRemoved_eq g userId w.commits.length p
    exact ⟨_, List.mem_map_of_mem hp, eq ▸ sent.mark⟩
  distinct := h.distinct

theorem World.Nonces.send (h : w.Nonces P initial) {e : Encryption Block}
    (fresh : e ∉ w.log) {p : Party Block Bytes} (hp : p ∈ w.parties)
    (sent : p.Sent P initial w.commits e) :
    World.Nonces P initial { w with log := w.log ++ [e] } where
  short := h.short
  generation := h.generation
  idle := h.idle
  gone := h.gone
  apart := h.apart
  logged e' he' := by
    rcases List.mem_append.mp he' with old | last
    · exact h.logged e' old
    · rw [List.mem_singleton.mp last]
      exact ⟨p, hp, sent⟩
  distinct := by
    rw [List.nodup_append]
    refine ⟨h.distinct, by simp, ?_⟩
    rintro a ha b hb rfl
    exact fresh (List.mem_singleton.mp hb ▸ ha)

theorem World.Nonces.add (h : w.Nonces P initial) (agreement : w.Agreement P initial)
    {kp : MlsKeyPackage Block Bytes} {rng : AddRandomness Block} (free : FreshLeaf w i)
    (short : w.commits.length + 1 < 2 ^ 64) (step : w.add P i kp rng = some w') :
    w'.Nonces P initial := by
  obtain ⟨p, g, hp, hg, ⟨e, failed, rfl⟩ | ⟨welcome, commit, ok, rfl⟩⟩ := World.add_cases step
  all_goals
    have mem := List.mem_of_getElem? hp
    obtain ⟨current, applied, group⟩ := World.committer_eq_some.mp hg
  · obtain ⟨tree, eq, -⟩ := addMember_error failed
    refine h.update hp rfl ?_ nofun (fun r hr => (h.gone p mem r hr).1) (.inr ⟨rfl, le_rfl⟩)
    rintro _ ⟨⟩
    rw [eq]
    exact h.generation p mem g group
  · obtain ⟨-, -, moved⟩ := addMember_ok ok
    have extended := (h.extend agreement commit short).update hp (q := { p with
        group := some (g.addMember P kp rng).2, applied := w.commits.length + 1, sent := 0 })
      rfl (by rintro _ ⟨⟩; rw [moved]; rfl) nofun (by simp [current])
      (.inl (by simp [applied]))
    refine extended.seat ⟨rfl, rfl, rfl⟩ fun q hq same => ?_
    -- Whoever held the index before has left it by now.
    have held : ∃ q' ∈ w.parties, q'.seat = q.seat := by
      rcases List.mem_or_eq_of_mem_set hq with old | rfl
      · exact ⟨q, old, rfl⟩
      · exact ⟨p, mem, rfl⟩
    obtain ⟨q', hq', seat⟩ := held
    rw [← seat] at same ⊢
    cases removed : q'.removedAt with
    | none => exact absurd same (free p hp g hg q' hq' removed)
    | some r => exact .inl ⟨r, removed, Nat.lt_succ_of_le (h.gone q' hq' r removed).2⟩

theorem World.Nonces.join [DecidableEq Block] (h : w.Nonces P initial)
    {identity : IdentityKeyPair Block} {hpkeSecret : Block}
    (step : w.join P i identity hpkeSecret = some w') : w'.Nonces P initial := by
  obtain ⟨p, welcome, hp, -, waiting, -, rfl | ⟨g, opened, rfl⟩⟩ := World.join_cases step
  · exact h
  · have mem := List.mem_of_getElem? hp
    refine h.update hp rfl ?_ nofun (fun r hr => (h.gone p mem r hr).1)
      (.inr ⟨rfl, (h.idle p mem waiting).le⟩)
    rintro _ ⟨⟩
    rw [(fromWelcome_ok opened).2]
    rfl

theorem World.Nonces.remove [DecidableEq Block] (h : w.Nonces P initial)
    (agreement : w.Agreement P initial) {userId : String} {pathSecret : Block}
    (short : w.commits.length + 1 < 2 ^ 64) (step : w.remove P i userId pathSecret = some w') :
    w'.Nonces P initial := by
  obtain ⟨p, g, hp, hg, rfl | ⟨commit, ok, rfl⟩⟩ := World.remove_cases step
  all_goals
    have mem := List.mem_of_getElem? hp
    obtain ⟨current, applied, group⟩ := World.committer_eq_some.mp hg
  · refine h.update hp rfl ?_ nofun (fun r hr => (h.gone p mem r hr).1) (.inr ⟨rfl, le_rfl⟩)
    rintro _ ⟨⟩
    exact h.generation p mem g group
  · obtain ⟨idx, -, -, moved⟩ := removeMember_ok ok
    have extended := (h.extend agreement commit short).update hp (q := { p with
        group := some (g.removeMember P userId pathSecret).2, applied := w.commits.length + 1,
        sent := 0 }) rfl (by rintro _ ⟨⟩; rw [moved]; rfl) nofun (by simp [current])
      (.inl (by simp [applied]))
    have all : ∀ q ∈ w.parties.set i { p with
        group := some (g.removeMember P userId pathSecret).2, applied := w.commits.length + 1,
        sent := 0 }, q.applied ≤ (w.commits ++ [commit]).length := by
      intro q hq
      rcases List.mem_or_eq_of_mem_set hq with old | rfl
      · have := (agreement.parties q old).applied_le
        simp only [List.length_append, List.length_singleton]
        omega
      · simp
    simpa using extended.leave all g userId

theorem World.Nonces.deliver (h : w.Nonces P initial) (agreement : w.Agreement P initial)
    (step : w.deliver P i = some w') : w'.Nonces P initial := by
  obtain ⟨p, g, c, hp, hg, hc, receives, ⟨e, failed, rfl⟩ | ⟨-, rfl⟩⟩ := World.deliver_cases step
  all_goals
    have mem := List.mem_of_getElem? hp
    have applies := agreement.applyCommit mem hg hc
  · rw [applies] at failed
    cases failed
  · refine h.update hp rfl ?_ nofun (fun r hr => receives r hr) (.inl (Nat.lt_succ_self _))
    rintro _ ⟨⟩
    rw [applies]
    rfl

theorem World.Nonces.encrypt (ideal : P.HkdfIdeal) (h : w.Nonces P initial)
    (agreement : w.Agreement P initial) {plaintext : Bytes}
    (bound : ∀ p ∈ w.parties[i]?, p.sent < 2 ^ 32)
    (step : w.encrypt P i plaintext = some w') : w'.Nonces P initial := by
  obtain ⟨p, g, hp, hg, rfl⟩ := World.encrypt_cases step
  have mem := List.mem_of_getElem? hp
  have agrees := agreement.parties p mem
  have generation := h.generation p mem g hg
  have lt : p.sent < 2 ^ 32 := bound p hp
  have entry : (⟨messageKey P g.applicationSecret g.messageGeneration,
      messageNonce g.myLeafIndex g.messageGeneration⟩ : Encryption Block) =
      encryptionAt P initial w.commits p.leafIndex p.applied p.sent := by
    rw [generation, Nat.mod_eq_of_lt lt, (agrees.atEpoch g hg).applicationSecret,
      agrees.leafIndex g hg]
    rfl
  have moved := h.update hp (q := { p with
      group := some { g with messageGeneration := (g.messageGeneration + 1) % 2 ^ 32 }
      sent := p.sent + 1 }) rfl (by rintro _ ⟨⟩; simp only; omega) nofun
    (fun r hr => (h.gone p mem r hr).1) (.inr ⟨rfl, Nat.le_succ _⟩)
  rw [entry]
  exact moved.send (h.fresh ideal agreement mem lt)
    (List.mem_set (List.getElem?_eq_some_iff.mp hp).1 _)
    ⟨p.applied, p.sent, agrees.joinedAt_le, le_rfl, fun _ => Nat.lt_succ_self _, lt, rfl⟩

theorem World.Nonces.step [DecidableEq Block] (ideal : P.HkdfIdeal) (h : w.Nonces P initial)
    (agreement : w.Agreement P initial) {a : Action Block Bytes} (ok : KeepsNonces w a)
    (step : w.step P a = some w') : w'.Nonces P initial := by
  cases a with
  | add i kp rng => exact h.add agreement ok.1 ok.2 step
  | join i identity sk => exact h.join step
  | remove i userId path => exact h.remove agreement ok step
  | deliver i => exact h.deliver agreement step
  | encrypt i plaintext => exact h.encrypt ideal agreement ok step

/-! ## Runs -/

theorem nonce_unique [DecidableEq Block] (hP : P.Correct) (ideal : P.HkdfIdeal)
    (hw : (World.machine P).Reach KeepsNonces w) :
    w.log.Pairwise fun e e' => ¬ (e.key = e'.key ∧ e.nonce = e'.nonce) := by
  obtain ⟨initial, agreement, h⟩ : ∃ initial, w.Agreement P initial ∧ w.Nonces P initial := by
    refine hw.invariant (I := fun w => ∃ initial, w.Agreement P initial ∧ w.Nonces P initial)
      ?_ ?_
    · rintro _ ⟨groupId, userId, deviceId, identity, keypair, secret, rfl⟩
      exact ⟨secret, .start .., .start⟩
    · rintro w a w' ⟨initial, agreement, h⟩ ok step
      exact ⟨initial, agreement.step hP step, h.step ideal agreement ok step⟩
  refine h.distinct.imp ?_
  rintro ⟨key, nonce⟩ ⟨key', nonce'⟩ different ⟨rfl, rfl⟩
  exact different rfl

/-! ## Runs over the symbolic primitives -/

section Sample
open Symbolic

def sampleEncrypt (i : Nat) : Action Term Data := .encrypt i (.text "hello")

/-- Alice adds Bob and Carol; everybody writes twice. -/
def sampleChat : World Term Data :=
  ((World.machine symbolic).follow KeepsNonces sampleStart
    [sampleAdd 0 "bob" 1, sampleJoin 1 1, sampleAdd 0 "carol" 2, sampleJoin 2 2, .deliver 1,
      sampleEncrypt 0, sampleEncrypt 1, sampleEncrypt 2, sampleEncrypt 0, sampleEncrypt 1,
      sampleEncrypt 2]).get (by decide)

theorem sampleChat_reach : (World.machine symbolic).Reach KeepsNonces sampleChat :=
  (Machine.Reach.start sampleStart_start).follow (Option.some_get _).symm

theorem nonce_unique_sample : sampleChat.log.length = 6 ∧
    sampleChat.log.Pairwise fun e e' => ¬ (e.key = e'.key ∧ e.nonce = e'.nonce) :=
  ⟨by decide, nonce_unique symbolic_correct symbolic_hkdfIdeal sampleChat_reach⟩

/-- Bob, whose tree lacks Carol, adds Dave at Carol's index; Carol and Dave write. -/
def sampleCollision : World Term Data :=
  ((World.machine symbolic).follow (fun _ _ => True) sampleStart
    [sampleAdd 0 "bob" 1, sampleJoin 1 1, sampleAdd 0 "carol" 2, sampleJoin 2 2, .deliver 1,
      sampleAdd 1 "dave" 3, sampleJoin 3 3, .deliver 2, sampleEncrypt 2,
      sampleEncrypt 3]).get (by decide)

theorem nonce_collision : (World.machine symbolic).Reachable sampleCollision ∧
    ¬ sampleCollision.log.Pairwise fun e e' => ¬ (e.key = e'.key ∧ e.nonce = e'.nonce) :=
  ⟨(Machine.Reach.start sampleStart_start).follow (Option.some_get _).symm, by decide⟩

end Sample

end GenChat.Mls
