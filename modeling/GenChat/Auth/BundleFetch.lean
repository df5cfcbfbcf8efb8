import GenChat.Auth.PreKeyUpload

/-!
# Whose keys a fetch returns

`FetchPreKeyBundle` takes a user and a device. It looks for a device of the user only if none is
named; a named device is served whoever owns it. The one-time key is taken in a transaction, so a
refusal gives it back, unless the commit takes effect and is reported as failed.
-/
namespace GenChat.Auth
open Library
open Ledger (Bytes Table)

/-! ## What a fetch reads -/

/-- The device whose keys a statement of the transaction reads. -/
def Op.keysOf : Op → Option UUID
  | .selectIdentityKey d | .selectPreKeys d | .takeOneTimeKey _ d => some d
  | _ => none

/-- The keys of the bundle stand in the rows of the device. -/
structure KeysOf (db : Database) (d : UUID) (b : PreKeyBundle) : Prop where
  identityKey : (db.devices.lookup d).map Device.identityKey = some b.identityKey
  preKeys : ∃ row, db.preKeys.lookup (d, b.signedPreKey.1) = some row ∧
    b.signedPreKey.2 = (row.spk, row.spkSig) ∧
    ∀ k ∈ b.pqPreKey, k = (row.pqpkID, row.pqpk, row.pqpkSig)
  oneTimePreKey : ∀ k ∈ b.oneTimePreKey,
    db.oneTimeKeys.lookup (d, k.1) = some ⟨k.2, false⟩

/-- The bundle consists of keys of one device of the user, and the run has read no others. -/
def OwnBundle (db : Database) (u : UUID) (trace : List (Op × Choice)) (b : PreKeyBundle) : Prop :=
  ∃ d, db.owner d = some u ∧ (∀ x ∈ trace, ∀ e ∈ x.1.keysOf, e = d) ∧ KeysOf db d b

def Database.Consumed (db : Database) (k : UUID × Nat) : Prop :=
  ∃ key, db.oneTimeKeys.lookup k = some key ∧ key.isConsumed = true

/-- A one-time key was taken, and the commit took effect all the same. -/
def LostCommit (trace : List (Op × Choice)) : Prop :=
  ∃ tx d n, (.takeOneTimeKey tx d, .row n) ∈ trace ∧ (.commit tx, .failApplied) ∈ trace

/-! ## Locks -/

/-- Locks belong to transactions that have begun. -/
def Server.Numbered (s : Server) : Prop := ∀ k tx, s.locks.lookup k = some tx → tx < s.begun

namespace Server
variable {s s' : Server} {op : Op} {c : Choice} {r : Ret op} {tx : Nat} {k : UUID × Nat}

theorem mem_lockedBy : k ∈ s.lockedBy tx ↔ s.locks.lookup k = some tx := by
  unfold lockedBy
  rw [List.mem_map]
  constructor
  · rintro ⟨⟨k, t⟩, he, rfl⟩
    obtain ⟨mem, same⟩ := List.mem_filter.mp he
    have same : t = tx := by simpa using same
    exact AList.mem_lookup_iff.mpr (same ▸ mem)
  · intro h
    exact ⟨⟨k, tx⟩, List.mem_filter.mpr ⟨AList.mem_lookup_iff.mp h, by simp⟩, rfl⟩

theorem foldl_erase_lookup {ks : List (UUID × Nat)} {locks : Table (UUID × Nat) Nat}
    (h : (ks.foldl (fun locks k => locks.erase k) locks).lookup k = some tx) :
    locks.lookup k = some tx := by
  induction ks generalizing locks with
  | nil => exact h
  | cons k' rest ih =>
    have kept := ih h
    by_cases same : k = k'
    · subst same
      rw [AList.lookup_erase] at kept
      cases kept
    · rwa [AList.lookup_erase_ne same] at kept

/-- A row is locked by the statement that takes it, for the transaction of the statement. -/
theorem exec_locks (h : s.exec op c = some (r, s')) : s.begun ≤ s'.begun ∧ ∀ k tx,
    s'.locks.lookup k = some tx → s.locks.lookup k = some tx ∨ ∃ d, op = .takeOneTimeKey tx d := by
  cases op
  case createChannel | joinChannel | leaveChannel | saveMlsWelcome | saveMlsCommit |
      updateDeviceIdentityKey | uploadPreKeyBundle | uploadOneTimeKeys | saveMlsKeyPackage |
      registerPushToken | unregisterPushToken | createAuthSession | revokeAuthSession =>
    simp only [exec] at h
    obtain ⟨rfl, -⟩ | ⟨d, -, rfl, -⟩ := write_cases h
    · exact ⟨le_rfl, fun _ _ => .inl⟩
    · exact ⟨le_rfl, fun _ _ => .inl⟩
  case commit tx =>
    cases c <;> cases h <;> exact ⟨le_rfl, fun _ _ held => .inl (foldl_erase_lookup held)⟩
  case rollback tx =>
    cases c <;> cases h
    exact ⟨le_rfl, fun _ _ held => .inl (foldl_erase_lookup held)⟩
  case begin => cases c <;> cases h <;> exact ⟨by simp, fun _ _ => .inl⟩
  case now | newUUID | allow =>
    cases c <;> cases h
    exact ⟨le_rfl, fun _ _ => .inl⟩
  case takeOneTimeKey tx d =>
    cases c
    case row n =>
      obtain ⟨found, -, h⟩ := Option.map_eq_some_iff.mp h
      cases h
      refine ⟨le_rfl, fun k t held => ?_⟩
      by_cases same : k = (d, n)
      · subst same
        rw [AList.lookup_insert] at held
        cases held
        exact .inr ⟨d, rfl⟩
      · exact .inl (by rwa [AList.lookup_insert_ne same] at held)
    case ok =>
      simp only [exec] at h
      split at h <;> cases h
      exact ⟨le_rfl, fun _ _ => .inl⟩
    all_goals cases h
    exact ⟨le_rfl, fun _ _ => .inl⟩
  case getAuthSession =>
    cases c
    case row n =>
      obtain ⟨found, -, h⟩ := Option.map_eq_some_iff.mp h
      cases h
      exact ⟨le_rfl, fun _ _ => .inl⟩
    case ok =>
      simp only [exec] at h
      split at h <;> cases h
      exact ⟨le_rfl, fun _ _ => .inl⟩
    all_goals cases h
    exact ⟨le_rfl, fun _ _ => .inl⟩
  all_goals
    obtain ⟨rfl, -⟩ := query_eq_some.mp h
    exact ⟨le_rfl, fun _ _ => .inl⟩

/-- The numbering survives every operation of a transaction that has begun. -/
theorem exec_numbered (h : s.exec op c = some (r, s')) (numbered : s.Numbered)
    (known : ∀ tx d, op = .takeOneTimeKey tx d → tx < s.begun) : s'.Numbered := by
  obtain ⟨later, locked⟩ := exec_locks h
  intro k tx held
  rcases locked k tx held with before | ⟨d, rfl⟩
  · exact (numbered k tx before).trans_le later
  · exact (known tx d rfl).trans_le later

end Server

/-! ## One-time keys -/

namespace Database
variable {db : Database} {k : UUID × Nat} {ks : List (UUID × Nat)}

theorem Consumed.consume (h : db.Consumed k) (k' : UUID × Nat) :
    (db.consumeOneTimeKey k').Consumed k := by
  obtain ⟨key, found, consumed⟩ := h
  unfold consumeOneTimeKey
  split
  · rename_i key' found'
    by_cases same : k = k'
    · exact ⟨_, by rw [same]; exact AList.lookup_insert _, rfl⟩
    · exact ⟨key, by rw [← found]; exact AList.lookup_insert_ne same, consumed⟩
  · exact ⟨key, found, consumed⟩

theorem Consumed.consumeAll (h : db.Consumed k) : (ks.foldl consumeOneTimeKey db).Consumed k := by
  induction ks generalizing db with
  | nil => exact h
  | cons k' rest ih => exact ih (h.consume k')

theorem consumed_of_present (present : k ∈ db.oneTimeKeys) :
    (db.consumeOneTimeKey k).Consumed k := by
  obtain ⟨key, found⟩ := Option.isSome_iff_exists.mp (AList.lookup_isSome.mpr present)
  unfold consumeOneTimeKey
  rw [found]
  exact ⟨_, AList.lookup_insert _, rfl⟩

theorem consumeOneTimeKey_mem {k' : UUID × Nat} (present : k ∈ db.oneTimeKeys) :
    k ∈ (db.consumeOneTimeKey k').oneTimeKeys := by
  unfold consumeOneTimeKey
  split
  · exact AList.mem_insert _ |>.mpr (.inr present)
  · exact present

theorem consumeAll_consumed (present : k ∈ db.oneTimeKeys) (mem : k ∈ ks) :
    (ks.foldl consumeOneTimeKey db).Consumed k := by
  induction ks generalizing db with
  | nil => cases mem
  | cons k' rest ih =>
    obtain rfl | later := List.mem_cons.mp mem
    · exact (consumed_of_present present).consumeAll
    · exact ih (consumeOneTimeKey_mem present) later

end Database

/-! ## Runs of a fetch -/

section Runs
variable {S : Platform} {s s' : Server} {trace : List (Op × Choice)} {d : UUID} {tx : Nat}
  {r : Except StoreError PreKeyBundle}

/-- No one-time key is consumed that was not before. -/
def NoneConsumed (db db' : Database) : Prop := ∀ k, db'.Consumed k → db.Consumed k

theorem executes_abort (run : Executes system (abort tx) s trace r s') :
    trace = [(.rollback tx, .ok)] ∧ r = .error .failed ∧ s' = s.release tx := by
  obtain ⟨c, _, s₁, later, rolled, rest, rfl⟩ := executes_call.mp run
  obtain ⟨rfl, rfl, rfl⟩ := executes_pure.mp rest
  cases c <;> cases rolled
  exact ⟨rfl, rfl, rfl⟩

theorem executes_finishFetch {identityKey : Bytes} {spkID : Nat} {row : PreKeys}
    {key : Option (Nat × Bytes)}
    (run : Executes system (finishFetch tx identityKey spkID row key) s trace r s') :
    ∃ c, trace = [(.commit tx, c)] ∧
      ((∃ b, r = .ok b) ∧ s' = s.applied tx ∧ r = .ok {
          identityKey := identityKey
          signedPreKey := (spkID, row.spk, row.spkSig)
          pqPreKey := if row.pqpk = [] then none else some (row.pqpkID, row.pqpk, row.pqpkSig)
          oneTimePreKey := key.filter fun k => k.2 ≠ [] } ∨
        (∃ err, r = .error err) ∧ (c = .fail ∧ s' = s.release tx ∨
          c = .failApplied ∧ s' = s.applied tx)) := by
  obtain ⟨c, answer, s₁, later, committed, rest, rfl⟩ := executes_call.mp run
  cases c <;> cases committed <;> obtain ⟨rfl, rfl, rfl⟩ := executes_pure.mp rest
  · exact ⟨.ok, rfl, .inl ⟨⟨_, rfl⟩, rfl, rfl⟩⟩
  · exact ⟨.fail, rfl, .inr ⟨⟨_, rfl⟩, .inl ⟨rfl, rfl⟩⟩⟩
  · exact ⟨.failApplied, rfl, .inr ⟨⟨_, rfl⟩, .inr ⟨rfl, rfl⟩⟩⟩

/-- The statement reads and locks rows of the device only, for the transaction. -/
def Op.Within (d : UUID) (tx : Nat) (op : Op) : Prop :=
  (∀ e ∈ op.keysOf, e = d) ∧ ∀ tx' e, op = .takeOneTimeKey tx' e → tx' = tx

theorem abort_within : (abort (α := PreKeyBundle) tx).All (Op.Within d tx) :=
  ⟨⟨nofun, nofun⟩, fun _ => trivial⟩

theorem finishFetch_within {identityKey : Bytes} {spkID : Nat} {row : PreKeys}
    {key : Option (Nat × Bytes)} :
    (finishFetch tx identityKey spkID row key).All (Op.Within d tx) := by
  refine ⟨⟨nofun, nofun⟩, fun answer => ?_⟩
  cases answer <;> trivial

/-- A fetch begins one transaction, and stays within it. -/
theorem storeFetchPreKeyBundle_within
    (run : Executes system (storeFetchPreKeyBundle d) s trace r s') :
    ∃ c later, trace = (.begin, c) :: later ∧ (later = [] ∧ s' = s ∨
      ∃ p : Proc (Except StoreError PreKeyBundle), p.All (Op.Within d s.begun) ∧
        Executes system p { s with begun := s.begun + 1 } later r s') := by
  obtain ⟨c, answer, s₁, later, began, rest, rfl⟩ := executes_call.mp run
  refine ⟨c, later, rfl, ?_⟩
  rcases answer with err | tx
  · obtain ⟨rfl, -, rfl⟩ := executes_pure.mp rest
    cases c <;> cases began
    exact .inl ⟨rfl, rfl⟩
  · obtain ⟨rfl, rfl⟩ : tx = s.begun ∧ s₁ = { s with begun := s.begun + 1 } := by
      cases c <;> cases began
      exact ⟨rfl, rfl⟩
    refine .inr ⟨_, ?_, rest⟩
    refine ⟨⟨by simp [Op.keysOf], nofun⟩, fun answer => ?_⟩
    rcases answer with err | identityKey
    · exact abort_within
    refine ⟨⟨by simp [Op.keysOf], nofun⟩, fun answer => ?_⟩
    rcases answer with err | ⟨spkID, row⟩
    · exact abort_within
    refine ⟨⟨by simp [Op.keysOf], fun _ _ same => (Op.takeOneTimeKey.inj same).1.symm⟩,
      fun answer => ?_⟩
    rcases answer with (_ | _) | key
    · exact abort_within
    · exact finishFetch_within
    · exact finishFetch_within

theorem storeFetchPreKeyBundle_reads
    (run : Executes system (storeFetchPreKeyBundle d) s trace r s') :
    ∀ x ∈ trace, ∀ e ∈ x.1.keysOf, e = d := by
  obtain ⟨c, later, rfl, ⟨rfl, -⟩ | ⟨p, within, rest⟩⟩ := storeFetchPreKeyBundle_within run
  · simp [Op.keysOf]
  · exact List.forall_mem_cons.mpr ⟨nofun, fun x hx => (rest.all within x hx).1⟩

/-- No run of a fetch locks a row for a transaction that has not begun. -/
theorem storeFetchPreKeyBundle_numbered (numbered : s.Numbered)
    (run : Executes system (storeFetchPreKeyBundle d) s trace r s') : s'.Numbered := by
  obtain ⟨c, later, rfl, ⟨-, rfl⟩ | ⟨p, within, rest⟩⟩ := storeFetchPreKeyBundle_within run
  · exact numbered
  · have start : Server.Numbered { s with begun := s.begun + 1 } ∧ s.begun < s.begun + 1 :=
      ⟨fun k tx held => (numbered k tx held).trans (Nat.lt_succ_self _), Nat.lt_succ_self _⟩
    have step (t : Server) (op : Op) (c : Choice) (r : Ret op) (t' : Server)
        (h : t.Numbered ∧ s.begun < t.begun) (within : op.Within d s.begun) (_ : True)
        (step : t.exec op c = some (r, t')) : True ∧ t'.Numbered ∧ s.begun < t'.begun := by
      refine ⟨trivial, Server.exec_numbered step h.1 ?_, h.2.trans_le (Server.exec_locks step).1⟩
      rintro tx e rfl
      rw [within.2 tx e rfl]
      exact h.2
    exact (rest.allIf (P := fun t : Server => t.Numbered ∧ s.begun < t.begun)
      (Prog.all_iff_allIf.mp within) start (fun _ _ => trivial) step).2.2.1

theorem query_orNoRows {α : Type} {found : Option α} {a : α} {c : Choice}
    (h : s.query (Server.orNoRows found) c = some (.ok a, s')) : found = some a := by
  obtain ⟨-, ⟨-, answer⟩ | ⟨-, ⟨⟩⟩⟩ := Server.query_eq_some.mp h
  cases found <;> cases answer
  rfl

theorem mem_available {n : Nat} {found : Nat × OneTimeKey}
    (h : (s.available d).find? (·.1 = n) = some found) : found.1 = n ∧
      s.db.oneTimeKeys.lookup (d, n) = some found.2 ∧ found.2.isConsumed = false := by
  have same : found.1 = n := by simpa using List.find?_some h
  obtain ⟨⟨⟨d', n'⟩, row⟩, mem, rfl⟩ := List.mem_map.mp (List.mem_of_find?_eq_some h)
  obtain ⟨there, kept⟩ := List.mem_filter.mp mem
  obtain ⟨device, free, -⟩ : d' = d ∧ row.isConsumed = false ∧ _ := by simpa using kept
  subst same device
  exact ⟨rfl, AList.mem_lookup_iff.mpr there, free⟩

/-- The row that the query without an order finds is the newest of the device. -/
theorem selectPreKeys_lookup {found : Nat × PreKeys} (h : s.db.selectPreKeys d = some found) :
    s.db.preKeys.lookup (d, found.1) = some found.2 := by
  obtain ⟨⟨⟨d', id⟩, row⟩, newest, rfl⟩ := Option.map_eq_some_iff.mp h
  obtain ⟨mem, same⟩ := List.mem_filter.mp (List.argmax_mem newest)
  obtain rfl : d' = d := by simpa using same
  exact AList.mem_lookup_iff.mpr mem

/-- A transaction that has taken a key gives it back unless its commit takes effect. -/
theorem finishFetch_taken {identityKey : Bytes} {spkID n : Nat} {row : PreKeys}
    {key : OneTimeKey} (found : s.db.oneTimeKeys.lookup (d, n) = some key)
    (free : key.isConsumed = false)
    (run : Executes system (finishFetch tx identityKey spkID row (some (n, key.publicKey)))
      { s with locks := s.locks.insert (d, n) tx } trace r s') (failed : ∃ err, r = .error err) :
    NoneConsumed s.db s'.db ↔ (.commit tx, .failApplied) ∉ trace := by
  obtain ⟨c, rfl, ⟨⟨b, rfl⟩, -⟩ | ⟨-, ⟨rfl, rfl⟩ | ⟨rfl, rfl⟩⟩⟩ := executes_finishFetch run
  · obtain ⟨_, ⟨⟩⟩ := failed
  · exact iff_of_true (fun k consumed => consumed) (by simp)
  · refine iff_of_false (fun none => ?_) (by simp)
    have present : (d, n) ∈ s.db.oneTimeKeys := AList.lookup_isSome.mp (by simp [found])
    have held : (d, n) ∈ Server.lockedBy { s with locks := s.locks.insert (d, n) tx } tx :=
      Server.mem_lockedBy.mpr (AList.lookup_insert _)
    obtain ⟨key', found', consumed⟩ := none _ (Database.consumeAll_consumed present held)
    rw [found] at found'
    cases found'
    rw [free] at consumed
    cases consumed

/-- What the transaction returns it has read. -/
theorem finishFetch_keysOf {db : Database} {identityKey : Bytes} {spkID : Nat} {row : PreKeys}
    {key : Option (Nat × Bytes)} {b : PreKeyBundle}
    (device : (db.devices.lookup d).map Device.identityKey = some identityKey)
    (preKeys : db.preKeys.lookup (d, spkID) = some row)
    (oneTime : ∀ k ∈ key, db.oneTimeKeys.lookup (d, k.1) = some ⟨k.2, false⟩)
    (run : Executes system (finishFetch tx identityKey spkID row key) s trace (.ok b) s') :
    KeysOf db d b := by
  obtain ⟨c, -, ⟨-, -, same⟩ | ⟨⟨_, ⟨⟩⟩, -⟩⟩ := executes_finishFetch run
  cases same
  refine ⟨device, ⟨row, preKeys, rfl, fun k hk => ?_⟩, fun k hk => ?_⟩
  · dsimp only at hk
    split at hk <;> cases hk
    rfl
  · exact oneTime k (Option.mem_filter_iff.mp hk).1

/-- A transaction without a key has nothing to apply. -/
theorem finishFetch_empty {identityKey : Bytes} {spkID : Nat} {row : PreKeys}
    (empty : s.lockedBy tx = [])
    (run : Executes system (finishFetch tx identityKey spkID row none) s trace r s') :
    s'.db = s.db := by
  obtain ⟨c, -, ⟨-, rfl, -⟩ | ⟨-, ⟨-, rfl⟩ | ⟨-, rfl⟩⟩⟩ := executes_finishFetch run
  · simp [Server.applied, empty]
  · rfl
  · simp [Server.applied, empty]

/-- The transaction returns keys of its device, or the outcome of its commit decides. -/
theorem storeFetchPreKeyBundle_cases (numbered : s.Numbered)
    (run : Executes system (storeFetchPreKeyBundle d) s trace r s') :
    (∃ b, r = .ok b ∧ KeysOf s.db d b ∧ ∃ x ∈ trace, x.1 = .selectIdentityKey d) ∨
      (∃ err, r = .error err) ∧ (NoneConsumed s.db s'.db ↔ ¬ LostCommit trace) := by
  obtain ⟨c₁, answer, s₁, later, began, run, rfl⟩ := executes_call.mp run
  have none {t : Server} (same : t.db = s.db) : NoneConsumed s.db t.db := by
    intro k consumed
    rwa [same] at consumed
  rcases answer with err | tx
  · obtain ⟨rfl, rfl, rfl⟩ := executes_pure.mp run
    have same : s₁ = s := by cases c₁ <;> cases began; rfl
    exact .inr ⟨⟨_, rfl⟩, iff_of_true (none (by rw [same])) (by simp [LostCommit])⟩
  obtain ⟨rfl, rfl, rfl⟩ : c₁ = .ok ∧ tx = s.begun ∧ s₁ = { s with begun := s.begun + 1 } := by
    cases c₁ <;> cases began
    exact ⟨rfl, rfl, rfl⟩
  obtain ⟨c₂, answer, s₂, later₂, read, run, rfl⟩ := executes_call.mp run
  obtain ⟨rfl, -⟩ := Server.query_eq_some.mp read
  rcases answer with err | identityKey
  · obtain ⟨rfl, rfl, rfl⟩ := executes_abort run
    exact .inr ⟨⟨_, rfl⟩, iff_of_true (none rfl) (by simp [LostCommit])⟩
  obtain ⟨c₃, answer, s₃, later₃, read', run, rfl⟩ := executes_call.mp run
  obtain ⟨rfl, -⟩ := Server.query_eq_some.mp read'
  rcases answer with err | ⟨spkID, row⟩
  · obtain ⟨rfl, rfl, rfl⟩ := executes_abort run
    exact .inr ⟨⟨_, rfl⟩, iff_of_true (none rfl) (by simp [LostCommit])⟩
  obtain ⟨c₄, answer, s₄, later₄, taken, run, rfl⟩ := executes_call.mp run
  have device : (s.db.devices.lookup d).map Device.identityKey = some identityKey :=
    query_orNoRows read
  have preKeys : s.db.preKeys.lookup (d, spkID) = some row :=
    selectPreKeys_lookup (query_orNoRows read')
  cases c₄ with
  | row n =>
    obtain ⟨found, picked, step⟩ := Option.map_eq_some_iff.mp taken
    cases step
    obtain ⟨-, stored, free⟩ := mem_available picked
    rcases r with err | b
    · refine .inr ⟨⟨err, rfl⟩, (finishFetch_taken stored free run ⟨err, rfl⟩).trans ?_⟩
      obtain ⟨c, rfl, -⟩ := executes_finishFetch run
      simp [LostCommit]
    · refine .inl ⟨b, rfl, finishFetch_keysOf device preKeys ?_ run,
        (.selectIdentityKey d, c₂), by simp, rfl⟩
      rintro k ⟨⟩
      exact stored.trans (by rw [← free])
  | ok =>
    simp only [Server.exec] at taken
    split at taken <;> cases taken
    rcases r with err | b
    · have empty : Server.lockedBy { s with begun := s.begun + 1 } s.begun = [] := by
        refine List.eq_nil_iff_forall_not_mem.mpr fun k held => ?_
        exact absurd (numbered k s.begun (Server.mem_lockedBy.mp held)) (lt_irrefl _)
      have same : s'.db = s.db :=
        finishFetch_empty (s := { s with begun := s.begun + 1 }) empty run
      refine .inr ⟨⟨err, rfl⟩, iff_of_true (none same) ?_⟩
      obtain ⟨c, rfl, -⟩ := executes_finishFetch run
      simp [LostCommit]
    · exact .inl ⟨b, rfl, finishFetch_keysOf device preKeys (by simp) run,
        (.selectIdentityKey d, c₂), by simp, rfl⟩
  | fail =>
    cases taken
    obtain ⟨rfl, rfl, rfl⟩ := executes_abort run
    exact .inr ⟨⟨_, rfl⟩, iff_of_true (none rfl) (by simp [LostCommit])⟩
  | _ => cases taken

/-! ## Requests -/

variable {ctx : Context} {userId deviceId : String} {u : UUID} {a : Answer PreKeyBundle}

theorem executes_fetchDevice {text : String}
    (run : Executes system (fetchDevice S userId deviceId) s trace text s') :
    s' = s ∧ (∀ x ∈ trace, ∃ u, x.1 = .getDevicesByUser u) ∧
      (text = deviceId ∨ deviceId = "" ∧ ∃ u, S.parseUUID userId = some u ∧
        ∃ device ∈ s.db.devicesOf u, text = device.1.text) := by
  unfold fetchDevice at run
  split at run
  · rename_i unnamed
    split at run
    · obtain ⟨rfl, rfl, rfl⟩ := executes_pure.mp run
      exact ⟨rfl, by simp, .inl rfl⟩
    · rename_i u parsed
      obtain ⟨c, answer, s₁, later, asked, run, rfl⟩ := executes_call.mp run
      obtain ⟨rfl, answered⟩ := Server.query_eq_some.mp asked
      rcases answer with err | _ | ⟨device, rest⟩ <;>
        obtain ⟨rfl, rfl, rfl⟩ := executes_pure.mp run
      · exact ⟨rfl, by simp, .inl rfl⟩
      · exact ⟨rfl, by simp, .inl rfl⟩
      · obtain ⟨-, found⟩ | ⟨-, ⟨⟩⟩ := answered
        refine ⟨rfl, by simp, .inr ⟨unnamed.1, u, parsed, device, ?_, rfl⟩⟩
        rw [← Except.ok.inj found]
        exact List.mem_cons_self
  · obtain ⟨rfl, rfl, rfl⟩ := executes_pure.mp run
    exact ⟨rfl, by simp, .inl rfl⟩

theorem owner_of_devicesOf {db : Database} {device : UUID × Device} (h : device ∈ db.devicesOf u) :
    db.owner device.1 = some u ∧ device.1 ∈ db.devices := by
  obtain ⟨⟨d, row⟩, mem, rfl⟩ := List.mem_map.mp h
  obtain ⟨there, owned⟩ := List.mem_filter.mp mem
  have found : db.devices.lookup d = some row := AList.mem_lookup_iff.mpr there
  exact ⟨by simpa [Database.owner, found] using owned, AList.lookup_isSome.mp (by simp [found])⟩

/-- What is read before the transaction loses no key. -/
theorem lostCommit_append {before : List (Op × Choice)}
    (quiet : ∀ x ∈ before, ∃ u, x.1 = .getDevicesByUser u) :
    LostCommit (before ++ trace) ↔ LostCommit trace := by
  constructor
  · rintro ⟨tx, d, n, taken, committed⟩
    refine ⟨tx, d, n, ?_, ?_⟩
    · refine (List.mem_append.mp taken).resolve_left fun early => ?_
      obtain ⟨u, ⟨⟩⟩ := quiet _ early
    · refine (List.mem_append.mp committed).resolve_left fun early => ?_
      obtain ⟨u, ⟨⟩⟩ := quiet _ early
  · rintro ⟨tx, d, n, taken, committed⟩
    exact ⟨tx, d, n, List.mem_append_right _ taken, List.mem_append_right _ committed⟩

/-- A request is refused before its transaction, or it is answered as the transaction ends. -/
theorem fetchPreKeyBundle_cases
    (run : Executes system (fetchPreKeyBundle S ctx userId deviceId) s trace a s') :
    s' = s ∧ (∃ err, a = .error err) ∧ (∀ x ∈ trace, ∃ u, x.1 = .getDevicesByUser u) ∨
    ∃ before later text d r, trace = before ++ later ∧
      (∀ x ∈ before, ∃ u, x.1 = .getDevicesByUser u) ∧
      (text = deviceId ∨ deviceId = "" ∧ ∃ u, S.parseUUID userId = some u ∧
        ∃ device ∈ s.db.devicesOf u, text = device.1.text) ∧
      S.parseUUID text = some d ∧ (userId ≠ "" → ∃ u, S.parseUUID userId = some u) ∧
      Executes system (storeFetchPreKeyBundle d) s later r s' ∧
      ((∃ err, r = .error err) ∧ (∃ err, a = .error err) ∨ ∃ b, r = .ok b ∧ a = .ok b) := by
  unfold fetchPreKeyBundle at run
  split at run
  · obtain ⟨rfl, rfl, rfl⟩ := executes_pure.mp run
    exact .inl ⟨rfl, ⟨_, rfl⟩, by simp⟩
  obtain ⟨before, text, s₁, last, chosen, rest, rfl⟩ := executes_bind.mp run
  obtain ⟨rfl, reads, choice⟩ := executes_fetchDevice chosen
  clear run
  split at rest
  · obtain ⟨rfl, rfl, rfl⟩ := executes_pure.mp rest
    exact .inl ⟨rfl, ⟨_, rfl⟩, by simpa using reads⟩
  split at rest
  · obtain ⟨rfl, rfl, rfl⟩ := executes_pure.mp rest
    exact .inl ⟨rfl, ⟨_, rfl⟩, by simpa using reads⟩
  rename_i d parsed
  split at rest
  · obtain ⟨rfl, rfl, rfl⟩ := executes_pure.mp rest
    exact .inl ⟨rfl, ⟨_, rfl⟩, by simpa using reads⟩
  rename_i valid
  obtain ⟨later, r, s₂, last, fetched, answered, rfl⟩ := executes_bind.mp rest
  refine .inr ⟨before, later, text, d, r, ?_, reads, choice, parsed, fun named => ?_, ?_⟩
  · cases r <;> obtain ⟨rfl, -⟩ := executes_pure.mp answered <;> simp
  · exact Option.ne_none_iff_exists'.mp fun unread => valid ⟨named, unread⟩
  · cases r <;> obtain ⟨rfl, rfl, rfl⟩ := executes_pure.mp answered
    · exact ⟨fetched, .inl ⟨⟨_, rfl⟩, ⟨_, rfl⟩⟩⟩
    · exact ⟨fetched, .inr ⟨_, rfl, rfl⟩⟩

theorem fetchPreKeyBundle_numbered (numbered : s.Numbered)
    (run : Executes system (fetchPreKeyBundle S ctx userId deviceId) s trace a s') :
    s'.Numbered := by
  rcases fetchPreKeyBundle_cases run with ⟨rfl, -⟩ | ⟨_, _, _, d, r, -, -, -, -, -, fetched, -⟩
  · exact numbered
  · exact storeFetchPreKeyBundle_numbered numbered fetched

/-! ## Own keys -/

/-- The request names no device, or one of the user. -/
def NamesOwnDevice (S : Platform) (db : Database) (userId deviceId : String) : Prop :=
  deviceId = "" ∨ ∃ u d, S.parseUUID userId = some u ∧ S.parseUUID deviceId = some d ∧
    db.owner d = some u

/-- A response consists of keys of the user exactly if the request names a device of the user or
none, and a refusal consumes no key exactly if no commit with a key takes effect. -/
theorem bundle_owned_and_refusal_free_iff (readable : ∀ d ∈ s.db.devices,
      S.parseUUID d.text = some d) (numbered : s.Numbered) (named : userId ≠ "")
    (run : Executes system (fetchPreKeyBundle S ctx userId deviceId) s trace a s') :
    (∀ b, a = .ok b → ((∃ u, S.parseUUID userId = some u ∧ OwnBundle s.db u trace b) ↔
      NamesOwnDevice S s.db userId deviceId)) ∧
    (∀ err, a = .error err → (NoneConsumed s.db s'.db ↔ ¬ LostCommit trace)) := by
  rcases fetchPreKeyBundle_cases run with ⟨rfl, ⟨err, rfl⟩, quiet⟩ | ⟨before, later, text, d, r,
    rfl, quiet, choice, parsed, valid, fetched, outcome⟩
  · refine ⟨nofun, fun _ _ => iff_of_true (fun _ => id) ?_⟩
    rintro ⟨tx, d, n, taken, -⟩
    obtain ⟨u, ⟨⟩⟩ := quiet _ taken
  · obtain ⟨u, user⟩ := valid named
    rcases storeFetchPreKeyBundle_cases numbered fetched with
      ⟨b, rfl, keys, x, mem, reads⟩ | ⟨⟨err, rfl⟩, refused⟩
    · obtain ⟨⟨_, ⟨⟩⟩, -⟩ | ⟨b, ⟨⟩, rfl⟩ := outcome
      refine ⟨?_, nofun⟩
      rintro b ⟨⟩
      constructor
      · rintro ⟨v, user', d', owned, only, -⟩
        rw [user] at user'
        cases user'
        have same : d = d' := only x (List.mem_append_right _ mem) d (by simp [reads, Op.keysOf])
        subst same
        rcases choice with rfl | ⟨rfl, -⟩
        · exact .inr ⟨u, d, user, parsed, owned⟩
        · exact .inl rfl
      · intro own
        have owned : s.db.owner d = some u := by
          rcases choice with rfl | ⟨rfl, v, user', device, mine, rfl⟩
          · obtain rfl | ⟨v, d', user', parsed', owned⟩ := own
            · rw [S.parseUUID_empty] at parsed
              cases parsed
            · rw [user] at user'
              rw [parsed] at parsed'
              cases user'
              cases parsed'
              exact owned
          · obtain ⟨owned, there⟩ := owner_of_devicesOf mine
            rw [user] at user'
            rw [readable _ there] at parsed
            cases user'
            cases parsed
            exact owned
        refine ⟨u, user, d, owned, fun y hy e he => ?_, keys⟩
        obtain early | late := List.mem_append.mp hy
        · obtain ⟨v, asks⟩ := quiet y early
          rw [asks] at he
          cases he
        · exact storeFetchPreKeyBundle_reads fetched y late e he
    · obtain ⟨-, err', rfl⟩ | ⟨b, ⟨⟩, -⟩ := outcome
      exact ⟨nofun, fun _ _ => refused.trans (not_congr (lostCommit_append quiet).symm)⟩

end Runs

namespace Sample

def bobContext : Context := ⟨bob.text, bobPhone.text⟩

/-- Bob fetches a bundle while Alice's phone has one. -/
def fetchRun (userId deviceId : String) :
    Option (List (Op × Choice) × Answer PreKeyBundle × Server) :=
  play system (fetchPreKeyBundle platform bobContext userId deviceId) oneBundle
    ((if deviceId = "" then [.ok] else []) ++ [.ok, .ok, .ok, .row 1, .ok])

theorem named_isSome : (fetchRun bob.text alicePhone.text).isSome := by rfl

theorem unnamed_isSome : (fetchRun alice.text "").isSome := by rfl

theorem oneBundle_numbered : oneBundle.Numbered := by
  have unlocked : oneBundle.locks.entries = [] := by rfl
  intro k tx held
  have held := AList.mem_lookup_iff.mp held
  rw [unlocked] at held
  cases held

theorem oneBundle_readable : ∀ d ∈ oneBundle.db.devices, platform.parseUUID d.text = some d := by
  have readable : ∀ d ∈ oneBundle.db.devices.keys, platform.parseUUID d.text = some d := by
    decide
  exact readable

end Sample

open Sample in
theorem bundle_owned_and_refusal_free_sample : ∃ trace b s',
    Executes system (fetchPreKeyBundle platform bobContext alice.text "") oneBundle trace (.ok b)
      s' ∧ ∃ u, platform.parseUUID alice.text = some u ∧ OwnBundle oneBundle.db u trace b := by
  let run := (fetchRun alice.text "").get unnamed_isSome
  have fetched : run.2.1.isOk := by rfl
  have executes : Executes system (fetchPreKeyBundle platform bobContext alice.text "") oneBundle
      run.1 run.2.1 run.2.2 := Executes.of_play _ (Option.some_get unnamed_isSome).symm
  cases answer : run.2.1 with
  | error => simp [answer, Except.isOk, Except.toBool] at fetched
  | ok b =>
    rw [answer] at executes
    exact ⟨run.1, b, run.2.2, executes, ((bundle_owned_and_refusal_free_iff oneBundle_readable
      oneBundle_numbered (by decide) executes).1 b rfl).mpr (.inl rfl)⟩

open Sample in
/-- Bob asks for his own keys on Alice's phone, and gets hers. -/
theorem bundle_of_another_user : ∃ trace b s',
    Executes system (fetchPreKeyBundle platform bobContext bob.text alicePhone.text) oneBundle
      trace (.ok b) s' ∧ b.identityKey = [1] ∧
    ¬ ∃ u, platform.parseUUID bob.text = some u ∧ OwnBundle oneBundle.db u trace b := by
  let run := (fetchRun bob.text alicePhone.text).get named_isSome
  have fetched : (run.2.1.toOption.map PreKeyBundle.identityKey) = some [1] := by rfl
  have reads : ∃ x ∈ run.1, x.1 = .selectIdentityKey alicePhone := by decide
  have executes : Executes system (fetchPreKeyBundle platform bobContext bob.text alicePhone.text)
      oneBundle run.1 run.2.1 run.2.2 :=
    Executes.of_play _ (Option.some_get named_isSome).symm
  cases answer : run.2.1 with
  | error => simp [answer, Except.toOption] at fetched
  | ok b =>
    rw [answer] at executes fetched
    refine ⟨run.1, b, run.2.2, executes, Option.some.inj fetched, ?_⟩
    rintro ⟨u, user, d, owned, only, -⟩
    obtain ⟨x, mem, same⟩ := reads
    obtain rfl : alicePhone = d := only x mem alicePhone (by simp [same, Op.keysOf])
    have bobs : platform.parseUUID bob.text = some bob := by rfl
    have hers : oneBundle.db.owner alicePhone = some alice := by rfl
    rw [bobs] at user
    rw [hers, ← user] at owned
    exact absurd owned (by decide)

end GenChat.Auth
