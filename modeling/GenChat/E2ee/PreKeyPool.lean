import GenChat.E2ee.InitUserKeys

/-!
# Whether the one-time keys of a device can be used

`initUserKeys` and `PreKeyManager` fill one pool of one-time keys, in any order and interleaved. The
keys of the former have private halves in the identity bundle in `localStorage`, until a later call
replaces that bundle. The keys of the latter are random bytes, of which nobody has private halves.
-/
namespace GenChat.E2ee
open Library Pqxdh

deriving instance DecidableEq for WasmOneTimePublicKey

inductive KeyTask where
  | initUserKeys (accessToken : String)
  | checkAndReplenish (accessToken : String)

variable {C : Suite} {userId deviceId : String} {d d' : Device C} {op : DeviceOp C}
  {c : DeviceChoice C} {own : IdentityBundle C}

def KeyTask.run (userId deviceId : String) : KeyTask → DeviceProc C (Bool ⊕ Int)
  | .initUserKeys accessToken =>
    (onService (E2ee.initUserKeys userId deviceId accessToken)).bind fun done => .pure (.inl done)
  | .checkAndReplenish accessToken =>
    (E2ee.checkAndReplenish accessToken deviceId).bind fun count => .pure (.inr count)

variable (C) in
/-- Any number of calls of both components, for one user on one device. -/
abbrev poolService (userId deviceId : String) :
    Service (DeviceOp C) (DeviceRet C) (Bool ⊕ Int) KeyTask Device.Event :=
  deviceService userId (KeyTask.run userId deviceId)

/-- Every one-time key that the server can still offer has its private half in the identity bundle,
under its id. -/
def Device.Usable (d : Device C) (userId : String) : Prop :=
  ∀ k ∈ d.rows.oneTimeKeys, k.isConsumed = false → ∃ own ∈ d.stored userId,
    ∃ pair ∈ own.oneTimeKeyPair k.keyId, k.publicKey = .ok (pair.publicKeyBytes C.pqxdh)

instance [DecidableEq C.Block] : Decidable (d.Usable userId) :=
  inferInstanceAs (Decidable (∀ k ∈ d.rows.oneTimeKeys, k.isConsumed = false →
    ∃ own ∈ d.stored userId, ∃ pair ∈ own.oneTimeKeyPair k.keyId,
      k.publicKey = .ok (pair.publicKeyBytes C.pqxdh)))

/-- The identity bundle is replaced only when the pool is used up, one-time keys that are published
are those of the bundle at that time, and random ones never go in. -/
def DeviceOp.OwnKeys (userId : String) (d : Device C) (c : DeviceChoice C) : DeviceOp C → Prop
  | .service (.persistIdentity storageKey _) => storageKey = identityStorageKey userId →
    c.fails ∨ ∀ k ∈ d.rows.oneTimeKeys, k.isConsumed
  | .service (.publishPreKeyBundle bundle _ _) =>
    match c with
    | .upload u => u.preKeys ∧ u.oneTimeKeys ∧ (d.rows.insertKeys bundle.oneTimePreKeys).isSome →
      (d.stored userId).map (fun own => (publicHalf own).oneTimePreKeys) =
        some bundle.oneTimePreKeys
    | _ => True
  | .uploadOneTimeKeys _ keys _ => c.fails ∨ (d.rows.insertKeys keys).isNone
  | _ => True

instance [DecidableEq C.Block] : Decidable (op.OwnKeys userId d c) := by
  cases op with
  | service op =>
    cases op with
    | persistIdentity => exact inferInstanceAs (Decidable (_ → _))
    | publishPreKeyBundle bundle _ _ =>
      cases c with
      | upload u =>
        exact inferInstanceAs (Decidable (_ ∧ _ ∧ _ → Option.map _ _ = some bundle.oneTimePreKeys))
      | _ => exact instDecidableTrue
    | _ => exact instDecidableTrue
  | uploadOneTimeKeys => exact inferInstanceAs (Decidable (_ ∨ _))
  | _ => exact instDecidableTrue

def OwnKeys (p : Pool (poolService C userId deviceId)) :
    PoolLabel (poolService C userId deviceId) → Prop
  | .run i c => ∀ x ∈ p.next i, x.2.OwnKeys userId p.shared c
  | _ => True

instance [DecidableEq C.Block] : ∀ (p : Pool (poolService C userId deviceId)) l,
    Decidable (OwnKeys p l)
  | p, .run i c => inferInstanceAs (Decidable (∀ x ∈ p.next i, x.2.OwnKeys userId p.shared c))
  | _, .spawn _ => instDecidableTrue
  | _, .env _ => instDecidableTrue

/-! ## The invariant -/

structure Device.PoolSound (d : Device C) (userId : String) : Prop where
  generated : ∀ own, d.stored userId = some own → Generated own
  usable : d.Usable userId

/-- A batch of random keys has the size that the pre-key manager asks for. -/
def DeviceOp.Filling : DeviceOp C → Prop
  | .service (.persistIdentity _ bundle) => Generated bundle
  | .uploadOneTimeKeys _ keys _ => keys.length = 50
  | _ => True

namespace Device.PoolSound

theorem congr (h : d.PoolSound userId) (stored : d'.stored userId = d.stored userId)
    (fewer : ∀ k ∈ d'.rows.oneTimeKeys, k.isConsumed = false → k ∈ d.rows.oneTimeKeys) :
    d'.PoolSound userId := by
  refine ⟨fun own found => h.generated own (stored.symm.trans found), fun k mem free => ?_⟩
  rw [stored]
  exact h.usable k (fewer k mem free) free

theorem moves (h : d.PoolSound userId) (filling : op.Filling) (mine : op.OwnKeys userId d c)
    (moves : op.Moves d c d') : d'.PoolSound userId := by
  cases moves with
  | keep identities rows _ =>
    refine h.congr (by simp only [stored, identities]) fun k mem _ => ?_
    rwa [rows] at mem
  | @persist storageKey bundle c fine =>
    by_cases ours : storageKey = identityStorageKey userId
    · have used : ∀ k ∈ d.rows.oneTimeKeys, k.isConsumed :=
        (mine ours).resolve_left (by simp [fine])
      refine ⟨fun own found => ?_, fun k mem free => ?_⟩
      · have found : (d.client.identities.insert storageKey bundle).lookup
            (identityStorageKey userId) = some own := found
        rw [ours, AList.lookup_insert] at found
        cases found
        exact filling
      · rw [used k mem] at free
        cases free
    · exact h.congr (AList.lookup_insert_ne (Ne.symm ours)) fun k mem _ => mem
  | @publish bundle _ _ u =>
    obtain ⟨-, -, same | ⟨⟨pre, oneTime⟩, inserted, stored, same⟩⟩ := d.rows.publish_cases bundle u
    · exact h.congr rfl fun k mem _ => same ▸ mem
    · have half := mine ⟨pre, oneTime, by simp [stored]⟩
      obtain ⟨own, found, half⟩ := Option.map_eq_some_iff.mp half
      obtain ⟨-, rfl⟩ := KeyRows.insertKeys_eq_some.mp stored
      refine ⟨h.generated, fun k mem free => ?_⟩
      have mem : k ∈ (d.rows.publish bundle u).2.oneTimeKeys := mem
      rw [same] at mem
      rcases List.mem_append.mp mem with old | new
      · exact h.usable k old free
      · obtain ⟨key, hk, rfl⟩ := List.mem_map.mp new
        exact ⟨own, found, (h.generated own found).held (half ▸ hk)⟩
  | insert fine inserted =>
    rcases mine with failed | full
    · rw [fine] at failed
      cases failed
    · rw [inserted] at full
      cases full

theorem event {e : Device.Event} (h : d.PoolSound userId) (step : d.event e = some d') :
    d'.PoolSound userId := by
  cases e with
  | reload =>
    cases step
    exact h.congr rfl fun k mem _ => mem
  | fetch oneTimeKey =>
    obtain ⟨⟨b, rows⟩, fetched, step⟩ := Option.map_eq_some_iff.mp step
    cases step
    obtain ⟨-, -, -, -, ⟨-, rfl⟩ | ⟨k, -, -, -, rfl⟩⟩ := KeyRows.fetch_cases fetched
    · exact h.congr rfl fun k mem _ => mem
    · refine h.congr rfl fun k' mem free => ?_
      obtain ⟨old, mem, rfl⟩ := List.mem_map.mp mem
      split at free
      · cases free
      · rename_i other
        rwa [if_neg other]

/-- A batch of random keys leaves keys in the pool that the device cannot use. -/
theorem unusable {rows : KeyRows C} {keys : List (WasmOneTimePublicKey C.Block)}
    (h : d.PoolSound userId) (fifty : keys.length = 50)
    (inserted : d.rows.insertKeys keys = some rows) :
    ¬ ({ d with rows := rows } : Device C).Usable userId := by
  intro usable
  obtain ⟨fresh, rfl⟩ := KeyRows.insertKeys_eq_some.mp inserted
  have held {k : WasmOneTimePublicKey C.Block} (mem : k ∈ keys) :
      ∃ own, d.stored userId = some own ∧ k.keyId ∈ own.oneTimePreKeys.map (·.keyId) := by
    obtain ⟨own, found, pair, here, -⟩ := usable ⟨k.keyId, k.publicKeyHex, false⟩
      (List.mem_append_right _ (List.mem_map_of_mem mem)) rfl
    obtain ⟨priv, first, -⟩ := Option.bind_eq_some_iff.mp here
    have same : priv.keyId = k.keyId := by simpa using List.find?_some first
    exact ⟨own, found, List.mem_map.mpr ⟨priv, List.mem_of_find?_eq_some first, same⟩⟩
  obtain ⟨k, mem⟩ := List.exists_mem_of_length_pos (show 0 < keys.length by omega)
  obtain ⟨own, found, -⟩ := held mem
  obtain ⟨seeds, thirty, rfl⟩ := h.generated own found
  -- Fifty ids do not fit into the thirty of the bundle.
  have sub : keys.map WasmOneTimePublicKey.keyId ⊆
      (seeds.identityBundle C.pqxdh).oneTimePreKeys.map (·.keyId) := by
    intro id hid
    obtain ⟨k, mem, rfl⟩ := List.mem_map.mp hid
    obtain ⟨own, found', here⟩ := held mem
    cases found.symm.trans found'
    exact here
  have fit := (List.subperm_of_subset (List.Nodup.of_append_right fresh) sub).length_le
  simp [KeySeeds.identityBundle] at fit
  omega

end Device.PoolSound

/-! ## Runs -/

def poolContract (userId : String) : Contract (deviceSystem C) where
  inv d := d.PoolSound userId
  rely _ _ := True
  rely_refl _ := trivial
  rely_trans _ _ := trivial
  admits d op c := op.OwnKeys userId d c
  req _ op := op.Filling

theorem poolContract_keeps : KeepsKeys (C := C) (poolContract userId) userId
    fun _ _ => True where
  free d op still := by
    cases op with
    | service op => cases op <;> first | exact trivial | cases still
    | uploadOneTimeKeys => cases still
    | _ => trivial
  persist _ _ generated := generated
  stored _ _ _ _ _ _ _ _ := trivial
  stable _ _ := trivial
  publish _ := trivial

theorem randomKeys_length {count : Nat} {r : List C.Block}
    (h : d.exec (.randomKeys count) c = some (r, d')) : r.length = count := by
  cases c <;> try cases h
  simp only [Device.exec] at h
  split at h <;> cases h
  assumption

theorem replenish_meets (accessToken deviceId : String) (d : Device C) :
    Meets (poolContract userId) (fun _ _ => True) (replenish accessToken deviceId) d := by
  have done (d : Device C) (n : Int) : Meets (poolContract userId) (fun _ _ => True)
      (.pure n : DeviceProc C Int) d := Meets.pure fun _ _ _ => trivial
  refine fun d₁ _ _ => ⟨trivial, fun _ count d₂ _ _ => ?_⟩
  cases count with
  | none => exact done d₂ _
  | some currentCount =>
    dsimp only [Prog.pure_bind]
    split
    · refine fun d₃ _ _ => ⟨trivial, fun _ now d₄ _ _ => ?_⟩
      refine fun d₅ _ _ => ⟨trivial, fun _ rawKeys d₆ _ hr => ?_⟩
      have fifty := randomKeys_length hr
      refine fun d₇ _ _ => ⟨by simpa [poolContract, DeviceOp.Filling] using fifty, ?_⟩
      intro _ answered d₈ _ _
      dsimp only [Prog.pure_bind]
      split <;> exact done d₈ _
    · exact done d₂ _

theorem checkAndReplenish_meets (accessToken deviceId : String) (d : Device C) :
    Meets (poolContract userId) (fun _ _ => True) (checkAndReplenish accessToken deviceId) d := by
  have done (d : Device C) (n : Int) : Meets (poolContract userId) (fun _ _ => True)
      (.pure n : DeviceProc C Int) d := Meets.pure fun _ _ _ => trivial
  refine fun d₁ _ _ => ⟨trivial, fun _ busy d₂ _ _ => ?_⟩
  dsimp only [Prog.pure_bind]
  split
  · exact done d₂ _
  · refine fun d₃ _ _ => ⟨trivial, fun _ _ d₄ _ _ => ?_⟩
    change Meets _ _ ((replenish accessToken deviceId).bind _) d₄
    refine Meets.bind ((replenish_meets accessToken deviceId d₄).mono fun count d₅ _ => ?_)
    exact fun d₆ _ _ => ⟨trivial, fun _ _ d₇ _ _ => done d₇ count⟩

theorem KeyTask.run_meets (task : KeyTask) (d : Device C) :
    Meets (poolContract userId) (fun _ _ => True) (task.run userId deviceId) d := by
  cases task with
  | initUserKeys accessToken =>
    have keeps : KeepsKeys (C := C) (poolContract userId) userId fun _ _ => True :=
      poolContract_keeps
    have call := initUserKeys_meets keeps deviceId accessToken d
    exact Meets.bind (call.mono fun _ _ _ => Meets.pure fun _ _ _ => trivial)
  | checkAndReplenish accessToken =>
    have check : Meets (poolContract userId) (fun _ _ => True)
        (E2ee.checkAndReplenish accessToken deviceId) d :=
      checkAndReplenish_meets accessToken deviceId d
    exact Meets.bind (check.mono fun _ _ _ => Meets.pure fun _ _ _ => trivial)

variable (C) in
def poolProtocol (userId deviceId : String) :
    Pool.Protocol (poolService C userId deviceId) OwnKeys where
  contract _ := poolContract userId
  inv d := d.PoolSound userId
  rely _ _ := True
  contract_inv _ := rfl
  contract_rely _ := rfl
  admitted p i c t op k hok thread := hok _ (Pool.next_call thread)
  init d h := by
    obtain ⟨none', rows, -⟩ := h
    refine ⟨fun own found => ?_, ?_⟩
    · rw [none'] at found
      cases found
    · simp [Device.Usable, rows, KeyRows.empty]
  exec _ _ _ _ _ _ inv req admits hr := ⟨inv.moves req admits (Device.exec_moves hr), trivial⟩
  env _ _ _ _ inv step := ⟨inv.event step, trivial⟩
  body _ task _ _ := task.run_meets _

section Runs
variable {p : Pool (poolService C userId deviceId)}

/-- As soon as random keys go in, there are keys that are not usable. -/
theorem replenished_unusable (hp : (Pool.machine (poolService C userId deviceId)).Reach OwnKeys p)
    {i : Nat} {task : KeyTask} {token : String} {keys : List (WasmOneTimePublicKey C.Block)}
    {rows : KeyRows C} (next : p.next i = some (task, .uploadOneTimeKeys deviceId keys token))
    (inserted : p.shared.rows.insertKeys keys = some rows) :
    ¬ ({ p.shared with rows := rows } : Device C).Usable userId := by
  obtain ⟨k, thread⟩ := Pool.call_of_next next
  have fifty := Pool.safe_next (poolProtocol C userId deviceId) hp thread
  exact (Pool.safe (poolProtocol C userId deviceId) hp).1.unusable fifty inserted

end Runs

/-! ## Bob's pool -/

namespace Sample
open Pqxdh.Symbolic

abbrev pool := Pool.machine (poolService suite "bob" "d")

def ran (thread : Nat) (task : KeyTask) (choices : List (DeviceChoice suite)) :
    List (PoolLabel (poolService suite "bob" "d")) :=
  .spawn task :: choices.map fun c => .run thread c

/-- The first call of `initUserKeys`, and a check of the pool that finds too few keys. -/
def checked (upload : DeviceChoice suite) : List (PoolLabel (poolService suite "bob" "d")) :=
  ran 0 (.initUserKeys "token") firstCall ++ ran 1 (.checkAndReplenish "token")
    [.ok, .ok, .count (some 5), .time 500,
      .keys ((List.range 50).map fun i => .atom (1000 + i)), upload, .ok]

def poolStart : Pool (poolService suite "bob" "d") :=
  Pool.start _ ⟨.new suite, false, .empty, []⟩

def replenished : Option (Pool (poolService suite "bob" "d")) :=
  pool.follow (fun _ _ => True) poolStart (checked .ok)

set_option maxRecDepth 20000

theorem replenished_isSome : replenished.isSome := by rfl

def unreplenished : Option (Pool (poolService suite "bob" "d")) :=
  pool.follow OwnKeys poolStart (checked .fail)

theorem unreplenished_isSome : unreplenished.isSome := by rfl

end Sample

end GenChat.E2ee
