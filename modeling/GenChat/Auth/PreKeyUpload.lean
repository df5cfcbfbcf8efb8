import GenChat.Auth.KeyOwnership
import GenChat.Library.Issues
import GenChat.Pqxdh.Handshake

/-!
# Uploading pre-keys

`UploadPreKeyBundle` writes the signed and the PQ pre-key with one statement and the one-time keys
with another. What the first has written stays when the second is refused, and
`generate_pqxdh_keys` numbers the one-time keys from 1 each time, which the table refuses if the
device has had such a key before.
-/
namespace GenChat.Auth
open Library
open Ledger (Bytes Table)
open Database (PreKeyArgs OTK maxInteger)

/-! ## Batches of one-time keys -/

namespace Database
variable {db db' : Database} {d : UUID} {key : OTK} {keys : List OTK}

theorem insertOneTimeKey_eq_some : db.insertOneTimeKey d key = some db' ↔
    ∃ publicKey, key.publicKey = some publicKey ∧ key.keyID ≤ maxInteger ∧ d ∈ db.devices ∧
      (d, key.keyID) ∉ db.oneTimeKeys ∧ db' = { db with
        oneTimeKeys := db.oneTimeKeys.insert (d, key.keyID) ⟨publicKey, false⟩ } := by
  unfold insertOneTimeKey
  cases key.publicKey with
  | none => simp
  | some publicKey =>
    simp only [Option.ite_none_right_eq_some, Option.some.injEq, exists_eq_left', and_assoc]
    exact ⟨fun ⟨small, device, fresh, same⟩ => ⟨small, device, fresh, same.symm⟩,
      fun ⟨small, device, fresh, same⟩ => ⟨small, device, fresh, same.symm⟩⟩

theorem insertOneTimeKeys_cons {rest : List OTK} : db.insertOneTimeKeys d (key :: rest) =
    (db.insertOneTimeKey d key).bind fun db => db.insertOneTimeKeys d rest := rfl

/-- A batch goes in if its ids are new and distinct, and nothing is missing. -/
theorem insertOneTimeKeys_isSome : (db.insertOneTimeKeys d keys).isSome ↔
    (keys ≠ [] → d ∈ db.devices) ∧ (keys.map OTK.keyID).Nodup ∧
      ∀ k ∈ keys, k.publicKey.isSome ∧ k.keyID ≤ maxInteger ∧ (d, k.keyID) ∉ db.oneTimeKeys := by
  induction keys generalizing db with
  | nil => simp [insertOneTimeKeys]
  | cons key rest ih =>
    rw [insertOneTimeKeys_cons, Option.isSome_bind, List.map_cons, List.nodup_cons,
      List.forall_mem_cons]
    cases inserted : db.insertOneTimeKey d key with
    | none =>
      simp only [Option.any_none, Bool.false_eq_true, false_iff]
      rintro ⟨device, -, ⟨present, small, fresh⟩, -⟩
      obtain ⟨publicKey, present⟩ := Option.isSome_iff_exists.mp present
      have done := insertOneTimeKey_eq_some.mpr
        ⟨publicKey, present, small, device (by simp), fresh, rfl⟩
      rw [inserted] at done
      cases done
    | some db₁ =>
      obtain ⟨publicKey, present, small, device, fresh, rfl⟩ := insertOneTimeKey_eq_some.mp inserted
      simp only [Option.any_some, ih, AList.mem_insert, Prod.mk.injEq, true_and, not_or]
      constructor
      · rintro ⟨-, distinct, later⟩
        refine ⟨fun _ => device, ⟨?_, distinct⟩, ⟨by simp [present], small, fresh⟩,
          fun k hk => ⟨(later k hk).1, (later k hk).2.1, (later k hk).2.2.2⟩⟩
        intro again
        obtain ⟨k, hk, same⟩ := List.mem_map.mp again
        exact (later k hk).2.2.1 same
      · rintro ⟨-, ⟨other, distinct⟩, -, later⟩
        refine ⟨fun _ => device, distinct, fun k hk => ⟨(later k hk).1, (later k hk).2.1, ?_,
          (later k hk).2.2⟩⟩
        rintro same
        exact other (List.mem_map.mpr ⟨k, hk, same⟩)

theorem insertOneTimeKeys_keeps {k : UUID × Nat} (h : db.insertOneTimeKeys d keys = some db')
    (old : k ∈ db.oneTimeKeys) : k ∈ db'.oneTimeKeys := by
  induction keys generalizing db with
  | nil =>
    cases h
    exact old
  | cons key rest ih =>
    obtain ⟨one, first, later⟩ := Option.bind_eq_some_iff.mp h
    obtain ⟨_, -, -, -, -, rfl⟩ := insertOneTimeKey_eq_some.mp first
    exact ih later (AList.mem_insert _ |>.mpr (.inr old))

/-- Every key of a batch that went in has a row, which it had not before. -/
theorem insertOneTimeKeys_mem (h : db.insertOneTimeKeys d keys = some db') {k : OTK}
    (hk : k ∈ keys) : (d, k.keyID) ∈ db'.oneTimeKeys ∧ (d, k.keyID) ∉ db.oneTimeKeys := by
  refine ⟨?_, ((insertOneTimeKeys_isSome.mp (by simp [h])).2.2 k hk).2.2⟩
  induction keys generalizing db with
  | nil => cases hk
  | cons key rest ih =>
    obtain ⟨one, first, later⟩ := Option.bind_eq_some_iff.mp h
    obtain rfl | there := List.mem_cons.mp hk
    · obtain ⟨_, -, -, -, -, rfl⟩ := insertOneTimeKey_eq_some.mp first
      exact insertOneTimeKeys_keeps later (AList.mem_insert _ |>.mpr (.inl rfl))
    · exact ih later there

theorem insertOneTimeKeys_preKeys (h : db.insertOneTimeKeys d keys = some db') :
    db'.preKeys = db.preKeys := by
  obtain ⟨rows, rfl⟩ := insertOneTimeKeys_shape h
  rfl

theorem upsertPreKeys_oneTimeKeys {args : PreKeyArgs} {time : Nat}
    (h : db.upsertPreKeys d args time = some db') :
    db'.oneTimeKeys = db.oneTimeKeys ∧ db'.devices = db.devices := by
  obtain ⟨rows, rfl⟩ := upsertPreKeys_shape h
  exact ⟨rfl, rfl⟩

end Database

/-! ## Runs of an upload -/

theorem Server.write_eq_some {s s' : Server} {db : Option Database} {c : Choice}
    {r : Except StoreError Unit} (h : s.write db c = some (r, s')) :
    r = .error .failed ∧ s' = s ∧ (db = none ∨ c = .fail) ∨
      ∃ d, db = some d ∧ s' = { s with db := d } ∧
        (c = .ok ∧ r = .ok () ∨ c = .failApplied ∧ r = .error .failed) := by
  cases db with
  | none =>
    cases h
    exact .inl ⟨rfl, rfl, .inl rfl⟩
  | some d => cases c <;> cases h <;> simp

section Runs
variable {S : Platform} {s s' : Server} {trace : List (Op × Choice)} {a : Answer Unit}
  {ctx : Context}

def Op.isUpload : Op → Bool
  | .uploadPreKeyBundle _ _ _ => true
  | _ => false

/-- The checks before the first write only read. -/
theorem verifyDeviceOwnership_reads {d : UUID} {r : Answer UUID}
    (run : Executes system (verifyDeviceOwnership S ctx d) s trace r s') :
    s' = s ∧ ∀ x ∈ trace, x.1 = .getDeviceByID d := by
  unfold verifyDeviceOwnership at run
  dsimp only at run
  split at run
  · obtain ⟨rfl, -, rfl⟩ := executes_pure.mp run
    simp
  · split at run
    · obtain ⟨rfl, -, rfl⟩ := executes_pure.mp run
      simp
    · obtain ⟨c, device, s₁, later, found, rest, rfl⟩ := executes_call.mp run
      obtain ⟨rfl, -⟩ := Server.query_eq_some.mp found
      simp only [Prog.pure_bind] at rest
      split at rest
      · obtain ⟨rfl, -, rfl⟩ := executes_pure.mp rest
        simp
      · split at rest <;>
        · obtain ⟨rfl, -, rfl⟩ := executes_pure.mp rest
          simp

/-- An upload ends before its first write, or goes through it. -/
theorem uploadPreKeyBundle_cases {req : UploadPreKeyBundleRequest}
    (run : Executes system (uploadPreKeyBundle S ctx req) s trace a s') :
    (s' = s ∧ (∃ err, a = .error err) ∧ ∀ x ∈ trace, x.1.isUpload = false) ∨
    ∃ d spk c₁ r s₁ before later, S.parseUUID req.deviceId = some d ∧ req.signedPreKey = some spk ∧
      trace = before ++ (.uploadPreKeyBundle d (preKeyArgs spk req.pqPreKey) s.clock, c₁) :: later ∧
      (∀ x ∈ before, x.1.isUpload = false ∧
        x.1 ≠ .uploadOneTimeKeys d (req.oneTimePreKeys.map OneTimePreKey.otk)) ∧
      s.write (s.db.upsertPreKeys d (preKeyArgs spk req.pqPreKey) s.clock) c₁ = some (r, s₁) ∧
      match r with
      | .error _ => later = [] ∧ (∃ err, a = .error err) ∧ s' = s₁
      | .ok () => Executes system (saveOneTimeKeys d req.oneTimePreKeys) s₁ later a s' := by
  unfold uploadPreKeyBundle withDevice at run
  split at run
  · obtain ⟨rfl, rfl, rfl⟩ := executes_pure.mp run
    exact .inl ⟨rfl, ⟨_, rfl⟩, by simp⟩
  · split at run
    · obtain ⟨rfl, rfl, rfl⟩ := executes_pure.mp run
      exact .inl ⟨rfl, ⟨_, rfl⟩, by simp⟩
    · rename_i d named
      obtain ⟨checks, r, s₀, rest, owned, run, rfl⟩ := executes_bind.mp run
      obtain ⟨rfl, reads⟩ := verifyDeviceOwnership_reads owned
      have quiet : ∀ x ∈ checks, x.1.isUpload = false := fun x hx => by rw [reads x hx]; rfl
      cases r with
      | error err =>
        obtain ⟨rfl, rfl, rfl⟩ := executes_pure.mp run
        exact .inl ⟨rfl, ⟨_, rfl⟩, by simpa using quiet⟩
      | ok caller =>
        dsimp only at run
        split at run
        · obtain ⟨rfl, rfl, rfl⟩ := executes_pure.mp run
          exact .inl ⟨rfl, ⟨_, rfl⟩, by simpa using quiet⟩
        · rename_i spk signed
          obtain ⟨c₀, now, s₂, rest', clock, run, rfl⟩ := executes_call.mp run
          obtain ⟨rfl, rfl, rfl⟩ : c₀ = .ok ∧ now = s₀.clock ∧ s₂ = s₀ := by
            cases c₀ <;> cases clock
            exact ⟨rfl, rfl, rfl⟩
          simp only [Prog.pure_bind] at run
          obtain ⟨c₁, r, s₁, later, wrote, run, rfl⟩ := executes_call.mp run
          refine .inr ⟨d, spk, c₁, r, s₁, checks ++ [(.now, .ok)], later, named, signed, by simp,
            ?_, wrote, ?_⟩
          · intro x hx
            obtain check | now := List.mem_append.mp hx
            · rw [reads x check]
              exact ⟨rfl, nofun⟩
            · rw [List.mem_singleton.mp now]
              exact ⟨rfl, nofun⟩
          · cases r with
            | error err =>
              obtain ⟨rfl, rfl, rfl⟩ := executes_pure.mp run
              exact ⟨rfl, ⟨_, rfl⟩, rfl⟩
            | ok => exact run

theorem saveOneTimeKeys_cases {d : UUID} {keys : List OneTimePreKey}
    (run : Executes system (saveOneTimeKeys d keys) s trace a s') :
    keys = [] ∧ trace = [] ∧ a = .ok () ∧ s' = s ∨ keys ≠ [] ∧ ∃ c₂ r,
      trace = [(.uploadOneTimeKeys d (keys.map OneTimePreKey.otk), c₂)] ∧
      s.write (s.db.insertOneTimeKeys d (keys.map OneTimePreKey.otk)) c₂ = some (r, s') ∧
      (a = .ok () ↔ r = .ok ()) := by
  unfold saveOneTimeKeys at run
  split at run
  · rename_i empty
    obtain ⟨rfl, rfl, rfl⟩ := executes_pure.mp run
    exact .inl ⟨empty, rfl, rfl, rfl⟩
  · rename_i some'
    obtain ⟨c₂, r, s₁, later, wrote, rest, rfl⟩ := executes_call.mp run
    refine .inr ⟨some', c₂, r, ?_⟩
    cases r with
    | error err =>
      obtain ⟨rfl, rfl, rfl⟩ := executes_pure.mp rest
      exact ⟨rfl, wrote, by simp⟩
    | ok =>
      obtain ⟨rfl, rfl, rfl⟩ := executes_pure.mp rest
      exact ⟨rfl, wrote, by simp⟩

end Runs

/-! ## Atomic uploads -/

/-- If the first write takes effect with the outcome `c₁`, then rows change and the response is an
error all the same: the write is reported as failed, or the batch does not go in, or it goes in and
its outcome `c₂` is reported as failed. -/
def Torn (db : Database) (d : UUID) (args : PreKeyArgs) (time : Nat) (keys : List OTK)
    (c₁ c₂ : Choice) : Prop :=
  ∃ db₁, db.upsertPreKeys d args time = some db₁ ∧
    (c₁ = .failApplied ∧ db₁.preKeys ≠ db.preKeys ∨
      c₁ = .ok ∧ keys ≠ [] ∧
        (((db₁.insertOneTimeKeys d keys).isSome = false ∨ c₂ = .fail) ∧ db₁.preKeys ≠ db.preKeys ∨
          (db₁.insertOneTimeKeys d keys).isSome ∧ c₂ = .failApplied))

/-- An error leaves the pre-keys and the one-time keys as they were. -/
def UploadAtomic (s s' : Server) (a : Answer Unit) : Prop :=
  (∃ err, a = .error err) → s'.db.preKeys = s.db.preKeys ∧ s'.db.oneTimeKeys = s.db.oneTimeKeys

/-- The run goes through its first write, or both, and they tear the rows apart. -/
def TornRun (req : UploadPreKeyBundleRequest) (s : Server) (trace : List (Op × Choice)) : Prop :=
  ∃ d args time c₁ c₂, (.uploadPreKeyBundle d args time, c₁) ∈ trace ∧
    (c₁ = .ok → req.oneTimePreKeys ≠ [] →
      (.uploadOneTimeKeys d (req.oneTimePreKeys.map OneTimePreKey.otk), c₂) ∈ trace) ∧
    Torn s.db d args time (req.oneTimePreKeys.map OneTimePreKey.otk) c₁ c₂

section Atomic
variable {S : Platform} {s s' : Server} {trace : List (Op × Choice)} {a : Answer Unit}
  {ctx : Context} {req : UploadPreKeyBundleRequest} {d : UUID} {args : PreKeyArgs} {db₁ : Database}
  {time : Nat} {keys : List OTK} {c₁ c₂ : Choice}

theorem Torn.of_write (h : Torn s.db d args time keys c₁ c₂)
    (written : s.db.upsertPreKeys d args time = some db₁) :
    c₁ = .failApplied ∧ db₁.preKeys ≠ s.db.preKeys ∨ c₁ = .ok ∧ keys ≠ [] ∧
      (((db₁.insertOneTimeKeys d keys).isSome = false ∨ c₂ = .fail) ∧ db₁.preKeys ≠ s.db.preKeys ∨
        (db₁.insertOneTimeKeys d keys).isSome ∧ c₂ = .failApplied) := by
  obtain ⟨db, there, torn⟩ := h
  rw [written] at there
  cases there
  exact torn

/-- The first write is the only one of its kind. -/
theorem tornRun_iff {before later : List (Op × Choice)}
    (quiet : ∀ x ∈ before, x.1.isUpload = false) (rest : ∀ x ∈ later, x.1.isUpload = false) :
    TornRun req s (before ++ (.uploadPreKeyBundle d args time, c₁) :: later) ↔
      ∃ c₂, (c₁ = .ok → req.oneTimePreKeys ≠ [] →
        (.uploadOneTimeKeys d (req.oneTimePreKeys.map OneTimePreKey.otk), c₂) ∈ before ++ later) ∧
        Torn s.db d args time (req.oneTimePreKeys.map OneTimePreKey.otk) c₁ c₂ := by
  constructor
  · rintro ⟨d', args', time', c, c₂, mem, batch, torn⟩
    have same : (Op.uploadPreKeyBundle d' args' time', c) =
        (Op.uploadPreKeyBundle d args time, c₁) := by
      obtain first | here | last := by simpa only [List.mem_append, List.mem_cons] using mem
      · cases quiet _ first
      · exact here
      · cases rest _ last
    cases same
    refine ⟨c₂, fun ok some' => ?_, torn⟩
    obtain first | ⟨⟨⟩⟩ | last := by
      simpa only [List.mem_append, List.mem_cons] using batch ok some'
    · exact List.mem_append_left _ first
    · exact List.mem_append_right _ last
  · rintro ⟨c₂, batch, torn⟩
    refine ⟨d, args, time, c₁, c₂, by simp, fun ok some' => ?_, torn⟩
    obtain first | last := List.mem_append.mp (batch ok some')
    · exact List.mem_append_left _ first
    · exact List.mem_append_right _ (List.mem_cons_of_mem _ last)

/-- A first write that is reported as failed tears if it has changed a row. -/
theorem uploadAtomic_failApplied {err : Status}
    (written : s.db.upsertPreKeys d args time = some db₁) :
    UploadAtomic s { s with db := db₁ } (.error err) ↔
      ¬ ∃ c₂, Torn s.db d args time keys .failApplied c₂ := by
  have same := Database.upsertPreKeys_oneTimeKeys written
  constructor
  · rintro kept ⟨c₂, torn⟩
    obtain ⟨-, changed⟩ | ⟨⟨⟩, -⟩ := torn.of_write written
    exact changed (kept ⟨err, rfl⟩).1
  · intro whole _
    refine ⟨by_contra fun changed => whole ⟨.ok, db₁, written, .inl ⟨rfl, changed⟩⟩, same.1⟩

theorem uploadAtomic_batch {r : Except StoreError Unit}
    (written : s.db.upsertPreKeys d args time = some db₁) (some' : keys ≠ [])
    (batch : Server.write { s with db := db₁ } (db₁.insertOneTimeKeys d keys) c₂ = some (r, s'))
    (outcome : a = .ok () ↔ r = .ok ()) :
    UploadAtomic s s' a ↔ ¬ Torn s.db d args time keys .ok c₂ := by
  have same := Database.upsertPreKeys_oneTimeKeys written
  obtain ⟨rfl, rfl, refused⟩ | ⟨db₂, inserted, rfl, ⟨rfl, rfl⟩ | ⟨rfl, rfl⟩⟩ :=
    Server.write_eq_some batch
  · have failed : ∃ err, a = .error err := by
      cases a with
      | ok => cases outcome.mp rfl
      | error err => exact ⟨err, rfl⟩
    have out : (db₁.insertOneTimeKeys d keys).isSome = false ∨ c₂ = .fail :=
      refused.imp (by simp [·]) id
    constructor
    · intro kept torn
      obtain ⟨⟨⟩, -⟩ | ⟨-, -, ⟨-, changed⟩ | ⟨inserted, rfl⟩⟩ := torn.of_write written
      · exact changed (kept failed).1
      · rcases out with none | ⟨⟨⟩⟩
        rw [inserted] at none
        cases none
    · intro whole _
      refine ⟨by_contra fun changed => whole ⟨db₁, written, .inr ⟨rfl, some', .inl ⟨out, changed⟩⟩⟩,
        same.1⟩
  · refine iff_of_true (fun ⟨err, failed⟩ => ?_) fun torn => ?_
    · rw [outcome.mpr rfl] at failed
      cases failed
    · obtain ⟨⟨⟩, -⟩ | ⟨-, -, ⟨none | ⟨⟨⟩⟩, -⟩ | ⟨-, ⟨⟩⟩⟩ := torn.of_write written
      rw [inserted] at none
      cases none
  · refine iff_of_false (fun kept => ?_) (not_not.mpr ⟨db₁, written, .inr ⟨rfl, some', .inr
      ⟨by simp [inserted], rfl⟩⟩⟩)
    obtain ⟨k, hk⟩ := List.exists_mem_of_ne_nil _ some'
    obtain ⟨new, old⟩ := Database.insertOneTimeKeys_mem inserted hk
    have failed : ∃ err, a = .error err := by
      cases a with
      | ok => cases outcome.mp rfl
      | error err => exact ⟨err, rfl⟩
    rw [same.1, ← (kept failed).2] at old
    exact old new

theorem uploadAtomic_iff (run : Executes system (uploadPreKeyBundle S ctx req) s trace a s') :
    UploadAtomic s s' a ↔ ¬ TornRun req s trace := by
  obtain ⟨rfl, -, quiet⟩ | ⟨d, spk, c₁, r, s₁, before, later, -, -, rfl, quiet, wrote, rest⟩ :=
    uploadPreKeyBundle_cases run
  · refine iff_of_true (fun _ => ⟨rfl, rfl⟩) ?_
    rintro ⟨d, args, time, c₁, c₂, mem, -⟩
    cases quiet _ mem
  · have quiet' : ∀ x ∈ before, x.1.isUpload = false := fun x hx => (quiet x hx).1
    obtain ⟨rfl, rfl, idle⟩ | ⟨db₁, written, rfl, ⟨rfl, rfl⟩ | ⟨rfl, rfl⟩⟩ :=
      Server.write_eq_some wrote
    · obtain ⟨rfl, -, rfl⟩ := rest
      refine iff_of_true (fun _ => ⟨rfl, rfl⟩) ?_
      rw [tornRun_iff quiet' (by simp)]
      rintro ⟨c₂, -, db, written, torn⟩
      rcases idle with refused | rfl
      · rw [refused] at written
        cases written
      · simp at torn
    · obtain ⟨empty, rfl, rfl, rfl⟩ | ⟨some', c₂, r, rfl, batch, outcome⟩ :=
        saveOneTimeKeys_cases rest
      · rw [tornRun_iff quiet' (by simp)]
        refine iff_of_true (fun ⟨err, failed⟩ => nomatch failed) ?_
        rintro ⟨c₂, -, torn⟩
        simp [empty, Torn] at torn
      · rw [tornRun_iff quiet' (by simp [Op.isUpload]),
          uploadAtomic_batch written (by simpa using some') batch outcome, not_iff_not]
        constructor
        · exact fun torn => ⟨c₂, fun _ _ => by simp, torn⟩
        · rintro ⟨c, mem, torn⟩
          obtain first | last := List.mem_append.mp (mem rfl some')
          · exact absurd rfl (quiet _ first).2
          · cases List.mem_singleton.mp last
            exact torn
    · obtain ⟨rfl, ⟨err, rfl⟩, rfl⟩ := rest
      rw [tornRun_iff quiet' (by simp), uploadAtomic_failApplied written, not_iff_not]
      exact ⟨fun ⟨c₂, torn⟩ => ⟨c₂, nofun, torn⟩, fun ⟨c₂, _, torn⟩ => ⟨c₂, torn⟩⟩

end Atomic

/-! ## Generated bundles -/

section Generated
open Pqxdh
variable {S : Platform} {s s' : Server} {ctx : Context} {d : UUID} 
  {P : Primitives Bytes Bytes}

/-- The request that uploads a bundle of `generate_pqxdh_keys`. -/
def bundleRequest (deviceId : String) (bundle : WasmPublicPreKeyBundle Bytes Bytes) :
    UploadPreKeyBundleRequest where
  deviceId := deviceId
  signedPreKey := some ⟨bundle.signedPreKeyId, bundle.signedPreKeyPublicHex.toOption,
    bundle.signedPreKeySignatureHex.toOption⟩
  pqPreKey := some ⟨bundle.pqPreKeyId, bundle.pqPreKeyPublicHex.toOption,
    bundle.pqPreKeySignatureHex.toOption⟩
  oneTimePreKeys := bundle.oneTimePreKeys.map fun k => ⟨k.keyId, k.publicKeyHex.toOption⟩

/-- The caller owns the device of the request. -/
structure Owner (S : Platform) (s : Server) (ctx : Context) (deviceId : String) (d : UUID) :
    Prop where
  named : deviceId ≠ "" ∧ S.parseUUID deviceId = some d
  caller : ∃ u, getUserIDFromCtx S ctx = .ok u ∧ u ≠ .nil ∧
    ∃ device, s.db.devices.lookup d = some device ∧ device.userID = u

/-- Nothing fails. -/
abbrev Calm (_ : Op) (c : Choice) : Prop := c = .ok

theorem saveOneTimeKeys_can {keys : List OneTimePreKey} :
    Can system Calm (fun (a : Answer Unit) _ => a = .ok () ↔
      (s.db.insertOneTimeKeys d (keys.map OneTimePreKey.otk)).isSome)
      (saveOneTimeKeys d keys) s := by
  unfold saveOneTimeKeys
  split
  · rename_i empty
    show _ ↔ _
    simp [empty, Database.insertOneTimeKeys]
  · cases inserted : s.db.insertOneTimeKeys d (keys.map OneTimePreKey.otk) with
    | none =>
      refine Can.call .ok (.error .failed) s rfl ?_ ?_
      · simp [system, Server.exec, inserted, Server.write]
      · show _ ↔ _
        simp
    | some db =>
      refine Can.call .ok (.ok ()) { s with db := db } rfl ?_ ?_
      · simp [system, Server.exec, inserted, Server.write]
      · show _ ↔ _
        simp

/-- The owner's upload of pre-keys with nothing missing succeeds if the one-time keys go in. -/
theorem uploadPreKeyBundle_can {req : UploadPreKeyBundleRequest} {spk : SignedKey} {db : Database}
    (owner : Owner S s ctx req.deviceId d) (signed : req.signedPreKey = some spk)
    (written : s.db.upsertPreKeys d (preKeyArgs spk req.pqPreKey) s.clock = some db) :
    Can system Calm (fun (a : Answer Unit) _ => a = .ok () ↔
      (db.insertOneTimeKeys d (req.oneTimePreKeys.map OneTimePreKey.otk)).isSome)
      (uploadPreKeyBundle S ctx req) s := by
  obtain ⟨⟨some', named⟩, u, caller, real, device, found, owns⟩ := owner
  unfold uploadPreKeyBundle withDevice
  simp only [some', named, signed, if_false]
  refine Can.bind ?_
  unfold verifyDeviceOwnership
  simp only [caller, real, if_false]
  refine Can.call .ok (.ok device) s rfl ?_ ?_
  · simp [system, Server.exec, Server.query, Server.orNoRows, found]
  · simp only [Prog.pure_bind, owns, ne_eq, not_true, if_false]
    refine Can.call .ok s.clock s rfl rfl ?_
    refine Can.call .ok (.ok ()) { s with db := db } rfl ?_ ?_
    · simp [system, Server.exec, Server.write, written]
    · exact @saveOneTimeKeys_can { s with db := db } d req.oneTimePreKeys

/-- No one-time key of the device has an id from 1 to `n`, and all these ids fit the column. -/
def Unused (db : Database) (d : UUID) (n : Nat) : Prop :=
  n ≤ maxInteger ∧ ∀ i, 1 ≤ i → i ≤ n → (d, i) ∉ db.oneTimeKeys

theorem bundleRequest_keys (deviceId : String) (seeds : KeySeeds Bytes) :
    (bundleRequest deviceId (seeds.publicBundle P)).oneTimePreKeys.map OneTimePreKey.otk =
      seeds.oneTimePreKeys.mapIdx fun i otk =>
        ⟨(UInt32.ofNat (i + 1)).toNat, some (P.x25519Public otk)⟩ := by
  apply List.ext_getElem
  · simp [bundleRequest, KeySeeds.publicBundle]
  · intro i _ _
    simp [bundleRequest, KeySeeds.publicBundle, OneTimePreKey.otk, Except.toOption]

theorem bundle_fits {db : Database} {deviceId : String} {seeds : KeySeeds Bytes}
    (device : d ∈ db.devices) :
    (db.insertOneTimeKeys d ((bundleRequest deviceId (seeds.publicBundle P)).oneTimePreKeys.map
      OneTimePreKey.otk)).isSome ↔ Unused db d seeds.oneTimePreKeys.length := by
  have id {i : Nat} (h : i < maxInteger) : (UInt32.ofNat (i + 1)).toNat = i + 1 := by
    rw [UInt32.toNat_ofNat', Nat.mod_eq_of_lt]
    simp only [maxInteger] at h
    omega
  have mem {k : OTK} : k ∈ seeds.oneTimePreKeys.mapIdx (fun i otk =>
      (⟨(UInt32.ofNat (i + 1)).toNat, some (P.x25519Public otk)⟩ : OTK)) ↔
      ∃ i, ∃ h : i < seeds.oneTimePreKeys.length,
        k = ⟨(UInt32.ofNat (i + 1)).toNat, some (P.x25519Public seeds.oneTimePreKeys[i])⟩ := by
    rw [List.mem_mapIdx]
    exact ⟨fun ⟨i, h, same⟩ => ⟨i, h, same.symm⟩, fun ⟨i, h, same⟩ => ⟨i, h, same.symm⟩⟩
  rw [bundleRequest_keys, Database.insertOneTimeKeys_isSome]
  simp only [device, implies_true, true_and, mem]
  constructor
  · rintro ⟨-, each⟩
    have bound : seeds.oneTimePreKeys.length ≤ maxInteger := by
      by_contra! many
      have last := (each _ ⟨maxInteger, many, rfl⟩).2.1
      rw [UInt32.toNat_ofNat', Nat.mod_eq_of_lt (by simp [maxInteger])] at last
      exact absurd last (Nat.not_succ_le_self _)
    refine ⟨bound, fun i low high => ?_⟩
    have new := (each _ ⟨i - 1, by omega, rfl⟩).2.2
    rwa [id (by omega), Nat.sub_add_cancel low] at new
  · rintro ⟨bound, unused⟩
    constructor
    · have ids : (seeds.oneTimePreKeys.mapIdx fun i otk =>
          (⟨(UInt32.ofNat (i + 1)).toNat, some (P.x25519Public otk)⟩ : OTK)).map OTK.keyID =
          (List.range seeds.oneTimePreKeys.length).map (· + 1) := by
        apply List.ext_getElem
        · simp
        · intro i hi _
          simp only [List.length_map, List.length_mapIdx] at hi
          rw [List.getElem_map, List.getElem_mapIdx, id (by omega)]
          simp
      rw [ids]
      exact List.nodup_range.map (Nat.succ_injective)
    · rintro _ ⟨i, hi, rfl⟩
      rw [id (by omega)]
      exact ⟨rfl, (Nat.succ_le_of_lt hi).trans bound, unused (i + 1) (by omega) (by omega)⟩

/-- A generated bundle has all that the table of pre-keys asks for. -/
theorem bundle_written {deviceId : String} {seeds : KeySeeds Bytes} (device : d ∈ s.db.devices) :
    ∃ spk db, (bundleRequest deviceId (seeds.publicBundle P)).signedPreKey = some spk ∧
      s.db.upsertPreKeys d (preKeyArgs spk
        (bundleRequest deviceId (seeds.publicBundle P)).pqPreKey) s.clock = some db := by
  have one : (1 : UInt32).toNat ≤ maxInteger := by decide
  exact ⟨_, _, rfl, if_pos ⟨one, one, device⟩⟩

/-- Its owner can upload a generated bundle whenever the server works, unless the device has had a
one-time key with one of its ids. -/
theorem upload_generated_iff {deviceId : String} {seeds : KeySeeds Bytes}
    (owner : Owner S s ctx deviceId d) :
    (∀ trace a s', Executes system (uploadPreKeyBundle S ctx
        (bundleRequest deviceId (seeds.publicBundle P))) s trace a s' →
      (∀ x ∈ trace, x.2 = .ok) → a = .ok ()) ↔ Unused s.db d seeds.oneTimePreKeys.length := by
  obtain ⟨u, -, -, device, found, -⟩ := owner.caller
  have known : d ∈ s.db.devices := AList.lookup_isSome.mp (by simp [found])
  obtain ⟨spk, db, signed, written⟩ := @bundle_written s d P deviceId seeds known
  obtain ⟨trace, a, t, run, calm, outcome⟩ := (uploadPreKeyBundle_can owner signed written).executes
  have same := Database.upsertPreKeys_oneTimeKeys written
  have fits : Unused db d seeds.oneTimePreKeys.length ↔
      Unused s.db d seeds.oneTimePreKeys.length := by
    rw [Unused, Unused, same.1]
  rw [← fits, ← bundle_fits (by rw [same.2]; exact known), ← outcome]
  constructor
  · exact fun succeeds => succeeds trace a t run calm
  · intro ok trace' a' t' run' calm'
    rw [← ok]
    exact (Executes.unique (fun _ => Choice.ok) run' run calm' calm).1

end Generated

theorem upload_atomic_and_repeatable_iff (S : Platform) (P : Pqxdh.Primitives Bytes Bytes) :
    (∀ ctx req s trace a s', Executes system (uploadPreKeyBundle S ctx req) s trace a s' →
      (UploadAtomic s s' a ↔ ¬ TornRun req s trace)) ∧
    ∀ ctx deviceId d s, Owner S s ctx deviceId d → ∀ seeds : Pqxdh.KeySeeds Bytes,
      (∀ trace a s', Executes system (uploadPreKeyBundle S ctx
          (bundleRequest deviceId (seeds.publicBundle P))) s trace a s' →
        (∀ x ∈ trace, x.2 = .ok) → a = .ok ()) ↔ Unused s.db d seeds.oneTimePreKeys.length :=
  ⟨fun _ _ _ _ _ _ run => uploadAtomic_iff run, fun _ _ _ _ owner _ => upload_generated_iff owner⟩

namespace Sample

/-- Keys that are their own public halves. -/
def keys : Pqxdh.Primitives Bytes Bytes where
  ed25519Public := id
  ed25519Sign key message := key ++ message
  ed25519Verify key message signature := signature = key ++ message
  x25519Public := id
  diffieHellman := (· ++ ·)
  kemGenerate secret := (secret, secret)
  encapsulate key random := some (key ++ random, random)
  decapsulate _ _ := none
  hkdfSha512 blocks _ := blocks.flatten
  domainSeparator := List.replicate 32 255
  slice := id
  length := List.length

/-- Keys of Alice's phone with one one-time key, all made from one byte. -/
def bundle (b : UInt8) : UploadPreKeyBundleRequest :=
  bundleRequest alicePhone.text (Pqxdh.KeySeeds.publicBundle keys ⟨[b], [b], [b], [b], [[b]]⟩)

def aliceContext : Context := ⟨alice.text, alicePhone.text⟩

def bundleRun (s : Server) (b : UInt8) : Option (List (Op × Choice) × Answer Unit × Server) :=
  play system (uploadPreKeyBundle platform aliceContext (bundle b)) s [.ok, .ok, .ok, .ok]

theorem first_isSome : (bundleRun twoPhones 1).isSome := by rfl

/-- Alice's phone has uploaded a bundle. -/
def oneBundle : Server := ((bundleRun twoPhones 1).get first_isSome).2.2

theorem second_isSome : (bundleRun oneBundle 2).isSome := by rfl

theorem alice_owner : Owner platform twoPhones aliceContext alicePhone.text alicePhone where
  named := by decide
  caller := ⟨alice, by rfl, by decide, ⟨alice, [1]⟩, by rfl, rfl⟩

end Sample

open Sample in
theorem upload_atomic_and_repeatable_sample :
    ∀ trace a s', Executes system (uploadPreKeyBundle platform aliceContext (bundle 1)) twoPhones
      trace a s' → (∀ x ∈ trace, x.2 = .ok) → a = .ok () :=
  ((upload_atomic_and_repeatable_iff platform keys).2 aliceContext alicePhone.text alicePhone
    twoPhones alice_owner ⟨[1], [1], [1], [1], [[1]]⟩).mpr
    ⟨by decide, fun _ _ _ => by simp [twoPhones, Database.empty]⟩

open Sample in
/-- The second bundle is refused for its one-time key, and its signed pre-key stays. -/
theorem second_bundle_torn : ∃ trace err t,
    Executes system (uploadPreKeyBundle platform aliceContext (bundle 2)) oneBundle trace
      (.error err) t ∧ (∀ x ∈ trace, x.2 = .ok) ∧ ¬ UploadAtomic oneBundle t (.error err) := by
  let run := (bundleRun oneBundle 2).get second_isSome
  let err : Status := ⟨.internal, "failed to upload one-time keys"⟩
  have refused : run.2.1 = .error err := by rfl
  refine ⟨run.1, err, run.2.2, ?_, by decide, fun kept => ?_⟩
  · rw [← refused]
    exact Executes.of_play _ (Option.some_get second_isSome).symm
  · have same := (kept ⟨err, rfl⟩).1
    have before : (oneBundle.db.preKeys.lookup (alicePhone, 1)).map PreKeys.spk = some [1] := by
      rfl
    have after : (run.2.2.db.preKeys.lookup (alicePhone, 1)).map PreKeys.spk = some [2] := by
      rfl
    rw [same, before] at after
    cases after

end GenChat.Auth
