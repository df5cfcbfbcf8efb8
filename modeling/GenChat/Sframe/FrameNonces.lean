import GenChat.Sframe.Transformer

/-!
# Nonces of a call

The key and the salt of a transformer come from the base secret alone, so the participants of a
call encrypt under one key, and each of them starts to count its frames at zero. Two frames meet
in a nonce exactly when two participants encrypt them as their n-th call for the same n.
-/
namespace GenChat.Sframe
open Library

/-- A frame that left a transformer: who encrypted it, in which of its calls, and under what. -/
structure EncryptedFrame where
  participant : Nat
  ordinal : Nat
  key : Vector UInt8 32
  nonce : List UInt8
  deriving DecidableEq

structure Conference where
  participants : List SFrameTransformer
  /-- Who called `encrypt_frame`, in this order. -/
  calls : List Nat
  frames : List EncryptedFrame

namespace Conference
variable (P : Primitives)

def start (keyIds : List UInt64) (baseSecret : Vector UInt8 32) : Conference :=
  ⟨keyIds.map fun keyId => .new P keyId baseSecret, [], []⟩

/-- The `i`-th participant encrypts a payload. -/
def step (w : Conference) (l : Nat × List UInt8) : Option Conference :=
  w.participants[l.1]?.map fun t =>
    let r := t.encryptFrame P l.2
    { participants := w.participants.set l.1 r.2
      calls := w.calls ++ [l.1]
      frames := match r.1 with
        | .ok _ => w.frames ++
          [⟨l.1, w.calls.count l.1, t.encryptionKey, frameNonce t.salt t.sendFrameCounter⟩]
        | .error _ => w.frames }

/-- Calls among participants with distinct key ids and one base secret. -/
def machine : Machine Conference (Nat × List UInt8) where
  start w := ∃ keyIds baseSecret, keyIds.Nodup ∧ w = start P keyIds baseSecret
  step := step P

/-- Every participant makes fewer than `2 ^ 64` calls. -/
def Fewer (w : Conference) (l : Nat × List UInt8) : Prop := w.calls.count l.1 + 1 < 2 ^ 64

def NoncesUnique (w : Conference) : Prop :=
  w.frames.Pairwise fun f g => ¬ (f.key = g.key ∧ f.nonce = g.nonce)

/-- No two participants encrypt a frame in their n-th call for the same n. -/
def OneEach (w : Conference) : Prop :=
  w.frames.Pairwise fun f g => f.ordinal = g.ordinal → f.participant = g.participant

end Conference

/-! ## Nonces determine counters -/

theorem zipWith_xor_inj {salt xs ys : List UInt8} (hx : xs.length = salt.length)
    (hy : ys.length = salt.length)
    (h : List.zipWith (· ^^^ ·) salt xs = List.zipWith (· ^^^ ·) salt ys) : xs = ys := by
  induction salt generalizing xs ys with
  | nil => simp_all
  | cons b salt ih =>
    obtain ⟨x, xs, rfl⟩ := List.exists_cons_of_length_eq_add_one hx
    obtain ⟨y, ys, rfl⟩ := List.exists_cons_of_length_eq_add_one hy
    simp only [List.zipWith_cons_cons, List.cons.injEq, List.length_cons,
      Nat.add_right_cancel_iff] at h hx hy
    have first : x = y := by simpa using h.1
    rw [first, ih hx hy h.2]

theorem frameNonce_inj {salt : Vector UInt8 12} {m n : UInt64} :
    frameNonce salt m = frameNonce salt n ↔ m = n := by
  refine ⟨fun h => ?_, fun h => h ▸ rfl⟩
  have bytes := zipWith_xor_inj (by simp) (by simp) (List.append_cancel_left h)
  have low := toBeBytes_inj.mp bytes
  have hm := m.toNat_lt
  have hn := n.toNat_lt
  exact UInt64.toNat.inj (by omega)

/-! ## Runs -/

namespace Conference
variable {P : Primitives} {w w' : Conference} {l : Nat × List UInt8}

/-- What a run from one base secret keeps. -/
structure Shared (P : Primitives) (baseSecret : Vector UInt8 32) (w : Conference) : Prop where
  keys : ∀ t ∈ w.participants, t.encryptionKey = P.hkdfExpand baseSecret "SFrame 1.0 Key" 32 ∧
    t.salt = P.hkdfExpand baseSecret "SFrame 1.0 Salt" 12
  counters : ∀ i t, w.participants[i]? = some t →
    t.sendFrameCounter.toNat = w.calls.count i ∧ w.calls.count i < 2 ^ 64
  frames : ∀ f ∈ w.frames, f.key = P.hkdfExpand baseSecret "SFrame 1.0 Key" 32 ∧
    f.nonce = frameNonce (P.hkdfExpand baseSecret "SFrame 1.0 Salt" 12) (UInt64.ofNat f.ordinal) ∧
    f.ordinal < w.calls.count f.participant ∧ f.ordinal < 2 ^ 64
  ordinals : w.frames.Pairwise fun f g => f.participant = g.participant → f.ordinal ≠ g.ordinal

/-- A call moves on the counter of its participant, whether it succeeds or not. -/
theorem step_cases (h : w.step P l = some w') :
    ∃ t, w.participants[l.1]? = some t ∧
      w'.participants = w.participants.set l.1
        { t with sendFrameCounter := t.sendFrameCounter + 1 } ∧
      w'.calls = w.calls ++ [l.1] ∧
      (w'.frames = w.frames ∨ w'.frames = w.frames ++
        [⟨l.1, w.calls.count l.1, t.encryptionKey, frameNonce t.salt t.sendFrameCounter⟩]) := by
  obtain ⟨t, ht, rfl⟩ := Option.map_eq_some_iff.mp h
  refine ⟨t, ht, ?_⟩
  cases sealed : P.encrypt t.encryptionKey (frameNonce t.salt t.sendFrameCounter)
      (frameHeader t.participantKeyId t.sendFrameCounter) l.2 with
  | none => simp [SFrameTransformer.encryptFrame, sealed]
  | some ct => simp [SFrameTransformer.encryptFrame, sealed]

theorem Shared.step {baseSecret : Vector UInt8 32} (hw : w.Shared P baseSecret) (fewer : Fewer w l)
    (h : w.step P l = some w') : w'.Shared P baseSecret := by
  obtain ⟨t, ht, participants, calls, frames⟩ := step_cases h
  obtain ⟨key, salt⟩ := hw.keys t (List.mem_of_getElem? ht)
  obtain ⟨counter, bound⟩ := hw.counters l.1 t ht
  have grows (i : Nat) : w.calls.count i ≤ w'.calls.count i := by
    rw [calls, List.count_append]
    omega
  have old : ∀ f ∈ w.frames, f.key = P.hkdfExpand baseSecret "SFrame 1.0 Key" 32 ∧
      f.nonce = frameNonce (P.hkdfExpand baseSecret "SFrame 1.0 Salt" 12)
        (UInt64.ofNat f.ordinal) ∧
      f.ordinal < w'.calls.count f.participant ∧ f.ordinal < 2 ^ 64 := by
    intro f hf
    obtain ⟨k, n, lt, small⟩ := hw.frames f hf
    exact ⟨k, n, lt.trans_le (grows _), small⟩
  refine ⟨?_, ?_, ?_, ?_⟩
  · intro u hu
    rw [participants] at hu
    rcases List.mem_or_eq_of_mem_set hu with before | rfl
    · exact hw.keys u before
    · exact ⟨key, salt⟩
  · intro i u hu
    rw [participants] at hu
    rw [calls, List.count_append]
    by_cases same : l.1 = i
    · subst same
      rw [List.getElem?_set_self (List.getElem?_eq_some_iff.mp ht).1] at hu
      cases hu
      unfold Fewer at fewer
      simp only [UInt64.toNat_add, counter, List.count_singleton_self]
      exact ⟨Nat.mod_eq_of_lt fewer, fewer⟩
    · rw [List.getElem?_set_ne same] at hu
      have none_more : List.count i [l.1] = 0 := List.count_eq_zero.mpr (by simp [Ne.symm same])
      simpa [none_more] using hw.counters i u hu
  · rcases frames with same | one
    · rw [same]
      exact old
    · rw [one]
      intro f hf
      rcases List.mem_append.mp hf with before | now
      · exact old f before
      · rw [List.mem_singleton.mp now]
        refine ⟨key, ?_, ?_, bound⟩
        · rw [salt, ← counter, UInt64.ofNat_toNat]
        · simp [calls]
  · rcases frames with same | one
    · rw [same]
      exact hw.ordinals
    · rw [one]
      refine List.pairwise_append.mpr ⟨hw.ordinals, List.pairwise_singleton _ _, ?_⟩
      intro f hf g hg same
      rw [List.mem_singleton.mp hg] at same ⊢
      have lt := (hw.frames f hf).2.2.1
      rw [same] at lt
      exact lt.ne

theorem Shared.start (keyIds : List UInt64) (baseSecret : Vector UInt8 32) :
    (start P keyIds baseSecret).Shared P baseSecret where
  keys t ht := by
    obtain ⟨keyId, -, rfl⟩ := List.mem_map.mp ht
    exact ⟨rfl, rfl⟩
  counters i t ht := by
    obtain ⟨keyId, -, rfl⟩ := List.mem_map.mp (List.mem_of_getElem? ht)
    exact ⟨rfl, by simp [Conference.start]⟩
  frames := nofun
  ordinals := .nil

theorem reach_shared (hw : (machine P).Reach Fewer w) : ∃ baseSecret, w.Shared P baseSecret := by
  refine hw.invariant (I := fun w => ∃ baseSecret, w.Shared P baseSecret) ?_ ?_
  · rintro _ ⟨keyIds, baseSecret, -, rfl⟩
    exact ⟨baseSecret, .start keyIds baseSecret⟩
  · rintro s l t ⟨baseSecret, hs⟩ fewer step
    exact ⟨baseSecret, hs.step fewer step⟩

theorem Shared.collide_iff {baseSecret : Vector UInt8 32} (hw : w.Shared P baseSecret)
    {f g : EncryptedFrame} (hf : f ∈ w.frames) (hg : g ∈ w.frames) :
    f.key = g.key ∧ f.nonce = g.nonce ↔ f.ordinal = g.ordinal := by
  obtain ⟨kf, nf, -, lf⟩ := hw.frames f hf
  obtain ⟨kg, ng, -, lg⟩ := hw.frames g hg
  rw [kf, kg, nf, ng, frameNonce_inj]
  refine ⟨fun ⟨_, same⟩ => ?_, fun same => ⟨rfl, by rw [same]⟩⟩
  have words := congrArg UInt64.toNat same
  simp only [UInt64.toNat_ofNat'] at words
  omega

/-- Frames of a call have unique nonces exactly if no two participants have a frame each from
their n-th call, for no n. -/
theorem noncesUnique_iff (hw : (machine P).Reach Fewer w) : NoncesUnique w ↔ OneEach w := by
  obtain ⟨baseSecret, shared⟩ := reach_shared hw
  constructor
  · intro unique
    refine unique.imp_of_mem ?_
    intro f g hf hg apart same
    exact absurd ((shared.collide_iff hf hg).mpr same) apart
  · intro each
    refine (each.and shared.ordinals).imp_of_mem ?_
    rintro f g hf hg ⟨one, own⟩ collide
    have same := (shared.collide_iff hf hg).mp collide
    exact own (one same) same

end Conference

/-! ## Two participants over stand-in primitives -/

section Sample

/-- A stand-in for the crates: a ciphertext is the message with a tag of 16 bytes. -/
def samplePrimitives : Primitives where
  hkdfExpand secret label n := Vector.ofFn fun i => UInt8.ofNat (secret[0].toNat + label.length + i)
  encrypt _ _ _ msg := if msg.length < 2 ^ 36 - 31 then some (msg ++ List.replicate 16 0) else none
  decrypt _ _ _ ct := if ct.drop (ct.length - 16) = List.replicate 16 0 then
    some (ct.take (ct.length - 16)) else none

def sampleConference : Conference := .start samplePrimitives [1001, 1002] (Vector.replicate 32 66)

/-- The participant at `i` sends a frame of one byte. -/
def sampleFrom (i : Nat) : Nat × List UInt8 := (i, [7])

instance (w : Conference) (l : Nat × List UInt8) : Decidable (Conference.Fewer w l) := by
  unfold Conference.Fewer; infer_instance

theorem sampleConference_start : (Conference.machine samplePrimitives).start sampleConference :=
  ⟨[1001, 1002], Vector.replicate 32 66, by decide, rfl⟩

/-- The first participant sends twice. -/
def sampleSolo : Option Conference :=
  (Conference.machine samplePrimitives).follow Conference.Fewer sampleConference
    [sampleFrom 0, sampleFrom 0]

/-- Each of the two sends one frame. -/
def sampleBoth : Option Conference :=
  (Conference.machine samplePrimitives).follow Conference.Fewer sampleConference
    [sampleFrom 0, sampleFrom 1]

theorem sampleSolo_isSome : sampleSolo.isSome := by rfl
theorem sampleBoth_isSome : sampleBoth.isSome := by rfl

theorem noncesUnique_iff_sample :
    Conference.NoncesUnique (sampleSolo.get sampleSolo_isSome) ↔
      Conference.OneEach (sampleSolo.get sampleSolo_isSome) :=
  Conference.noncesUnique_iff (P := samplePrimitives)
    ((Machine.Reach.start sampleConference_start).follow (Option.some_get _).symm)

/-- The first frames of two participants meet in key and nonce. -/
theorem first_frames_collide : ∃ w, (Conference.machine samplePrimitives).Reach Conference.Fewer w ∧
    ¬ Conference.NoncesUnique w := by
  refine ⟨sampleBoth.get sampleBoth_isSome,
    (Machine.Reach.start sampleConference_start).follow (Option.some_get _).symm, ?_⟩
  unfold Conference.NoncesUnique
  decide

end Sample

end GenChat.Sframe
