import GenChat.Sframe.Wasm
import Mathlib.Data.UInt

/-!
# Replayed frames

A transformer keeps the highest counter of each key id and turns away what lies more than 128
behind it. Within the window nothing tells a frame that was accepted before from a new one, and
for counters from `2 ^ 64 - 128` on the sum in the check leaves the 64 bits.
-/
namespace GenChat.Sframe
open Crypto Library

/-- The addition in the replay check overflows: a debug build panics, a release build wraps. -/
def SFrameTransformer.checkOverflows (t : SFrameTransformer) (frame : List UInt8) : Bool :=
  match t.receivedCounters (frameKeyId frame) with
  | some highest => 16 ≤ frame.length && frameCounter frame ≤ highest &&
      2 ^ 64 ≤ (frameCounter frame).toNat + 128
  | none => false

/-- A transformer with the frames it has accepted, by key id and counter. -/
structure Receiver where
  transformer : SFrameTransformer
  accepted : List (UInt64 × UInt64)
  overflowed : Bool

namespace Receiver
variable (P : Primitives)

def new (keyId : UInt64) (baseSecret : Vector UInt8 32) : Receiver :=
  ⟨.new P keyId baseSecret, [], false⟩

def receive (w : Receiver) (frame : List UInt8) : Receiver :=
  let r := w.transformer.decryptFrame P frame
  { transformer := r.2
    accepted := match r.1 with
      | .ok _ => w.accepted ++ [(frameKeyId frame, frameCounter frame)]
      | .error _ => w.accepted
    overflowed := w.overflowed || w.transformer.checkOverflows frame }

def receiveAll (w : Receiver) (frames : List (List UInt8)) : Receiver :=
  frames.foldl (receive P) w

/-- The counter is more than 128 behind one that was accepted under the key id. -/
def Outdated (w : Receiver) (keyId counter : UInt64) : Prop :=
  ∃ x ∈ w.accepted, x.1 = keyId ∧ counter.toNat + 128 < x.2.toNat

/-- No frame was accepted twice, outdated ones are refused without a trace, and no sum has left the
64 bits. -/
structure Protected (w : Receiver) : Prop where
  once : w.accepted.Nodup
  window : ∀ frame, w.Outdated (frameKeyId frame) (frameCounter frame) →
    ∃ e, w.transformer.decryptFrame P frame = (.error e, w.transformer)
  inBounds : w.overflowed = false

/-- An authentic frame with a pair that was accepted before is outdated, and the sum in the check
stays within 64 bits. -/
def Fresh (w : Receiver) (frame : List UInt8) : Prop :=
  ((openFrame P w.transformer.baseSecret frame).isSome →
    (frameKeyId frame, frameCounter frame) ∈ w.accepted →
    w.Outdated (frameKeyId frame) (frameCounter frame)) ∧
  w.transformer.checkOverflows frame = false

def AllFresh (w : Receiver) : List (List UInt8) → Prop
  | [] => True
  | frame :: frames => w.Fresh P frame ∧ (w.receive P frame).AllFresh frames

/-! ## The highest counter -/

/-- The transformer holds the highest accepted counter of each key id. -/
structure Sound (w : Receiver) : Prop where
  keyed : ∃ keyId, Keyed P w.transformer.baseSecret keyId w.transformer
  seen : ∀ k h, w.transformer.receivedCounters k = some h → (k, h) ∈ w.accepted
  bound : ∀ k c, (k, c) ∈ w.accepted → ∃ h, w.transformer.receivedCounters k = some h ∧ c ≤ h

/-- The frame passes the replay check and is authentic. -/
def Accepts (w : Receiver) (frame : List UInt8) : Prop :=
  w.transformer.rejects (frameKeyId frame) (frameCounter frame) = false ∧
    (openFrame P w.transformer.baseSecret frame).isSome

instance (w : Receiver) (frame : List UInt8) : Decidable (w.Accepts P frame) :=
  inferInstanceAs (Decidable (_ ∧ _))

variable {P} {w : Receiver} {frame : List UInt8}

theorem behind_of_lt {counter highest : UInt64} (h : counter.toNat + 128 < highest.toNat) :
    Behind counter highest := by
  have := highest.toNat_lt
  refine ⟨UInt64.le_iff_toNat_le.mpr (by omega), UInt64.lt_iff_toNat_lt.mpr ?_⟩
  rw [UInt64.toNat_add]
  exact lt_of_le_of_lt (Nat.mod_le _ _) h

theorem lt_of_behind {counter highest : UInt64} (h : Behind counter highest)
    (fits : counter.toNat + 128 < 2 ^ 64) : counter.toNat + 128 < highest.toNat := by
  have lt := UInt64.lt_iff_toNat_lt.mp h.2
  rw [UInt64.toNat_add] at lt
  rwa [show (128 : UInt64).toNat = 128 from rfl, Nat.mod_eq_of_lt fits] at lt

/-- What a call records and returns. -/
theorem receive_eq (sound : w.Sound P) (frame : List UInt8) : w.receive P frame =
    if w.Accepts P frame then
      ⟨w.transformer.record (frameKeyId frame) (frameCounter frame),
        w.accepted ++ [(frameKeyId frame, frameCounter frame)],
        w.overflowed || w.transformer.checkOverflows frame⟩
    else ⟨w.transformer, w.accepted, w.overflowed || w.transformer.checkOverflows frame⟩ := by
  obtain ⟨keyId, keyed⟩ := sound.keyed
  obtain ⟨output, state⟩ := decryptFrame_cases keyed frame
  by_cases accepts : w.Accepts P frame
  · obtain ⟨passes, opens⟩ := accepts
    obtain ⟨payload, opened⟩ := Option.isSome_iff_exists.mp opens
    cases result : (w.transformer.decryptFrame P frame).1 with
    | error e => simp [result, passes, opened, Except.toOption] at output
    | ok payload' => simp [receive, result, state, Accepts, passes, opens]
  · have refused : (w.transformer.decryptFrame P frame).1.toOption = none := by
      rw [output]
      by_cases passes : w.transformer.rejects (frameKeyId frame) (frameCounter frame) = true
      · rw [if_pos passes]
      · rw [if_neg passes]
        by_contra opens
        exact accepts ⟨by simpa using passes, Option.isSome_iff_ne_none.mpr opens⟩
    rw [if_neg accepts] at *
    unfold Accepts at accepts
    rw [if_neg accepts] at state
    cases result : (w.transformer.decryptFrame P frame).1 with
    | ok payload => simp [result, Except.toOption] at refused
    | error e => simp [receive, result, state]

theorem receivedCounters_record (t : SFrameTransformer) (keyId counter k : UInt64) :
    (t.record keyId counter).receivedCounters k =
      if k = keyId then
        some (if counter > (t.receivedCounters keyId).getD 0 then counter
          else (t.receivedCounters keyId).getD 0)
      else t.receivedCounters k := rfl

theorem Sound.new (keyId : UInt64) (baseSecret : Vector UInt8 32) :
    (Receiver.new P keyId baseSecret).Sound P where
  keyed := ⟨keyId, keyed_new P baseSecret keyId⟩
  seen := nofun
  bound := nofun

theorem Sound.receive (sound : w.Sound P) (frame : List UInt8) : (w.receive P frame).Sound P := by
  rw [receive_eq sound]
  split
  · obtain ⟨keyId, keyed⟩ := sound.keyed
    refine ⟨⟨keyId, keyed.1, keyed.2, keyed.3⟩, ?_, ?_⟩
    · intro k h known
      rw [receivedCounters_record] at known
      split at known
      · rename_i same
        cases old : w.transformer.receivedCounters (frameKeyId frame) with
        | none =>
          -- The first frame of a key id sets its counter, even where that is zero.
          rw [old, Option.getD_none] at known
          have zero : frameCounter frame = h := by
            split at known
            · exact Option.some.inj known
            · rename_i le
              rw [← Option.some.inj known]
              exact UInt64.le_antisymm (UInt64.not_lt.mp le) UInt64.zero_le
          simp [same, zero]
        | some highest =>
          rw [old, Option.getD_some] at known
          split at known
          · simp [same, ← Option.some.inj known]
          · rw [same, ← Option.some.inj known]
            exact List.mem_append_left _ (sound.seen _ _ old)
      · exact List.mem_append_left _ (sound.seen k h known)
    · intro k c mem
      rw [receivedCounters_record]
      rcases List.mem_append.mp mem with old | now
      · obtain ⟨h, known, le⟩ := sound.bound k c old
        split
        · rename_i same
          rw [same] at known
          refine ⟨_, rfl, ?_⟩
          rw [known, Option.getD_some]
          split
          · rename_i lt
            exact UInt64.le_trans le (UInt64.le_of_lt lt)
          · exact le
        · exact ⟨h, known, le⟩
      · obtain ⟨rfl, rfl⟩ := Prod.mk.inj (List.mem_singleton.mp now)
        rw [if_pos rfl]
        refine ⟨_, rfl, ?_⟩
        split
        · exact UInt64.le_refl _
        · rename_i le
          exact UInt64.not_lt.mp le
  · exact ⟨sound.keyed, sound.seen, sound.bound⟩

/-! ## Protection -/

/-- The replay check refuses what is outdated. -/
theorem Sound.rejects_outdated (sound : w.Sound P) {keyId counter : UInt64}
    (outdated : w.Outdated keyId counter) : w.transformer.rejects keyId counter = true := by
  obtain ⟨⟨k, c⟩, mem, rfl, lt⟩ := outdated
  obtain ⟨h, known, le⟩ := sound.bound k c mem
  have := UInt64.le_iff_toNat_le.mp le
  dsimp only at lt
  exact rejects_iff.mpr ⟨h, known, behind_of_lt (by omega)⟩

theorem Sound.window (sound : w.Sound P)
    (outdated : w.Outdated (frameKeyId frame) (frameCounter frame)) :
    ∃ e, w.transformer.decryptFrame P frame = (.error e, w.transformer) := by
  have rejected := sound.rejects_outdated outdated
  unfold SFrameTransformer.decryptFrame
  split
  · exact ⟨_, rfl⟩
  · exact ⟨_, if_pos rejected⟩

theorem Sound.protected_iff (sound : w.Sound P) :
    w.Protected P ↔ w.accepted.Nodup ∧ w.overflowed = false :=
  ⟨fun h => ⟨h.once, h.inBounds⟩, fun h => ⟨h.1, fun _ => sound.window, h.2⟩⟩

/-- Where the sum fits, the check refuses exactly what is outdated. -/
theorem Sound.outdated_of_rejects (sound : w.Sound P) (long : 16 ≤ frame.length)
    (fits : w.transformer.checkOverflows frame = false)
    (rejected : w.transformer.rejects (frameKeyId frame) (frameCounter frame) = true) :
    w.Outdated (frameKeyId frame) (frameCounter frame) := by
  obtain ⟨h, known, behind⟩ := rejects_iff.mp rejected
  have sum : (frameCounter frame).toNat + 128 < 2 ^ 64 := by
    simp [SFrameTransformer.checkOverflows, known, long, behind.1] at fits
    omega
  exact ⟨_, sound.seen _ _ known, rfl, lt_of_behind behind sum⟩

theorem length_of_opens {baseSecret : Vector UInt8 32}
    (opens : (openFrame P baseSecret frame).isSome) : 16 ≤ frame.length := by
  by_contra short
  simp [openFrame_eq, not_le.mp short] at opens

/-- A call keeps the protection exactly if its frame is fresh. -/
theorem Sound.receive_protected_iff (sound : w.Sound P) (frame : List UInt8) :
    (w.receive P frame).Protected P ↔ w.Protected P ∧ w.Fresh P frame := by
  rw [(sound.receive frame).protected_iff, sound.protected_iff, receive_eq sound]
  by_cases fits : w.transformer.checkOverflows frame = false
  · by_cases accepts : w.Accepts P frame
    · obtain ⟨passes, opens⟩ := accepts
      have current : ¬ w.Outdated (frameKeyId frame) (frameCounter frame) := by
        intro outdated
        rw [sound.rejects_outdated outdated] at passes
        cases passes
      simp only [Accepts, passes, opens, Fresh, fits, Bool.or_false, and_self, if_true, and_true,
        true_imp_iff, List.nodup_append, List.nodup_singleton, List.mem_singleton]
      grind
    · have fresh : w.Fresh P frame := by
        refine ⟨fun opens _ => ?_, fits⟩
        refine sound.outdated_of_rejects (length_of_opens opens) fits ?_
        by_contra passes
        exact accepts ⟨by simpa using passes, opens⟩
      simp [accepts, fresh, fits]
  · have beyond : w.transformer.checkOverflows frame = true := by simpa using fits
    have stale : ¬ w.Fresh P frame := fun fresh => fits fresh.2
    split <;> simp [beyond, stale]

/-- A run of calls on one transformer is protected exactly if each of its frames is fresh. -/
theorem replay_protected_iff (keyId : UInt64) (baseSecret : Vector UInt8 32)
    (frames : List (List UInt8)) :
    ((Receiver.new P keyId baseSecret).receiveAll P frames).Protected P ↔
      (Receiver.new P keyId baseSecret).AllFresh P frames := by
  have run (w : Receiver) (sound : w.Sound P) : (w.receiveAll P frames).Protected P ↔
      w.Protected P ∧ w.AllFresh P frames := by
    induction frames generalizing w with
    | nil => simp [receiveAll, AllFresh]
    | cons frame frames ih =>
      have rest := ih (w.receive P frame) (sound.receive frame)
      rw [sound.receive_protected_iff, and_assoc] at rest
      exact rest
  have start : (Receiver.new P keyId baseSecret).Protected P :=
    (Sound.new keyId baseSecret).protected_iff.mpr ⟨.nil, rfl⟩
  rw [run _ (Sound.new keyId baseSecret)]
  exact and_iff_right start

end Receiver

/-! ## Repeated frames over the stand-in primitives -/

section Sample

def sampleReceiver : Receiver := .new samplePrimitives 1001 sampleSecret

/-- A frame of one byte under this counter. -/
def sampleFrame (counter : UInt64) : List UInt8 :=
  frameHeader 1001 counter ++ [7] ++ List.replicate 16 0

set_option maxRecDepth 20000

/-- A frame that arrives twice is accepted twice, and a counter close to `2 ^ 64` makes the sum
overflow. -/
theorem replayed_frame_accepted :
    ¬ (sampleReceiver.receiveAll samplePrimitives [sampleFrame 3, sampleFrame 3]).Protected
        samplePrimitives ∧
      ¬ (sampleReceiver.receiveAll samplePrimitives
        [sampleFrame (2 ^ 64 - 1), sampleFrame (2 ^ 64 - 100)]).Protected samplePrimitives := by
  refine ⟨fun h => absurd h.once ?_, fun h => absurd h.inBounds ?_⟩
  · decide
  · decide

end Sample

end GenChat.Sframe
