import GenChat.Library.Hex
import GenChat.Sframe.FrameNonces

/-!
# The WASM wrapper against one transformer

`sframe_encrypt` and `sframe_decrypt` build a transformer for every call and drop it afterwards, so
no counter outlives a call. A sequence of calls is compared with the same calls on one transformer:
the outputs agree exactly as long as no call depends on what the calls before it left behind.
-/
namespace GenChat.Sframe
open Crypto Library

/-- The errors of the wrapper, which leave it as texts. -/
inductive JsError where
  | invalidHex
  | wrongLength (got : Nat)
  | crypto (e : CryptoError)
  deriving DecidableEq

/-- `decode_32_hex`. -/
def decode32Hex (s : String) : Except JsError (Vector UInt8 32) :=
  match Hex.decode s with
  | none => .error .invalidHex
  | some bytes =>
    if h : bytes.length = 32 then .ok ⟨bytes.toArray, by simpa using h⟩
    else .error (.wrongLength bytes.length)

variable (P : Primitives)

def sframeEncrypt (participantKeyId : UInt64) (baseSecretHex : String)
    (framePayload : List UInt8) : Except JsError (List UInt8) := do
  let secret ← decode32Hex baseSecretHex
  let sframe := SFrameTransformer.new P participantKeyId secret
  (sframe.encryptFrame P framePayload).1.mapError .crypto

def sframeDecrypt (participantKeyId : UInt64) (baseSecretHex : String)
    (encryptedFrame : List UInt8) : Except JsError (List UInt8) := do
  let secret ← decode32Hex baseSecretHex
  let sframe := SFrameTransformer.new P participantKeyId secret
  (sframe.decryptFrame P encryptedFrame).1.mapError .crypto

/-! ## Sequences of calls -/

inductive SframeCall where
  | encrypt (payload : List UInt8)
  | decrypt (frame : List UInt8)
  deriving DecidableEq

/-- The bytes a call of the wrapper returns, `none` for an error. -/
def wasmOutput (participantKeyId : UInt64) (baseSecretHex : String) :
    SframeCall → Option (List UInt8)
  | .encrypt payload => (sframeEncrypt P participantKeyId baseSecretHex payload).toOption
  | .decrypt frame => (sframeDecrypt P participantKeyId baseSecretHex frame).toOption

def wasmOutputs (participantKeyId : UInt64) (baseSecretHex : String) (calls : List SframeCall) :
    List (Option (List UInt8)) :=
  calls.map (wasmOutput P participantKeyId baseSecretHex)

/-- A call on a transformer. -/
def SFrameTransformer.call (t : SFrameTransformer) :
    SframeCall → Except CryptoError (List UInt8) × SFrameTransformer
  | .encrypt payload => t.encryptFrame P payload
  | .decrypt frame => t.decryptFrame P frame

/-- The same for calls on one transformer. -/
def SFrameTransformer.outputs (t : SFrameTransformer) :
    List SframeCall → List (Option (List UInt8))
  | [] => []
  | c :: calls => (t.call P c).1.toOption :: outputs (t.call P c).2 calls

/-! ## Calls that depend on earlier ones -/

/-- What a frame decrypts to where no counter has been seen. -/
def openFrame (baseSecret : Vector UInt8 32) (frame : List UInt8) : Option (List UInt8) :=
  ((SFrameTransformer.new P 0 baseSecret).decryptFrame P frame).1.toOption

def frameKeyId (frame : List UInt8) : UInt64 := fromBeBytes ((frame.take 16).take 8)
def frameCounter (frame : List UInt8) : UInt64 := fromBeBytes ((frame.take 16).drop 8)

/-- The counter lies more than 128 behind the other one, so `decrypt_frame` counts it as a replay
once the other has been seen. -/
def Behind (counter highest : UInt64) : Prop := counter ≤ highest ∧ counter + 128 < highest

instance (counter highest : UInt64) : Decidable (Behind counter highest) := by
  unfold Behind; infer_instance

def encryptions (calls : List SframeCall) : Nat :=
  calls.countP fun
    | .encrypt _ => true
    | .decrypt _ => false

/-- The call does the same after the others as without them: it encrypts first (or after the
counter has wrapped), AES-GCM refuses its payload, or its frame is no authentic replay. -/
def Memoryless (baseSecret : Vector UInt8 32) (before : List SframeCall) : SframeCall → Prop
  | .encrypt payload => encryptions before % 2 ^ 64 = 0 ∨
      ∀ key nonce aad, P.encrypt key nonce aad payload = none
  | .decrypt frame => ∀ earlier, SframeCall.decrypt earlier ∈ before →
      (openFrame P baseSecret earlier).isSome → frameKeyId earlier = frameKeyId frame →
      Behind (frameCounter frame) (frameCounter earlier) → openFrame P baseSecret frame = none

/-! ## One call -/

variable {P} {baseSecret : Vector UInt8 32} {keyId : UInt64} {t : SFrameTransformer}
  {before : List SframeCall}

theorem Behind.mono {counter x highest : UInt64} (h : Behind counter x) (le : x ≤ highest) :
    Behind counter highest :=
  ⟨UInt64.le_trans h.1 le, UInt64.lt_of_lt_of_le h.2 le⟩

theorem rejects_iff {counter : UInt64} : t.rejects keyId counter = true ↔
    ∃ highest, t.receivedCounters keyId = some highest ∧ Behind counter highest := by
  unfold SFrameTransformer.rejects Behind
  cases t.receivedCounters keyId <;> simp

/-- A transformer made from the base secret. -/
structure Keyed (P : Primitives) (baseSecret : Vector UInt8 32) (keyId : UInt64)
    (t : SFrameTransformer) : Prop where
  participantKeyId : t.participantKeyId = keyId
  encryptionKey : t.encryptionKey = P.hkdfExpand baseSecret "SFrame 1.0 Key" 32
  salt : t.salt = P.hkdfExpand baseSecret "SFrame 1.0 Salt" 12

theorem keyed_new (P : Primitives) (baseSecret : Vector UInt8 32) (keyId : UInt64) :
    Keyed P baseSecret keyId (.new P keyId baseSecret) := ⟨rfl, rfl, rfl⟩

/-- What a frame decrypts to under the keys of a base secret. -/
theorem openFrame_eq (frame : List UInt8) : openFrame P baseSecret frame =
    if frame.length < 16 then none
    else P.decrypt (P.hkdfExpand baseSecret "SFrame 1.0 Key" 32)
      (frameNonce (P.hkdfExpand baseSecret "SFrame 1.0 Salt" 12) (frameCounter frame))
      (frame.take 16) (frame.drop 16) := by
  unfold openFrame SFrameTransformer.decryptFrame
  split
  · rfl
  · simp only [frameCounter]
    split
    · rename_i replay
      cases replay
    · split <;> simp_all [Except.toOption, SFrameTransformer.new]

/-- Decryption and its trace, in terms of what the frame opens to. -/
theorem decryptFrame_cases (keyed : Keyed P baseSecret keyId t) (frame : List UInt8) :
    (t.decryptFrame P frame).1.toOption =
        (if t.rejects (frameKeyId frame) (frameCounter frame) then none
          else openFrame P baseSecret frame) ∧
      (t.decryptFrame P frame).2 =
        if t.rejects (frameKeyId frame) (frameCounter frame) = false ∧
          (openFrame P baseSecret frame).isSome
        then t.record (frameKeyId frame) (frameCounter frame) else t := by
  rw [openFrame_eq]
  by_cases short : frame.length < 16
  · simp [SFrameTransformer.decryptFrame, short, Except.toOption]
  · simp only [SFrameTransformer.decryptFrame, short, if_false, keyed.encryptionKey, keyed.salt,
      frameKeyId, frameCounter]
    cases replay : t.rejects (fromBeBytes ((frame.take 16).take 8))
        (fromBeBytes ((frame.take 16).drop 8)) with
    | true => simp [Except.toOption]
    | false =>
      simp only [Bool.false_eq_true, if_false]
      split <;> simp_all [Except.toOption]

theorem encryptFrame_cases (keyed : Keyed P baseSecret keyId t) (payload : List UInt8) :
    (t.encryptFrame P payload).1.toOption =
        (P.encrypt (P.hkdfExpand baseSecret "SFrame 1.0 Key" 32)
          (frameNonce (P.hkdfExpand baseSecret "SFrame 1.0 Salt" 12) t.sendFrameCounter)
          (frameHeader keyId t.sendFrameCounter) payload).map
            (frameHeader keyId t.sendFrameCounter ++ ·) ∧
      (t.encryptFrame P payload).2 = { t with sendFrameCounter := t.sendFrameCounter + 1 } := by
  simp only [SFrameTransformer.encryptFrame, keyed.participantKeyId, keyed.encryptionKey,
    keyed.salt]
  split <;> simp_all [Except.toOption]

theorem frameHeader_inj {m n : UInt64} (h : frameHeader keyId m = frameHeader keyId n) : m = n := by
  have low := (append_toBeBytes_inj h).2
  have hm := m.toNat_lt
  have hn := n.toNat_lt
  exact UInt64.toNat.inj (by omega)

/-! ## What the calls before have left behind -/

/-- An earlier frame that was authentic. -/
def Opened (P : Primitives) (baseSecret : Vector UInt8 32) (before : List SframeCall)
    (frame : List UInt8) : Prop :=
  SframeCall.decrypt frame ∈ before ∧ (openFrame P baseSecret frame).isSome

/-- The transformer after these calls. -/
structure After (P : Primitives) (baseSecret : Vector UInt8 32) (keyId : UInt64)
    (before : List SframeCall) (t : SFrameTransformer) : Prop where
  keyed : Keyed P baseSecret keyId t
  counter : t.sendFrameCounter = UInt64.ofNat (encryptions before)
  seen : ∀ k highest, t.receivedCounters k = some highest →
    ∃ e, Opened P baseSecret before e ∧ frameKeyId e = k ∧ frameCounter e = highest
  bound : ∀ e, Opened P baseSecret before e →
    ∃ highest, t.receivedCounters (frameKeyId e) = some highest ∧ frameCounter e ≤ highest

theorem after_new (keyId : UInt64) : After P baseSecret keyId [] (.new P keyId baseSecret) where
  keyed := keyed_new P baseSecret keyId
  counter := rfl
  seen := nofun
  bound := by
    rintro e ⟨mem, -⟩
    cases mem

/-- The replay check looks at the highest counter; any authentic one will do. -/
theorem After.rejects_iff (h : After P baseSecret keyId before t) {k counter : UInt64} :
    t.rejects k counter = true ↔
      ∃ e, Opened P baseSecret before e ∧ frameKeyId e = k ∧ Behind counter (frameCounter e) := by
  rw [Sframe.rejects_iff]
  constructor
  · rintro ⟨highest, now, behind⟩
    obtain ⟨e, opened, key, counter⟩ := h.seen k highest now
    exact ⟨e, opened, key, counter ▸ behind⟩
  · rintro ⟨e, opened, rfl, behind⟩
    obtain ⟨highest, now, le⟩ := h.bound e opened
    exact ⟨highest, now, behind.mono le⟩

theorem Opened.append {frame : List UInt8} (h : Opened P baseSecret before frame)
    (after : List SframeCall) : Opened P baseSecret (before ++ after) frame :=
  ⟨List.mem_append_left _ h.1, h.2⟩

theorem After.encrypt (h : After P baseSecret keyId before t) (payload : List UInt8) :
    After P baseSecret keyId (before ++ [.encrypt payload]) (t.encryptFrame P payload).2 := by
  rw [(encryptFrame_cases h.keyed payload).2]
  refine ⟨⟨h.keyed.1, h.keyed.2, h.keyed.3⟩, ?_, ?_, ?_⟩
  · simp [encryptions, h.counter, UInt64.ofNat_add]
  · intro k highest now
    obtain ⟨e, opened, rest⟩ := h.seen k highest now
    exact ⟨e, opened.append _, rest⟩
  · rintro e ⟨mem, opened⟩
    exact h.bound e ⟨by simpa using mem, opened⟩

theorem After.decrypt (h : After P baseSecret keyId before t) (frame : List UInt8) :
    After P baseSecret keyId (before ++ [.decrypt frame]) (t.decryptFrame P frame).2 := by
  rw [(decryptFrame_cases h.keyed frame).2]
  have count : encryptions (before ++ [.decrypt frame]) = encryptions before := by
    simp [encryptions]
  -- An authentic frame is either the new one or was opened before.
  have either {e : List UInt8} (opened : Opened P baseSecret (before ++ [.decrypt frame]) e) :
      Opened P baseSecret before e ∨ e = frame := by
    rcases List.mem_append.mp opened.1 with old | new
    · exact .inl ⟨old, opened.2⟩
    · exact .inr (by simpa using new)
  split
  · rename_i recorded
    have now : Opened P baseSecret (before ++ [.decrypt frame]) frame := ⟨by simp, recorded.2⟩
    refine ⟨⟨h.keyed.1, h.keyed.2, h.keyed.3⟩, by simp [SFrameTransformer.record, h.counter, count],
      ?_, ?_⟩
    · intro k highest
      simp only [SFrameTransformer.record]
      split
      · rename_i same
        subst same
        intro known
        split at known
        · exact ⟨frame, now, rfl, Option.some.inj known⟩
        · rename_i le
          cases old : t.receivedCounters (frameKeyId frame) with
          | none =>
            rw [old] at known le
            refine ⟨frame, now, rfl, ?_⟩
            rw [← Option.some.inj known]
            exact UInt64.le_antisymm (UInt64.not_lt.mp le) UInt64.zero_le
          | some max =>
            rw [old] at known
            obtain ⟨e, opened, key, counter⟩ := h.seen _ max old
            exact ⟨e, opened.append _, key, counter.trans (Option.some.inj known)⟩
      · intro known
        obtain ⟨e, opened, rest⟩ := h.seen k highest known
        exact ⟨e, opened.append _, rest⟩
    · intro e opened
      simp only [SFrameTransformer.record]
      split
      · rename_i same
        refine ⟨_, rfl, ?_⟩
        rcases either opened with old | rfl
        · obtain ⟨max, known, le⟩ := h.bound e old
          rw [same] at known
          rw [known, Option.getD_some]
          split
          · rename_i lt
            exact UInt64.le_trans le (UInt64.le_of_lt lt)
          · exact le
        · split
          · exact UInt64.le_refl _
          · rename_i le
            exact UInt64.not_lt.mp le
      · rename_i other
        rcases either opened with old | rfl
        · exact h.bound e old
        · exact absurd rfl other
  · rename_i skipped
    refine ⟨h.keyed, by rw [h.counter, count], ?_, ?_⟩
    · intro k highest known
      obtain ⟨e, opened, rest⟩ := h.seen k highest known
      exact ⟨e, opened.append _, rest⟩
    · intro e opened
      rcases either opened with old | rfl
      · exact h.bound e old
      · -- The frame was rejected as a replay, so its counter lies below the highest.
        have replay : t.rejects (frameKeyId e) (frameCounter e) = true := by
          by_contra accepted
          exact skipped ⟨by simpa using accepted, opened.2⟩
        obtain ⟨highest, known, behind⟩ := Sframe.rejects_iff.mp replay
        exact ⟨highest, known, behind.1⟩

theorem After.call (h : After P baseSecret keyId before t) (c : SframeCall) :
    After P baseSecret keyId (before ++ [c]) (t.call P c).2 := by
  cases c with
  | encrypt payload => exact h.encrypt payload
  | decrypt frame => exact h.decrypt frame

/-! ## The comparison -/

variable {baseSecretHex : String}

theorem toOption_mapError {ε ε' α : Type} (r : Except ε α) (f : ε → ε') :
    (r.mapError f).toOption = r.toOption := by
  cases r <;> rfl

theorem wasmOutput_eq (secret : decode32Hex baseSecretHex = .ok baseSecret) (c : SframeCall) :
    wasmOutput P keyId baseSecretHex c =
      ((SFrameTransformer.new P keyId baseSecret).call P c).1.toOption := by
  cases c with
  | encrypt payload =>
    simp only [wasmOutput, sframeEncrypt, secret]
    exact toOption_mapError _ _
  | decrypt frame =>
    simp only [wasmOutput, sframeDecrypt, secret]
    exact toOption_mapError _ _

/-- The counter of the next frame is zero only after a multiple of `2 ^ 64` frames. -/
theorem After.counter_eq_zero (h : After P baseSecret keyId before t) :
    t.sendFrameCounter = 0 ↔ encryptions before % 2 ^ 64 = 0 := by
  rw [h.counter, ← UInt64.toNat_inj, UInt64.toNat_ofNat']
  rfl

/-- A call returns the same after the others as on a new transformer exactly if it does not depend
on them. -/
theorem After.output_iff (refuses : P.RefusesByMessage) (h : After P baseSecret keyId before t)
    (c : SframeCall) :
    ((SFrameTransformer.new P keyId baseSecret).call P c).1.toOption = (t.call P c).1.toOption ↔
      Memoryless P baseSecret before c := by
  cases c with
  | encrypt payload =>
    simp only [SFrameTransformer.call, (encryptFrame_cases h.keyed payload).1,
      (encryptFrame_cases (keyed_new P baseSecret keyId) payload).1,
      Memoryless, ← h.counter_eq_zero]
    constructor
    · intro same
      by_cases first : t.sendFrameCounter = 0
      · exact .inl first
      · -- Two ciphertexts would carry different headers, so there is none.
        right
        intro key nonce aad
        cases none_here : P.encrypt key nonce aad payload with
        | none => rfl
        | some ct =>
          have always (key' : Vector UInt8 32) (nonce' aad' : List UInt8) :
              ∃ ct', P.encrypt key' nonce' aad' payload = some ct' := by
            rw [← Option.isSome_iff_exists, refuses key' nonce' aad' key nonce aad payload,
              none_here, Option.isSome_some]
          obtain ⟨x, hx⟩ := always (P.hkdfExpand baseSecret "SFrame 1.0 Key" 32)
            (frameNonce (P.hkdfExpand baseSecret "SFrame 1.0 Salt" 12)
              (SFrameTransformer.new P keyId baseSecret).sendFrameCounter)
            (frameHeader keyId (SFrameTransformer.new P keyId baseSecret).sendFrameCounter)
          obtain ⟨y, hy⟩ := always (P.hkdfExpand baseSecret "SFrame 1.0 Key" 32)
            (frameNonce (P.hkdfExpand baseSecret "SFrame 1.0 Salt" 12) t.sendFrameCounter)
            (frameHeader keyId t.sendFrameCounter)
          rw [hx, hy, Option.map_some, Option.map_some, Option.some.injEq] at same
          have headers := (List.append_inj same (by simp [frameHeader])).1
          exact absurd (frameHeader_inj headers).symm first
    · rintro (first | refused)
      · rw [first]
        rfl
      · rw [refused, refused]
        rfl
  | decrypt frame =>
    have fresh : (SFrameTransformer.new P keyId baseSecret).rejects (frameKeyId frame)
        (frameCounter frame) = false := rfl
    simp only [SFrameTransformer.call, (decryptFrame_cases h.keyed frame).1,
      (decryptFrame_cases (keyed_new P baseSecret keyId) frame).1, fresh,
      Memoryless]
    constructor
    · intro same earlier mem opened key behind
      have replay : t.rejects (frameKeyId frame) (frameCounter frame) = true :=
        h.rejects_iff.mpr ⟨earlier, ⟨mem, opened⟩, key, behind⟩
      simpa [replay] using same
    · intro clean
      cases replay : t.rejects (frameKeyId frame) (frameCounter frame) with
      | false => rfl
      | true =>
        obtain ⟨e, opened, key, behind⟩ := h.rejects_iff.mp replay
        simp [clean e opened.1 opened.2 key behind]

theorem After.outputs_iff (refuses : P.RefusesByMessage)
    (secret : decode32Hex baseSecretHex = .ok baseSecret) (h : After P baseSecret keyId before t)
    (calls : List SframeCall) :
    wasmOutputs P keyId baseSecretHex calls = t.outputs P calls ↔
      ∀ earlier c later, calls = earlier ++ c :: later →
        Memoryless P baseSecret (before ++ earlier) c := by
  induction calls generalizing before t with
  | nil => simp [wasmOutputs, SFrameTransformer.outputs]
  | cons c calls ih =>
    have now := h.output_iff refuses c
    have rest := ih (h.call c)
    simp only [wasmOutputs, SFrameTransformer.outputs, List.map_cons, List.cons.injEq] at rest ⊢
    rw [wasmOutput_eq secret, now, rest]
    constructor
    · rintro ⟨first, others⟩ earlier d later split
      cases earlier with
      | nil =>
        cases split
        simpa using first
      | cons x earlier =>
        cases split
        simpa using others earlier d later rfl
    · intro all
      refine ⟨by simpa using all [] c calls rfl, fun earlier d later split => ?_⟩
      simpa using all (c :: earlier) d later (by rw [split]; rfl)

/-- The wrapper returns what one long-lived transformer returns exactly if no call depends on the
ones before it. -/
theorem wasm_refines_transformer_iff (refuses : P.RefusesByMessage)
    (secret : decode32Hex baseSecretHex = .ok baseSecret) (calls : List SframeCall) :
    wasmOutputs P keyId baseSecretHex calls =
        (SFrameTransformer.new P keyId baseSecret).outputs P calls ↔
      ∀ earlier c later, calls = earlier ++ c :: later → Memoryless P baseSecret earlier c := by
  simpa using (after_new keyId).outputs_iff refuses secret calls

/-! ## Two frames of one participant -/

section Sample

theorem samplePrimitives_refuses : samplePrimitives.RefusesByMessage := fun _ _ _ _ _ _ _ => rfl

def sampleHex : String := "4242424242424242424242424242424242424242424242424242424242424242"

def sampleSecret : Vector UInt8 32 := Vector.replicate 32 66

theorem sampleHex_decodes : decode32Hex sampleHex = .ok sampleSecret := by rfl

theorem wasm_refines_transformer_iff_sample :
    wasmOutputs samplePrimitives 1001 sampleHex [.encrypt [7]] =
        (SFrameTransformer.new samplePrimitives 1001 sampleSecret).outputs samplePrimitives
          [.encrypt [7]] ↔
      ∀ earlier c later, [SframeCall.encrypt [7]] = earlier ++ c :: later →
        Memoryless samplePrimitives sampleSecret earlier c :=
  wasm_refines_transformer_iff samplePrimitives_refuses sampleHex_decodes _

/-- The second frame of the wrapper repeats counter zero. -/
theorem second_frame_differs :
    wasmOutputs samplePrimitives 1001 sampleHex [.encrypt [7], .encrypt [8]] ≠
      (SFrameTransformer.new samplePrimitives 1001 sampleSecret).outputs samplePrimitives
        [.encrypt [7], .encrypt [8]] := by
  decide

end Sample

end GenChat.Sframe
