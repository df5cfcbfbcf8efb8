import GenChat.Sframe.Replay

/-!
# Frames that arrive out of order

A sender and a receiver made from one base secret. The frames arrive in any order, none of them
more than 128 behind the highest one accepted, and with forged frames in between. Each gives its
payload as long as the sum in the replay check stays within 64 bits.
-/
namespace GenChat.Sframe
open Crypto Library

/-- AES-GCM decrypts what it has encrypted. -/
def Primitives.Correct (P : Primitives) : Prop :=
  ∀ key nonce aad msg ct, P.encrypt key nonce aad msg = some ct →
    P.decrypt key nonce aad ct = some msg

section
variable (P : Primitives) (baseSecret : Vector UInt8 32) (sender : SFrameTransformer)
  (payloads : List (List UInt8))

/-- What the sender makes of the payloads, one after the other. -/
def sentFrames : List (Option (List UInt8)) := sender.outputs P (payloads.map .encrypt)

/-- A frame that reaches the receiver: one of the sender's with its payload, or a forged one. -/
structure Delivery where
  frame : List UInt8
  payload : Option (List UInt8)
  genuine : ∀ p ∈ payload, ∃ i : Nat, payloads[i]? = some p ∧
    (sentFrames P sender payloads)[i]? = some (some frame)
  forged : payload = none → openFrame P baseSecret frame = none

end

variable {P : Primitives} {baseSecret : Vector UInt8 32} {sender t : SFrameTransformer}
  {payloads : List (List UInt8)} {keyId : UInt64}

namespace SFrameTransformer

variable (P) in
/-- The transformer after these frames. -/
def afterAll (t : SFrameTransformer) (frames : List (List UInt8)) : SFrameTransformer :=
  frames.foldl (fun t frame => (t.decryptFrame P frame).2) t

/-- A frame of the sender's is at most 128 behind the highest accepted. -/
def Timely (t : SFrameTransformer) (d : Delivery P baseSecret sender payloads) : Prop :=
  d.payload.isSome → ∀ highest ∈ t.receivedCounters (frameKeyId d.frame),
    highest.toNat ≤ (frameCounter d.frame).toNat + 128

/-- The sum in the replay check stays within 64 bits for a frame of the sender's. -/
def SumFits (t : SFrameTransformer) (d : Delivery P baseSecret sender payloads) : Prop :=
  d.payload.isSome → t.checkOverflows d.frame = false

/-- A condition on each delivery, in the state that it meets. -/
def Each (ok : SFrameTransformer → Delivery P baseSecret sender payloads → Prop)
    (t : SFrameTransformer) : List (Delivery P baseSecret sender payloads) → Prop
  | [] => True
  | d :: ds => ok t d ∧ Each ok (t.decryptFrame P d.frame).2 ds

instance (t : SFrameTransformer) (d : Delivery P baseSecret sender payloads) :
    Decidable (Timely t d) :=
  have : Decidable (∀ highest ∈ t.receivedCounters (frameKeyId d.frame),
    highest.toNat ≤ (frameCounter d.frame).toNat + 128) := Option.decidableForallMem _
  inferInstanceAs (Decidable (d.payload.isSome → _))

instance decidableEach (ok : SFrameTransformer → Delivery P baseSecret sender payloads → Prop)
    [∀ t d, Decidable (ok t d)] (t : SFrameTransformer) :
    (ds : List (Delivery P baseSecret sender payloads)) → Decidable (Each ok t ds)
  | [] => .isTrue trivial
  | d :: ds =>
    have := decidableEach ok (t.decryptFrame P d.frame).2 ds
    inferInstanceAs (Decidable (ok t d ∧ Each ok (t.decryptFrame P d.frame).2 ds))

/-- The recorded counter of the key id is the maximum of these. -/
def Recorded (t : SFrameTransformer) (keyId : UInt64) (counters : List UInt64) : Prop :=
  match t.receivedCounters keyId with
  | none => counters = []
  | some highest => highest ∈ counters ∧ ∀ c ∈ counters, c ≤ highest

/-- Every frame gives its payload, a forged one nothing, and afterwards the maximum of the
counters is recorded. -/
structure RoundTrip (t : SFrameTransformer) (keyId : UInt64)
    (ds : List (Delivery P baseSecret sender payloads)) : Prop where
  payloads : t.outputs P (ds.map fun d => .decrypt d.frame) = ds.map (·.payload)
  recorded : (t.afterAll P (ds.map (·.frame))).Recorded keyId
    ((t.receivedCounters keyId).toList ++
      (ds.filter (·.payload.isSome)).map fun d => frameCounter d.frame)

end SFrameTransformer

/-! ## A frame of the sender's -/

theorem fromBeBytes_toBeBytes (n : UInt64) : fromBeBytes (toBeBytes 8 n.toNat) = n := by
  have low : n.toNat < 256 ^ 8 := n.toNat_lt
  rw [fromBeBytes, foldl_toBeBytes, Nat.zero_mul, Nat.zero_add, Nat.mod_eq_of_lt low,
    UInt64.ofNat_toNat]

@[simp] theorem length_frameHeader (k c : UInt64) : (frameHeader k c).length = 16 := by
  simp [frameHeader]

theorem frameKeyId_header (k c : UInt64) (ct : List UInt8) :
    frameKeyId (frameHeader k c ++ ct) = k := by
  rw [frameKeyId, List.take_left' (length_frameHeader k c), frameHeader,
    List.take_left' (length_toBeBytes 8 _), fromBeBytes_toBeBytes]

theorem frameCounter_header (k c : UInt64) (ct : List UInt8) :
    frameCounter (frameHeader k c ++ ct) = c := by
  rw [frameCounter, List.take_left' (length_frameHeader k c), frameHeader,
    List.drop_left' (length_toBeBytes 8 _), fromBeBytes_toBeBytes]

/-- The frames of the sender: a header with the counter of the call, and the sealed payload. -/
theorem sentFrames_spec (hs : Keyed P baseSecret keyId sender) {i : Nat} {frame : List UInt8}
    {payload : List UInt8} (plain : payloads[i]? = some payload)
    (sent : (sentFrames P sender payloads)[i]? = some (some frame)) :
    ∃ counter ct, frame = frameHeader keyId counter ++ ct ∧
      P.encrypt (P.hkdfExpand baseSecret "SFrame 1.0 Key" 32)
        (frameNonce (P.hkdfExpand baseSecret "SFrame 1.0 Salt" 12) counter)
        (frameHeader keyId counter) payload = some ct := by
  induction payloads generalizing sender i with
  | nil => simp at plain
  | cons first rest ih =>
    obtain ⟨output, state⟩ := encryptFrame_cases hs first
    cases i with
    | zero =>
      cases plain
      have out : (sender.encryptFrame P payload).1.toOption = some frame := by
        simpa [sentFrames, SFrameTransformer.outputs, SFrameTransformer.call] using sent
      rw [output] at out
      obtain ⟨ct, encrypted, rfl⟩ := Option.map_eq_some_iff.mp out
      exact ⟨_, ct, rfl, encrypted⟩
    | succ i =>
      have next : Keyed P baseSecret keyId (sender.encryptFrame P first).2 := by
        rw [state]
        exact ⟨hs.1, hs.2, hs.3⟩
      exact ih next plain sent

namespace Delivery
variable (d : Delivery P baseSecret sender payloads) {p : List UInt8}

theorem keyId_eq (hs : Keyed P baseSecret keyId sender) (h : d.payload = some p) :
    frameKeyId d.frame = keyId := by
  obtain ⟨i, plain, sent⟩ := d.genuine p h
  obtain ⟨counter, ct, eq, -⟩ := sentFrames_spec hs plain sent
  rw [eq, frameKeyId_header]

theorem opens (correct : P.Correct) (hs : Keyed P baseSecret keyId sender) :
    openFrame P baseSecret d.frame = d.payload := by
  cases h : d.payload with
  | none => exact d.forged h
  | some p =>
    obtain ⟨i, plain, sent⟩ := d.genuine p h
    obtain ⟨counter, ct, eq, encrypted⟩ := sentFrames_spec hs plain sent
    have long : ¬ d.frame.length < 16 := by
      rw [eq, List.length_append, length_frameHeader]
      omega
    rw [openFrame_eq, if_neg long, eq, frameCounter_header,
      List.take_left' (length_frameHeader keyId counter),
      List.drop_left' (length_frameHeader keyId counter)]
    exact correct _ _ _ _ _ encrypted

end Delivery

/-! ## One frame -/

namespace SFrameTransformer
variable {d : Delivery P baseSecret sender payloads} {keyId' : UInt64}

theorem checkOverflows_iff {frame : List UInt8} (long : 16 ≤ frame.length) :
    t.checkOverflows frame = true ↔ ∃ highest,
      t.receivedCounters (frameKeyId frame) = some highest ∧ frameCounter frame ≤ highest ∧
        2 ^ 64 ≤ (frameCounter frame).toNat + 128 := by
  unfold checkOverflows
  cases t.receivedCounters (frameKeyId frame) <;> simp [long]

/-- A sum that wraps is smaller than the counter itself. -/
theorem behind_of_overflow {counter highest : UInt64} (le : counter ≤ highest)
    (over_flow : 2 ^ 64 ≤ counter.toNat + 128) : Behind counter highest := by
  have low := counter.toNat_lt
  have order := UInt64.le_iff_toNat_le.mp le
  refine ⟨le, UInt64.lt_iff_toNat_lt.mpr ?_⟩
  rw [UInt64.toNat_add, show (128 : UInt64).toNat = 128 from rfl]
  omega

/-- A frame within the window is refused only where the sum wraps. -/
theorem Timely.rejects_iff (timely : Timely t d) (sent : d.payload.isSome)
    (long : 16 ≤ d.frame.length) :
    t.rejects (frameKeyId d.frame) (frameCounter d.frame) = true ↔
      t.checkOverflows d.frame = true := by
  rw [Sframe.rejects_iff, checkOverflows_iff long]
  constructor
  · rintro ⟨highest, known, behind⟩
    refine ⟨highest, known, behind.1, ?_⟩
    by_contra fits
    have far := Receiver.lt_of_behind behind (by omega)
    have near := timely sent highest known
    omega
  · rintro ⟨highest, known, le, wraps⟩
    exact ⟨highest, known, behind_of_overflow le wraps⟩

theorem decrypts_iff (correct : P.Correct) (hs : Keyed P baseSecret keyId sender)
    (ht : Keyed P baseSecret keyId' t) (timely : Timely t d) :
    (t.decryptFrame P d.frame).1.toOption = d.payload ↔ SumFits t d := by
  rw [(decryptFrame_cases ht d.frame).1, d.opens correct hs]
  cases h : d.payload with
  | none => simp [SumFits, h]
  | some p =>
    have opened : (openFrame P baseSecret d.frame).isSome := by simp [d.opens correct hs, h]
    have refused := timely.rejects_iff (by simp [h]) (Receiver.length_of_opens opened)
    simp only [SumFits, h, Option.isSome_some, true_imp_iff]
    cases wraps : t.checkOverflows d.frame <;> simp_all

theorem keyed_decrypt (ht : Keyed P baseSecret keyId t) (frame : List UInt8) :
    Keyed P baseSecret keyId (t.decryptFrame P frame).2 := by
  rw [(decryptFrame_cases ht frame).2]
  split
  · exact ⟨ht.1, ht.2, ht.3⟩
  · exact ht

/-- A frame that does not authenticate leaves no trace. -/
theorem decrypt_forged (ht : Keyed P baseSecret keyId t) {frame : List UInt8}
    (forged : openFrame P baseSecret frame = none) : (t.decryptFrame P frame).2 = t := by
  rw [(decryptFrame_cases ht frame).2]
  exact if_neg fun accepted => by simp [forged] at accepted

/-! ## Recorded counters -/

theorem recorded_self (t : SFrameTransformer) (keyId : UInt64) :
    t.Recorded keyId (t.receivedCounters keyId).toList := by
  unfold Recorded
  cases t.receivedCounters keyId <;> simp

theorem Recorded.record {counters : List UInt64} (h : t.Recorded keyId counters)
    (counter : UInt64) : (t.record keyId counter).Recorded keyId (counters ++ [counter]) := by
  unfold Recorded at h ⊢
  rw [Receiver.receivedCounters_record, if_pos rfl]
  cases known : t.receivedCounters keyId with
  | none =>
    rw [known] at h
    subst h
    have zero : (if counter > 0 then counter else 0) = counter := by
      split
      · rfl
      · rename_i le
        exact (UInt64.le_antisymm (UInt64.not_lt.mp le) UInt64.zero_le).symm
    simp [zero]
  | some highest =>
    rw [known] at h
    obtain ⟨mem, bound⟩ := h
    simp only [Option.getD_some]
    split
    · rename_i lt
      refine ⟨List.mem_append_right _ (List.mem_singleton_self _), fun c hc => ?_⟩
      rcases List.mem_append.mp hc with old | now
      · exact UInt64.le_trans (bound c old) (UInt64.le_of_lt lt)
      · exact UInt64.le_of_eq (List.mem_singleton.mp now)
    · rename_i le
      refine ⟨List.mem_append_left _ mem, fun c hc => ?_⟩
      rcases List.mem_append.mp hc with old | now
      · exact bound c old
      · exact (List.mem_singleton.mp now).symm ▸ UInt64.not_lt.mp le

/-- What a delivery adds to the counters. -/
theorem Recorded.delivery (correct : P.Correct) (hs : Keyed P baseSecret keyId sender)
    (ht : Keyed P baseSecret keyId' t) (timely : Timely t d) (fits : SumFits t d)
    {counters : List UInt64} (h : t.Recorded keyId counters) :
    (t.decryptFrame P d.frame).2.Recorded keyId
      (counters ++ ([d].filter (·.payload.isSome)).map fun d => frameCounter d.frame) := by
  have opens := d.opens correct hs
  cases sent : d.payload with
  | none => simpa [sent, decrypt_forged ht (opens.trans sent)] using h
  | some p =>
    rw [sent] at opens
    have passes : t.rejects (frameKeyId d.frame) (frameCounter d.frame) = false := by
      have refused := timely.rejects_iff (by simp [sent])
        (Receiver.length_of_opens (by rw [opens]; rfl))
      rw [fits (by simp [sent])] at refused
      simpa using refused
    rw [(decryptFrame_cases ht d.frame).2, if_pos ⟨passes, by rw [opens]; rfl⟩,
      d.keyId_eq hs sent]
    simpa [sent] using h.record (frameCounter d.frame)

/-! ## All frames -/

theorem outputs_iff (correct : P.Correct) (hs : Keyed P baseSecret keyId sender)
    (ht : Keyed P baseSecret keyId' t) (ds : List (Delivery P baseSecret sender payloads))
    (timely : Each Timely t ds) :
    t.outputs P (ds.map fun d => .decrypt d.frame) = ds.map (·.payload) ↔ Each SumFits t ds := by
  induction ds generalizing t with
  | nil => simp [outputs, Each]
  | cons d ds ih =>
    have rest := ih (keyed_decrypt ht d.frame) timely.2
    simp only [List.map_cons, outputs, List.cons.injEq, Each]
    exact and_congr (decrypts_iff correct hs ht timely.1) rest

theorem Recorded.deliveries (correct : P.Correct) (hs : Keyed P baseSecret keyId sender)
    (ht : Keyed P baseSecret keyId' t) (ds : List (Delivery P baseSecret sender payloads))
    (timely : Each Timely t ds) (fits : Each SumFits t ds) {counters : List UInt64}
    (h : t.Recorded keyId counters) :
    (t.afterAll P (ds.map (·.frame))).Recorded keyId
      (counters ++ (ds.filter (·.payload.isSome)).map fun d => frameCounter d.frame) := by
  induction ds generalizing t counters with
  | nil => simpa [afterAll] using h
  | cons d ds ih =>
    have first := h.delivery correct hs ht timely.1 fits.1
    have rest := ih (keyed_decrypt ht d.frame) timely.2 fits.2 first
    rwa [List.append_assoc, ← List.map_append, ← List.filter_append] at rest

/-- Frames within the window give their payloads exactly if the sum in the replay check never
leaves the 64 bits, and frames that do not authenticate leave no trace. -/
theorem roundTrip_iff (correct : P.Correct) (hs : Keyed P baseSecret keyId sender)
    (ht : Keyed P baseSecret keyId' t) (ds : List (Delivery P baseSecret sender payloads))
    (timely : Each Timely t ds) :
    (RoundTrip t keyId ds ↔ Each SumFits t ds) ∧
      ∀ frame, openFrame P baseSecret frame = none → (t.decryptFrame P frame).2 = t := by
  refine ⟨⟨fun h => ?_, fun fits => ⟨?_, ?_⟩⟩, fun frame => decrypt_forged ht⟩
  · exact (outputs_iff correct hs ht ds timely).mp h.payloads
  · exact (outputs_iff correct hs ht ds timely).mpr fits
  · exact (recorded_self t keyId).deliveries correct hs ht ds timely fits

/-- Any number of calls moves the counter only. -/
theorem encrypt_iterate (ht : Keyed P baseSecret keyId t) (payload : List UInt8) (n : Nat) :
    (fun t => (t.encryptFrame P payload).2)^[n] t =
      { t with sendFrameCounter := t.sendFrameCounter + UInt64.ofNat n } := by
  induction n with
  | zero => simp
  | succ n ih =>
    have here : Keyed P baseSecret keyId
        { t with sendFrameCounter := t.sendFrameCounter + UInt64.ofNat n } := ⟨ht.1, ht.2, ht.3⟩
    rw [Function.iterate_succ_apply', ih, (encryptFrame_cases here payload).2, UInt64.ofNat_add,
      ← UInt64.add_assoc]
    rfl

end SFrameTransformer

/-! ## Three frames over the stand-in primitives -/

section Sample
open SFrameTransformer

theorem samplePrimitives_correct : samplePrimitives.Correct := by
  intro key nonce aad msg ct encrypted
  simp only [samplePrimitives, Option.ite_none_right_eq_some, Option.some.injEq] at encrypted
  obtain ⟨-, rfl⟩ := encrypted
  simp [samplePrimitives]

def sampleSender (counter : UInt64) : SFrameTransformer :=
  { SFrameTransformer.new samplePrimitives 1001 sampleSecret with sendFrameCounter := counter }

theorem sampleSender_keyed (counter : UInt64) :
    Keyed samplePrimitives sampleSecret 1001 (sampleSender counter) := ⟨rfl, rfl, rfl⟩

theorem sampleSender_reached (calls : Nat) :
    (fun t => (t.encryptFrame samplePrimitives [0]).2)^[calls] (sampleSender 0) =
      sampleSender (UInt64.ofNat calls) := by
  rw [encrypt_iterate (sampleSender_keyed 0)]
  simp [sampleSender]

/-- A frame of one byte. -/
def sampleSealed (counter : UInt64) (byte : UInt8) : List UInt8 :=
  frameHeader 1001 counter ++ ([byte] ++ List.replicate 16 0)

/-- Two frames of the sender's, the later one first, and one that is too short. -/
def sampleDeliveries (counter : UInt64) :
    List (Delivery samplePrimitives sampleSecret (sampleSender counter) [[7], [8]]) :=
  [{ frame := sampleSealed (counter + 1) 8, payload := some [8]
     genuine := by rintro p ⟨rfl⟩; exact ⟨1, rfl, rfl⟩
     forged := nofun },
   { frame := [0], payload := none
     genuine := nofun
     forged := fun _ => rfl },
   { frame := sampleSealed counter 7, payload := some [7]
     genuine := by rintro p ⟨rfl⟩; exact ⟨0, rfl, rfl⟩
     forged := nofun }]

theorem roundTrip_iff_sample :
    (RoundTrip (.new samplePrimitives 1002 sampleSecret) 1001 (sampleDeliveries 0) ↔
        Each SumFits (.new samplePrimitives 1002 sampleSecret) (sampleDeliveries 0)) ∧
      ∀ frame, openFrame samplePrimitives sampleSecret frame = none →
        ((SFrameTransformer.new samplePrimitives 1002 sampleSecret).decryptFrame samplePrimitives
          frame).2 = .new samplePrimitives 1002 sampleSecret :=
  roundTrip_iff samplePrimitives_correct (sampleSender_keyed 0)
    (keyed_new samplePrimitives sampleSecret 1002) (sampleDeliveries 0) (by decide)

/-- Close to `2 ^ 64`, a frame that arrives just behind the next one is refused. -/
theorem late_frame_refused : ∃ (calls : Nat) (sender : SFrameTransformer)
      (ds : List (Delivery samplePrimitives sampleSecret sender [[7], [8]])),
    sender = (fun t => (t.encryptFrame samplePrimitives [0]).2)^[calls] (sampleSender 0) ∧
      Each Timely (.new samplePrimitives 1002 sampleSecret) ds ∧
      ¬ RoundTrip (.new samplePrimitives 1002 sampleSecret) 1001 ds := by
  obtain ⟨calls, many⟩ : ∃ calls : Nat, UInt64.ofNat calls = 18446744073709551614 :=
    ⟨_, UInt64.ofNat_toNat⟩
  refine ⟨calls, sampleSender 18446744073709551614, sampleDeliveries 18446744073709551614, ?_, ?_,
    fun h => absurd h.payloads ?_⟩
  · rw [sampleSender_reached, many]
  · decide
  · decide

end Sample

end GenChat.Sframe
