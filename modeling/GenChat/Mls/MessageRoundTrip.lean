import GenChat.Mls.Agreement

/-!
# Application messages reach the other members

`encrypt_message` and `decrypt_message` each build key, nonce and associated data from the header
fields of the message. They build the same where the states agree, and a message with another
header or another ciphertext finds a sealing that nobody has made.
-/
namespace GenChat.Mls
open Crypto Library MlsGroup

variable {Block Bytes : Type} (P : Primitives Block Bytes)

/-- The plaintexts, encrypted one after the other. -/
def MlsGroup.encryptAll (g : MlsGroup Block) :
    List Bytes → List (Except CryptoError (MlsCiphertext Bytes))
  | [] => []
  | plaintext :: rest =>
    let r := g.encryptMessage P plaintext
    r.1 :: encryptAll r.2 rest

/-- What `encrypt_message` gives to AES-GCM in this generation. -/
def MlsGroup.sealing (g : MlsGroup Block) (generation : Nat) (plaintext : Bytes) :
    Sealing Block Bytes :=
  ⟨messageKey P g.applicationSecret generation, messageNonce g.myLeafIndex generation,
    messageAd P g.groupId g.epoch generation, plaintext⟩

/-- The encryptions of an epoch. -/
def MlsGroup.sealings (g : MlsGroup Block) (plaintexts : List Bytes) :
    List (Sealing Block Bytes) :=
  plaintexts.mapIdx fun generation plaintext => g.sealing P generation plaintext

/-- One of the header fields that `decrypt_message` reads was changed, or the ciphertext was. A
message that changes both may be another one of the sender's. -/
inductive MlsCiphertext.Altered (msg msg' : MlsCiphertext Bytes) : Prop where
  | groupId : msg'.groupId ≠ msg.groupId → Altered msg msg'
  | epoch : msg'.epoch ≠ msg.epoch → Altered msg msg'
  | generation : msg'.generation ≠ msg.generation → msg'.ciphertext = msg.ciphertext →
    Altered msg msg'
  | senderLeafIndex : msg'.senderLeafIndex ≠ msg.senderLeafIndex →
    msg'.ciphertext = msg.ciphertext → Altered msg msg'
  | ciphertext : msg'.ciphertext ≠ msg.ciphertext → msg'.generation = msg.generation →
    msg'.senderLeafIndex = msg.senderLeafIndex → Altered msg msg'

/-- The generation is a 32-bit number, and so is the leaf index. -/
def MlsCiphertext.InRange (msg : MlsCiphertext Bytes) : Prop :=
  msg.generation < 2 ^ 32 ∧ msg.senderLeafIndex < 2 ^ 32

variable {P} {g r : MlsGroup Block} {plaintexts : List Bytes} {msg : MlsCiphertext Bytes}

/-! ## The header -/

theorem messageNonce_inj {leaf leaf' k k' : Nat}
    (h : messageNonce leaf k = messageNonce leaf' k') :
    leaf % 2 ^ 32 = leaf' % 2 ^ 32 ∧ k % 2 ^ 64 = k' % 2 ^ 64 := by
  obtain ⟨leaves, generations⟩ := List.append_inj h (by simp)
  exact ⟨toBeBytes_inj.mp leaves, toBeBytes_inj.mp generations⟩

theorem decryptMessage_eq_ok {plaintext : Bytes} : r.decryptMessage P msg = .ok plaintext ↔
    msg.groupId = r.groupId ∧ msg.epoch = r.epoch ∧
      P.aesGcmDecrypt (messageKey P r.applicationSecret msg.generation)
        (messageNonce msg.senderLeafIndex msg.generation)
        (messageAd P r.groupId r.epoch msg.generation) msg.ciphertext = .ok plaintext := by
  unfold decryptMessage
  split
  · rename_i other
    simp [other]
  · split
    · rename_i other
      simp [other]
    · rename_i group epoch
      simp only [not_not] at group epoch
      simp only [group, epoch, true_and]
      split <;> simp_all

theorem encryptMessage_eq_ok {plaintext : Bytes} :
    (g.encryptMessage P plaintext).1 = .ok msg ↔
      ∃ ct, (g.sealing P g.messageGeneration plaintext).encrypt P = .ok ct ∧
        msg = ⟨g.groupId, g.epoch, g.myLeafIndex, g.messageGeneration,
          messageNonce g.myLeafIndex g.messageGeneration, ct⟩ := by
  simp only [encryptMessage, sealing, Sealing.encrypt]
  generalize P.aesGcmEncrypt _ _ _ _ = result
  cases result with
  | error e => simp
  | ok ct => simp [eq_comm]

/-! ## The messages of an epoch -/

theorem getElem?_encryptAll (small : g.messageGeneration < 2 ^ 32) (i : Nat) :
    (g.encryptAll P plaintexts)[i]? = plaintexts[i]?.map fun plaintext =>
      ({ g with messageGeneration := (g.messageGeneration + i) % 2 ^ 32 }.encryptMessage P
        plaintext).1 := by
  induction plaintexts generalizing g i with
  | nil => rfl
  | cons plaintext rest ih =>
    cases i with
    | zero =>
      have same : (g.messageGeneration + 0) % 2 ^ 32 = g.messageGeneration := by omega
      simp only [encryptAll, List.getElem?_cons_zero, Option.map_some, same]
    | succ i =>
      have next : (g.messageGeneration + 1) % 2 ^ 32 < 2 ^ 32 := Nat.mod_lt _ (by decide)
      have moved : ((g.messageGeneration + 1) % 2 ^ 32 + i) % 2 ^ 32 =
          (g.messageGeneration + (i + 1)) % 2 ^ 32 := by omega
      simp only [encryptAll, encryptMessage_snd, List.getElem?_cons_succ]
      rw [ih next, moved]

theorem mem_sealings {s : Sealing Block Bytes} : s ∈ g.sealings P plaintexts ↔
    ∃ i plaintext, plaintexts[i]? = some plaintext ∧ s = g.sealing P i plaintext := by
  simp only [sealings, List.mem_iff_getElem?, List.getElem?_mapIdx, Option.map_eq_some_iff]
  grind

/-- A message of the run, and the encryption that it comes from. -/
theorem encryptAll_eq_ok (start : g.messageGeneration = 0) (few : plaintexts.length ≤ 2 ^ 32)
    {i : Nat} {plaintext : Bytes} (sent : plaintexts[i]? = some plaintext)
    (out : (g.encryptAll P plaintexts)[i]? = some (.ok msg)) :
    i < 2 ^ 32 ∧ ∃ ct, (g.sealing P i plaintext).encrypt P = .ok ct ∧
      msg = ⟨g.groupId, g.epoch, g.myLeafIndex, i, messageNonce g.myLeafIndex i, ct⟩ := by
  have bound : i < 2 ^ 32 := by
    have := (List.getElem?_eq_some_iff.mp sent).1
    omega
  rw [getElem?_encryptAll (by omega), sent, start, Nat.zero_add, Nat.mod_eq_of_lt bound] at out
  exact ⟨bound, encryptMessage_eq_ok.mp (Option.some.inj out)⟩

/-- Members in one state exchange the messages of the epoch, and refuse them where a header field
or the ciphertext was altered. Nobody else encrypts under a message key of the epoch with a nonce
of the sender's. -/
theorem messages_roundTrip {others : List (Sealing Block Bytes)}
    (ideal : P.AeadIdeal (g.sealings P plaintexts ++ others))
    (apart : ∀ s ∈ g.sealings P plaintexts, ∀ s' ∈ others, s.key = s'.key → s.nonce ≠ s'.nonce)
    (start : g.messageGeneration = 0) (few : plaintexts.length ≤ 2 ^ 32)
    (leaf : g.myLeafIndex < 2 ^ 32) (group : r.groupId = g.groupId) (epoch : r.epoch = g.epoch)
    (secret : r.applicationSecret = g.applicationSecret) {i : Nat} {plaintext : Bytes}
    (sent : plaintexts[i]? = some plaintext)
    (out : (g.encryptAll P plaintexts)[i]? = some (.ok msg)) :
    r.decryptMessage P msg = .ok plaintext ∧
      ∀ altered, msg.Altered altered → altered.InRange →
        ∃ e, r.decryptMessage P altered = .error e := by
  obtain ⟨bound, ct, encrypted, rfl⟩ := encryptAll_eq_ok start few sent out
  have mine : g.sealing P i plaintext ∈ g.sealings P plaintexts :=
    mem_sealings.mpr ⟨i, plaintext, sent, rfl⟩
  have made := List.mem_append_left others mine
  refine ⟨?_, fun altered change range => ?_⟩
  · rw [decryptMessage_eq_ok, group, epoch, secret]
    exact ⟨rfl, rfl, (ideal.decrypt_iff ..).mpr ⟨made, encrypted⟩⟩
  · cases result : r.decryptMessage P altered with
    | error e => exact ⟨e, rfl⟩
    | ok opened =>
      exfalso
      rw [decryptMessage_eq_ok, group, epoch, secret, ideal.decrypt_iff] at result
      obtain ⟨sameGroup, sameEpoch, found, again⟩ := result
      obtain ⟨generations, leaves⟩ := range
      -- A ciphertext belongs to one encryption, so the header cannot have changed.
      have header (same : altered.ciphertext = ct) : altered.generation = i ∧
          altered.senderLeafIndex = g.myLeafIndex := by
        rw [same] at again
        have one := ideal.distinct _ made _ found ct encrypted again
        obtain ⟨leaf', generation⟩ := messageNonce_inj (congrArg Sealing.nonce one)
        exact ⟨by omega, by omega⟩
      cases change with
      | groupId other => exact other sameGroup
      | epoch other => exact other sameEpoch
      | generation other same => exact other (header same).1
      | senderLeafIndex other same => exact other (header same).2
      | ciphertext other generation leaf' =>
        dsimp only at other generation leaf'
        rw [generation, leaf'] at found again
        rcases List.mem_append.mp found with own | foreign
        · -- Another message of the run has another nonce.
          obtain ⟨j, plaintext', sent', eq⟩ := mem_sealings.mp own
          have := (List.getElem?_eq_some_iff.mp sent').1
          obtain ⟨-, generation'⟩ := messageNonce_inj (congrArg Sealing.nonce eq)
          obtain rfl : i = j := by omega
          rw [sent] at sent'
          cases sent'
          have text : opened = plaintext := congrArg Sealing.msg eq
          rw [text] at again
          exact other (Except.ok.inj (again.symm.trans encrypted))
        · exact apart _ mine _ foreign rfl rfl

/-! ## Two members over the symbolic primitives -/

section Sample
open Symbolic

/-- Alice, who has added Bob. -/
def sampleAlice : MlsGroup Term :=
  (MlsGroup.addMember symbolic (.create symbolic "g" "alice" "phone" (sampleIdentity 0)
    (.generate symbolic (.atom 1)) (.atom 99)) (samplePackage "bob" 1) (sampleRandomness 1)).2

/-- Bob, who has joined. -/
def sampleBob : MlsGroup Term :=
  { sampleAlice with myLeafIndex := 1, myIdentity := sampleIdentity 1, myHpkeSecret := .atom 3 }

def sampleTexts : List Data := [.text "hello", .text "again"]

/-- All encryptions of the epoch: two by Alice, one by Bob. -/
def sampleSealings : List (Sealing Term Data) :=
  sampleAlice.sealings symbolic sampleTexts ++ sampleBob.sealings symbolic [.text "hi"]

/-- Alice's second message. -/
def sampleMessage : MlsCiphertext Data :=
  ⟨"g", 1, 0, 1, messageNonce 0 1, .sealed (messageKey symbolic sampleAlice.applicationSecret 1)
    (messageNonce 0 1) (.text "g:1:1") (.text "again")⟩

/-- Bob reads Alice's second message, and no altered one. -/
theorem messages_roundTrip_sample :
    sampleBob.decryptMessage (symbolicAfter sampleSealings) sampleMessage = .ok (.text "again") ∧
      ∀ altered, sampleMessage.Altered altered → altered.InRange →
        ∃ e, sampleBob.decryptMessage (symbolicAfter sampleSealings) altered = .error e := by
  have ideal := symbolicAfter_ideal sampleSealings
  refine messages_roundTrip (g := sampleAlice) ideal ?_ rfl (by decide) (by decide) rfl rfl rfl
    (i := 1) rfl rfl
  decide

end Sample

end GenChat.Mls
