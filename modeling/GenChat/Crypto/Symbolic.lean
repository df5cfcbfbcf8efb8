import GenChat.Crypto.Primitives

/-!
# A symbolic instance of the primitives

Blocks are terms over fresh atoms and ciphertexts are records of what was encrypted. The instance
meets `Correct`, `Seals` and `HkdfIdeal`, so these hypotheses are consistent, and runs of the
crate can be evaluated over it.
-/
namespace GenChat.Crypto

namespace Symbolic

inductive Term where
  | atom (n : Nat)
  | signKey (secret : Term)
  | dhKey (secret : Term)
  /-- The exchange of two atoms, the smaller one first. -/
  | shared (i j : Nat)
  | derived (salt secret : Term) (bytes : List UInt8) (info : String)
  | absent
  | present (t : Term)
  deriving DecidableEq

/-- An optional block as a block, without collisions. -/
def Term.ofOption : Option Term → Term
  | none => .absent
  | some t => .present t

theorem Term.ofOption_inj {s t : Option Term} (h : ofOption s = ofOption t) : s = t := by
  cases s <;> cases t <;> simp_all [ofOption]

inductive Data where
  | text (s : String)
  | payload (p : WelcomePayload Term)
  | signature (publicKey : Term) (message : SignedMessage Term)
  | sealed (key : Term) (nonce : List UInt8) (aad message : Data)
  deriving DecidableEq

def exchange : Term → Term → Term
  | .atom i, .dhKey (.atom j) => .shared (min i j) (max i j)
  | _, _ => .absent

theorem exchange_comm (a b : Term) : exchange a (.dhKey b) = exchange b (.dhKey a) := by
  cases a <;> cases b <;> simp [exchange, min_comm, max_comm]

def decrypted (key : Term) (nonce : List UInt8) (aad : Data) : Data → Except String Data
  | .sealed key' nonce' aad' message =>
    if key' = key ∧ nonce' = nonce ∧ aad' = aad then .ok message else .error "aead::Error"
  | _ => .error "aead::Error"

end Symbolic

open Symbolic

def symbolic : Primitives Term Data where
  hkdf salt ikm info := .derived (.ofOption salt) (.ofOption ikm.secret) ikm.bytes info
  ed25519Public := .signKey
  ed25519Sign secret message := .signature (.signKey secret) message
  ed25519Verify publicKey message sig := sig = .signature publicKey message
  x25519Public := .dhKey
  diffieHellman := exchange
  aesGcmEncrypt key nonce aad message := .ok (.sealed key nonce aad message)
  aesGcmDecrypt := decrypted
  toVec p := .ok (.payload p)
  fromSlice
    | .payload p => .ok p
    | _ => .error "expected value at line 1 column 1"
  text := .text

theorem symbolic_correct : symbolic.Correct where
  diffieHellman_comm a b := exchange_comm a b
  decrypt_encrypt key nonce aad msg ct h := by
    cases h
    simp [symbolic, decrypted]
  fromSlice_toVec payload bytes h := by
    cases h
    rfl

theorem symbolic_seals : symbolic.Seals :=
  ⟨fun _ => ⟨_, rfl⟩, fun _ _ _ _ _ _ => ⟨_, rfl⟩⟩

theorem symbolic_hkdfIdeal : symbolic.HkdfIdeal := by
  rintro salt ⟨secret, bytes⟩ info salt' ⟨secret', bytes'⟩ info' h
  obtain ⟨hs, hk, hb, hi⟩ : Term.ofOption salt = Term.ofOption salt' ∧
      Term.ofOption secret = Term.ofOption secret' ∧ bytes = bytes' ∧ info = info' := by
    simpa [symbolic] using h
  exact ⟨Term.ofOption_inj hs, by rw [Term.ofOption_inj hk, hb], hi⟩

theorem symbolic_authentic : symbolic.Authentic := by
  intro key nonce aad ct msg h
  cases ct with
  | sealed key' nonce' aad' msg' =>
    simp only [symbolic, decrypted] at h ⊢
    split at h
    · rename_i same
      obtain ⟨rfl, rfl, rfl⟩ := same
      cases h
      rfl
    · cases h
  | _ => cases h

/-- The symbolic primitives where only what has been encrypted decrypts. -/
def symbolicAfter (made : List (Sealing Term Data)) : Primitives Term Data :=
  { symbolic with
    aesGcmDecrypt := fun key nonce aad ct => match decrypted key nonce aad ct with
      | .ok msg => if ⟨key, nonce, aad, msg⟩ ∈ made then .ok msg else .error "aead::Error"
      | .error e => .error e }

theorem symbolicAfter_ideal (made : List (Sealing Term Data)) :
    (symbolicAfter made).AeadIdeal made where
  decrypt_iff key nonce aad ct msg := by
    constructor
    · intro h
      simp only [symbolicAfter] at h
      split at h
      · rename_i opened
        split at h
        · rename_i mem
          cases h
          exact ⟨mem, symbolic_authentic key nonce aad ct msg opened⟩
        · cases h
      · cases h
    · rintro ⟨mem, encrypted⟩
      have opened : decrypted key nonce aad ct = .ok msg :=
        symbolic_correct.decrypt_encrypt key nonce aad msg ct encrypted
      simp [symbolicAfter, opened, mem]
  distinct := by
    rintro ⟨key, nonce, aad, msg⟩ - ⟨key', nonce', aad', msg'⟩ - ct h h'
    simp only [Sealing.encrypt, symbolicAfter, symbolic, Except.ok.injEq] at h h'
    rw [← h'] at h
    injection h with hk hn ha hm
    rw [hk, hn, ha, hm]

theorem symbolic_signaturesIdeal : symbolic.SignaturesIdeal := by
  intro key message message' sig h h'
  simp only [symbolic, decide_eq_true_eq] at h h'
  rw [h] at h'
  injection h'

end GenChat.Crypto
