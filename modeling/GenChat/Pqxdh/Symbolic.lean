import GenChat.Pqxdh.Handshake

/-!
# What PQXDH needs of its primitives, and a symbolic instance

`Correct` is what the crates promise to honest parties, `Ideal` that nothing but the right key leads
to a value. Blocks of the instance are terms over fresh atoms, so both hold and handshakes can be
evaluated.
-/
namespace GenChat.Pqxdh
open Crypto

variable {Block Bytes : Type}

structure Primitives.Correct (P : Primitives Block Bytes) : Prop where
  diffieHellman_comm : ∀ a b,
    P.diffieHellman a (P.x25519Public b) = P.diffieHellman b (P.x25519Public a)
  decapsulate_encapsulate : ∀ seed random ct ss,
    P.encapsulate (P.kemGenerate seed).1 random = some (ct, ss) →
    P.decapsulate (P.kemGenerate seed).2 ct = some ss
  decapsulationKey_length : ∀ seed, P.length (P.kemGenerate seed).2 = 2400
  ciphertext_length : ∀ ek random ct ss, P.encapsulate ek random = some (ct, ss) →
    P.length ct = 1088
  /-- ML-KEM decapsulation rejects implicitly: of values of the right lengths it never fails. -/
  decapsulate_total : ∀ dk ct, P.length dk = 2400 → P.length ct = 1088 →
    ∃ ss, P.decapsulate dk ct = some ss

/-- HKDF has no collisions, an exchange with an honest key is met only by the holder of that key,
and only the decapsulation key of the pair recovers an encapsulated secret. -/
structure Primitives.Ideal (P : Primitives Block Bytes) : Prop where
  hkdfSha512_inj : ∀ ikm info ikm' info', P.hkdfSha512 ikm info = P.hkdfSha512 ikm' info' →
    ikm = ikm' ∧ info = info'
  diffieHellman_inj : ∀ a b c,
    P.diffieHellman a (P.x25519Public b) = P.diffieHellman a (P.x25519Public c) →
    P.x25519Public b = P.x25519Public c
  decapsulate_inj : ∀ seed random ct ss dk,
    P.encapsulate (P.kemGenerate seed).1 random = some (ct, ss) → P.decapsulate dk ct = some ss →
    ∃ other, P.kemGenerate other = ((P.kemGenerate seed).1, dk)

namespace Symbolic

inductive Term where
  | atom (n : Nat)
  | signKey (secret : Term)
  | dhKey (n : Nat)
  /-- The exchange of two numbered secrets, the smaller number first. -/
  | shared (i j : Nat)
  /-- The secret encapsulated with one random value under a key. -/
  | encapsulated (seed random : Term)
  /-- What the wrong decapsulation key makes of a ciphertext. -/
  | implicit (seed other random : Term)
  | nil
  | pair (head tail : Term)
  | derived (ikm : Term) (info : String)
  | absent
  deriving DecidableEq

def Term.ofList (ts : List Term) : Term := ts.foldr .pair .nil

theorem Term.ofList_inj {ts us : List Term} (h : ofList ts = ofList us) : ts = us := by
  induction ts generalizing us with
  | nil =>
    cases us with
    | nil => rfl
    | cons => cases h
  | cons t ts ih =>
    cases us with
    | nil => cases h
    | cons u us =>
      obtain ⟨rfl, rest⟩ := Term.pair.inj h
      rw [ih rest]

inductive Data where
  | empty
  | slice (t : Term)
  | encapsulationKey (seed : Term)
  | decapsulationKey (seed : Term)
  | ciphertext (seed random : Term)
  | signature (publicKey : Term) (message : Data)
  deriving DecidableEq

/-- The number of an X25519 secret; all terms that are no atoms count as one secret. -/
def Term.number : Term → Nat
  | .atom n => n + 1
  | _ => 0

def exchange (secret : Term) : Term → Term
  | .dhKey n => .shared (min secret.number n) (max secret.number n)
  | _ => .absent

def encapsulated : Data → Term → Option (Data × Term)
  | .encapsulationKey s, r => some (.ciphertext s r, .encapsulated s r)
  | _, _ => none

def decapsulated : Data → Data → Option Term
  | .decapsulationKey s, .ciphertext s' r =>
    some (if s = s' then .encapsulated s r else .implicit s s' r)
  | _, _ => some .absent

def dataLength : Data → Nat
  | .empty => 0
  | .slice _ => 32
  | .encapsulationKey _ => 1184
  | .decapsulationKey _ => 2400
  | .ciphertext _ _ => 1088
  | .signature _ _ => 64

end Symbolic

open Pqxdh.Symbolic

def symbolic : Primitives Term Data where
  ed25519Public := .signKey
  ed25519Sign secret message := .signature (.signKey secret) message
  ed25519Verify publicKey message sig := sig = .signature publicKey message
  x25519Public secret := .dhKey secret.number
  diffieHellman := exchange
  kemGenerate seed := (.encapsulationKey seed, .decapsulationKey seed)
  encapsulate := encapsulated
  decapsulate := decapsulated
  hkdfSha512 ikm info := .derived (.ofList ikm) info
  domainSeparator := .absent
  slice := .slice
  length := dataLength

theorem symbolic_correct : symbolic.Correct where
  diffieHellman_comm a b := by simp [symbolic, exchange, min_comm, max_comm]
  decapsulate_encapsulate seed random ct ss h := by
    cases h
    simp [symbolic, decapsulated]
  decapsulationKey_length _ := rfl
  ciphertext_length ek random ct ss h := by
    cases ek <;> cases h
    rfl
  decapsulate_total dk ct _ _ := by
    cases dk <;> cases ct <;> exact ⟨_, rfl⟩

theorem symbolic_ideal : symbolic.Ideal where
  hkdfSha512_inj ikm info ikm' info' h := by
    obtain ⟨terms, infos⟩ := Term.derived.inj h
    exact ⟨Term.ofList_inj terms, infos⟩
  diffieHellman_inj a b c h := by
    obtain ⟨low, high⟩ := Term.shared.inj h
    have same : b.number = c.number := by omega
    simp [symbolic, same]
  decapsulate_inj seed random ct ss dk h opened := by
    cases h
    cases dk with
    | decapsulationKey s =>
      simp only [symbolic, decapsulated] at opened
      split at opened
      · rename_i same
        subst same
        exact ⟨_, rfl⟩
      · cases opened
    | _ => cases opened

end GenChat.Pqxdh
