import GenChat.Library.Phases
import GenChat.Ledger.Store

/-!
# Blind tokens

A token is a nonce with its MAC. `RedeemToken` checks the MAC and then, under the mutex of the
issuer, looks the token up among the spent ones and adds it. The spent tokens live in the memory of
one process, so a second replica, or the same service after a restart, accepts the token again.
-/
namespace GenChat.Auth.BlindTokens
open Library
open Ledger (Bytes)

/-! ## Issuers -/

/-- A process starts once; after a restart it is another one. -/
inductive Stage where
  | absent
  | running
  | stopped
  deriving DecidableEq, Repr

/-- `BlindTokenIssuer`, without the signing key, which all issuers share. -/
structure BlindTokenIssuer where
  stage : Stage
  mu : Bool
  spentTokens : List Bytes
  deriving DecidableEq

def BlindTokenIssuer.new : BlindTokenIssuer := ⟨.absent, false, []⟩

/-- The issuers of all processes. -/
abbrev Issuers := Nat → BlindTokenIssuer

inductive Op where
  /-- `rand.Read` into a buffer of this length. -/
  | random (length : Nat)
  | lock (i : Nat)
  | unlock (i : Nat)
  | isSpent (i : Nat) (tokenHash : Bytes)
  | markSpent (i : Nat) (tokenHash : Bytes)
  deriving DecidableEq

abbrev Ret : Op → Type
  | .random _ => Option Bytes
  | .lock _ | .unlock _ | .markSpent _ _ => Unit
  | .isSpent _ _ => Bool

inductive Choice where
  | ok
  | fail
  | bytes (b : Bytes)
  deriving DecidableEq

namespace Issuers
variable (s : Issuers)

/-- The issuer runs, and this becomes of it. -/
def change (i : Nat) (f : BlindTokenIssuer → BlindTokenIssuer) : Option (Unit × Issuers) :=
  if (s i).stage = .running then some ((), Function.update s i (f (s i))) else none

def exec : (op : Op) → Choice → Option (Ret op × Issuers)
  | .random n, c => match c with
    | .bytes b => if b.length = n then some (some b, s) else none
    | .fail => some (none, s)
    | .ok => none
  | .lock i, _ =>
    if (s i).mu then none else Issuers.change s i fun issuer => { issuer with mu := true }
  | .unlock i, _ => Issuers.change s i fun issuer => { issuer with mu := false }
  | .isSpent i hash, _ =>
    if (s i).stage = .running then some ((s i).spentTokens.contains hash, s) else none
  | .markSpent i hash, _ => Issuers.change s i fun issuer =>
    { issuer with spentTokens := hash :: issuer.spentTokens }

end Issuers

abbrev system : System Op Ret := ⟨Issuers, Choice, Issuers.exec⟩

abbrev Proc := Prog Op Ret

@[simp] def issue (op : Op) : Proc (Ret op) := Prog.perform op

/-! ## Issuing and redeeming -/

/-- The signing key and the library functions. -/
structure Keyring where
  signingKey : Bytes
  hmac : Bytes → Bytes → Bytes
  sha256 : Bytes → Bytes

inductive Reply where
  | issued (token : Bytes)
  | redeemed
  | failed (message : String)
  deriving DecidableEq

variable (K : Keyring)

def issueToken : Proc Reply := do
  match ← issue (.random 32) with
  | none => pure (.failed "failed to generate nonce")
  | some nonce => pure (.issued (nonce ++ K.hmac K.signingKey nonce))

/-- The part of `RedeemToken` under the mutex. -/
def spend (i : Nat) (tokenHash : Bytes) : Proc Reply := do
  issue (.lock i)
  if ← issue (.isSpent i tokenHash) then do
    issue (.unlock i)
    pure (.failed "token already redeemed")
  else do
    issue (.markSpent i tokenHash)
    issue (.unlock i)
    pure .redeemed

def redeemToken (i : Nat) (token : Bytes) : Proc Reply :=
  if token.length ≠ 64 then
    pure (.failed ("invalid token length: expected 64, got " ++ toString token.length))
  else
    let nonce := token.take 32
    let givenTag := token.drop 32
    if givenTag ≠ K.hmac K.signingKey nonce then
      pure (.failed "invalid token: HMAC verification failed")
    else spend i (K.sha256 token)

inductive Request where
  | issueToken (i : Nat)
  | redeemToken (i : Nat) (token : Bytes)
  deriving DecidableEq

def Request.handle : Request → Proc Reply
  | .issueToken _ => BlindTokens.issueToken K
  | .redeemToken i token => BlindTokens.redeemToken K i token

/-- What happens to the processes. -/
inductive Event where
  | start (i : Nat)
  | stop (i : Nat)
  deriving DecidableEq

def Issuers.event (s : Issuers) : Event → Option Issuers
  | .start i =>
    if (s i).stage = .absent then some (Function.update s i { s i with stage := .running })
    else none
  | .stop i => some (Function.update s i { s i with stage := .stopped })

/-- Any number of calls to any number of processes. -/
abbrev service : Service Op Ret Reply Request Event where
  system := system
  init s := s = fun _ => .new
  env := Issuers.event
  body t := t.handle K

/-! ## Where a call stands -/

inductive Phase where
  | idle
  | locked (i : Nat)
  /-- It holds the mutex and has found the token unspent. -/
  | unspent (i : Nat) (tokenHash : Bytes)
  /-- It holds the mutex and has marked the token. -/
  | marked (i : Nat) (tokenHash : Bytes)
  | redeemed (i : Nat) (tokenHash : Bytes)
  deriving DecidableEq

namespace Phase

def holds (i : Nat) : Phase → Prop
  | locked j | unspent j _ | marked j _ => j = i
  | idle | redeemed _ _ => False

/-- The token has been marked by this call. -/
def marks (i : Nat) (hash : Bytes) : Phase → Prop
  | marked j h | redeemed j h => j = i ∧ h = hash
  | idle | locked _ | unspent _ _ => False

def allows : Phase → Op → Prop
  | φ, .random _ => φ = idle
  | φ, .lock _ => φ = idle
  | φ, .isSpent i _ => φ = locked i
  | φ, .markSpent i h => φ = unspent i h
  | φ, .unlock i => φ = locked i ∨ ∃ h, φ = marked i h

def next : Phase → (op : Op) → Ret op → Phase
  | idle, .lock i, _ => locked i
  | locked i, .isSpent _ h, false => unspent i h
  | unspent i h, .markSpent _ _, _ => marked i h
  | marked i h, .unlock _, _ => redeemed i h
  | locked _, .unlock _, _ => idle
  | φ, _, _ => φ

end Phase

def typestate : Typestate Request Op Ret where
  Phase := Phase
  start _ := .idle
  allows _ := Phase.allows
  next := Phase.next

/-- A token that was made with the signing key. -/
def Genuine (token : Bytes) : Prop :=
  ∃ nonce : Bytes, nonce.length = 32 ∧ token = nonce ++ K.hmac K.signingKey nonce

theorem genuine_iff {token : Bytes} : Genuine K token ↔
    32 ≤ token.length ∧ token.drop 32 = K.hmac K.signingKey (token.take 32) := by
  constructor
  · rintro ⟨nonce, length, rfl⟩
    rw [List.length_append, List.drop_left' length, List.take_left' length]
    exact ⟨by omega, rfl⟩
  · rintro ⟨length, tag⟩
    refine ⟨token.take 32, ?_, ?_⟩
    · rw [List.length_take]
      omega
    · rw [← tag, List.take_append_drop]

instance (token : Bytes) : Decidable (Genuine K token) := decidable_of_iff _ (genuine_iff K).symm

/-- Who has redeemed a token has marked it, and the token is genuine. -/
def returns : Request → Reply → Phase → Prop
  | .redeemToken i token, .redeemed, φ => Genuine K token ∧ φ = .redeemed i (K.sha256 token)
  | _, _, _ => True

theorem spend_follows {t : Request} {Q : Reply → Phase → Prop} {i : Nat} {hash : Bytes}
    (failed : ∀ message, Q (.failed message) .idle) (done : Q .redeemed (.redeemed i hash)) :
    Follows typestate t Q (spend i hash) .idle := by
  refine ⟨rfl, fun _ => ⟨rfl, fun spent => ?_⟩⟩
  cases spent with
  | true => exact ⟨.inl rfl, fun _ => failed _⟩
  | false => exact ⟨rfl, fun _ => ⟨.inr ⟨hash, rfl⟩, fun _ => done⟩⟩

theorem handle_follows (t : Request) :
    Follows typestate t (returns K t) (t.handle K) .idle := by
  cases t with
  | issueToken i =>
    refine ⟨rfl, fun nonce => ?_⟩
    cases nonce <;> trivial
  | redeemToken i token =>
    simp only [Request.handle, redeemToken]
    split
    · trivial
    · rename_i length
      split
      · trivial
      · rename_i tag
        refine spend_follows (fun _ => trivial) ⟨(genuine_iff K).mpr ⟨?_, not_not.mp tag⟩, rfl⟩
        omega

/-! ## The mutex -/

/-- The mutex is held by one call at a time, and so a token is marked by one call. -/
structure Guarded (s : Issuers) (phases : List (Request × Phase)) : Prop where
  one : ∀ {a b : Nat} {t t' : Request} {φ φ' : Phase} {i : Nat}, phases[a]? = some (t, φ) →
    phases[b]? = some (t', φ') → φ.holds i → φ'.holds i → a = b
  locked : ∀ {a : Nat} {t : Request} {φ : Phase} {i : Nat}, phases[a]? = some (t, φ) →
    φ.holds i → (s i).mu = true
  unspent : ∀ {a : Nat} {t : Request} {i : Nat} {h : Bytes},
    phases[a]? = some (t, .unspent i h) → h ∉ (s i).spentTokens
  spent : ∀ {a : Nat} {t : Request} {φ : Phase} {i : Nat} {h : Bytes},
    phases[a]? = some (t, φ) → φ.marks i h → h ∈ (s i).spentTokens
  once : ∀ {a b : Nat} {t t' : Request} {φ φ' : Phase} {i : Nat} {h : Bytes},
    phases[a]? = some (t, φ) → phases[b]? = some (t', φ') → φ.marks i h → φ'.marks i h → a = b

namespace Guarded
variable {s s' : Issuers} {phases : List (Request × Phase)} {a : Nat} {t : Request} {φ φ' : Phase}

/-- One call moves on and changes only issuers whose mutex it holds or takes. -/
theorem move (g : Guarded s phases) (now : phases[a]? = some (t, φ))
    (takes : ∀ i, φ'.holds i → φ.holds i ∨ (s i).mu = false)
    (holds : ∀ i, φ'.holds i → (s' i).mu = true)
    (kept : ∀ i, ¬ φ.holds i → (s i).mu = true → (s' i).mu = true)
    (unspent : ∀ i h, φ' = .unspent i h → h ∉ (s' i).spentTokens)
    (same : ∀ i, ¬ φ.holds i → (s' i).spentTokens = (s i).spentTokens)
    (marked : ∀ i h, φ'.marks i h → h ∈ (s' i).spentTokens)
    (more : ∀ i h, h ∈ (s i).spentTokens → h ∈ (s' i).spentTokens)
    (first : ∀ i h, φ'.marks i h → φ.marks i h ∨ h ∉ (s i).spentTokens) :
    Guarded s' (phases.set a (t, φ')) := by
  have alone {b : Nat} {t' : Request} {ψ : Phase} {i : Nat} (other : b ≠ a)
      (there : phases[b]? = some (t', ψ)) (held : ψ.holds i) : ¬ φ.holds i :=
    fun both => other (g.one there now held both)
  have taken {b : Nat} {t' : Request} {ψ : Phase} {i : Nat} (other : b ≠ a)
      (there : phases[b]? = some (t', ψ)) (held : ψ.holds i) : ¬ φ'.holds i := by
    intro both
    rcases takes i both with already | free
    · exact alone other there held already
    · rw [g.locked there held] at free
      cases free
  have fresh {b : Nat} {t' : Request} {ψ : Phase} {i : Nat} {h : Bytes} (other : b ≠ a)
      (there : phases[b]? = some (t', ψ)) (mark : ψ.marks i h) : ¬ φ'.marks i h := by
    intro both
    rcases first i h both with already | new
    · exact other (g.once there now mark already)
    · exact new (g.spent there mark)
  constructor
  case one =>
    intro b c t₁ t₂ ψ₁ ψ₂ i hb hc held held'
    rcases getElem?_set_cases hb with ⟨rfl, ⟨⟩⟩ | ⟨other, first⟩
    · rcases getElem?_set_cases hc with ⟨rfl, ⟨⟩⟩ | ⟨other', second⟩
      · rfl
      · exact absurd held (taken other' second held')
    · rcases getElem?_set_cases hc with ⟨rfl, ⟨⟩⟩ | ⟨-, second⟩
      · exact absurd held' (taken other first held)
      · exact g.one first second held held'
  case locked =>
    intro b t' ψ i hb held
    rcases getElem?_set_cases hb with ⟨-, ⟨⟩⟩ | ⟨other, hb⟩
    · exact holds i held
    · exact kept i (alone other hb held) (g.locked hb held)
  case unspent =>
    intro b t' i h hb
    rcases getElem?_set_cases hb with ⟨-, ⟨⟩⟩ | ⟨other, hb⟩
    · exact unspent i h rfl
    · rw [same i (alone other hb rfl)]
      exact g.unspent hb
  case spent =>
    intro b t' ψ i h hb mark
    rcases getElem?_set_cases hb with ⟨-, ⟨⟩⟩ | ⟨-, hb⟩
    · exact marked i h mark
    · exact more i h (g.spent hb mark)
  case once =>
    intro b c t₁ t₂ ψ₁ ψ₂ i h hb hc mark mark'
    rcases getElem?_set_cases hb with ⟨rfl, ⟨⟩⟩ | ⟨other, before⟩
    · rcases getElem?_set_cases hc with ⟨rfl, ⟨⟩⟩ | ⟨other', after⟩
      · rfl
      · exact absurd mark (fresh other' after mark')
    · rcases getElem?_set_cases hc with ⟨rfl, ⟨⟩⟩ | ⟨-, after⟩
      · exact absurd mark' (fresh other before mark)
      · exact g.once before after mark mark'

/-- The processes do not matter, only the mutexes and the spent tokens. -/
theorem congr (g : Guarded s phases) (mu : ∀ i, (s' i).mu = (s i).mu)
    (spent : ∀ i, (s' i).spentTokens = (s i).spentTokens) : Guarded s' phases where
  one := g.one
  locked hb held := by
    rw [mu]
    exact g.locked hb held
  unspent hb := by
    rw [spent]
    exact g.unspent hb
  spent hb mark := by
    rw [spent]
    exact g.spent hb mark
  once := g.once

theorem spawn (g : Guarded s phases) (t : Request) : Guarded s (phases ++ [(t, .idle)]) := by
  constructor
  case one =>
    intro b c t₁ t₂ ψ₁ ψ₂ i hb hc held held'
    rcases getElem?_concat_cases hb with hb | ⟨⟨⟩⟩
    · rcases getElem?_concat_cases hc with hc | ⟨⟨⟩⟩
      · exact g.one hb hc held held'
      · exact held'.elim
    · exact held.elim
  case locked =>
    intro b t' ψ i hb held
    rcases getElem?_concat_cases hb with hb | ⟨⟨⟩⟩
    · exact g.locked hb held
    · exact held.elim
  case unspent =>
    intro b t' i h hb
    rcases getElem?_concat_cases hb with hb | new
    · exact g.unspent hb
    · cases new
  case spent =>
    intro b t' ψ i h hb mark
    rcases getElem?_concat_cases hb with hb | ⟨⟨⟩⟩
    · exact g.spent hb mark
    · exact mark.elim
  case once =>
    intro b c t₁ t₂ ψ₁ ψ₂ i h hb hc mark mark'
    rcases getElem?_concat_cases hb with hb | ⟨⟨⟩⟩
    · rcases getElem?_concat_cases hc with hc | ⟨⟨⟩⟩
      · exact g.once hb hc mark mark'
      · exact mark'.elim
    · exact mark.elim

theorem change_cases {f : BlindTokenIssuer → BlindTokenIssuer} {r : Unit} {i : Nat}
    (h : s.change i f = some (r, s')) : s' = Function.update s i (f (s i)) := by
  obtain ⟨-, h⟩ := Option.ite_none_right_eq_some.mp h
  cases h
  rfl

theorem run {op : Op} {c : Choice} {r : Ret op} (g : Guarded s phases)
    (now : phases[a]? = some (t, φ)) (allowed : φ.allows op)
    (step : s.exec op c = some (r, s')) : Guarded s' (phases.set a (t, φ.next op r)) := by
  cases op with
  | random n =>
    obtain rfl : φ = .idle := allowed
    obtain rfl : s' = s := by
      cases c with
      | ok => cases step
      | fail =>
        cases step
        rfl
      | bytes b =>
        obtain ⟨-, step⟩ := Option.ite_none_right_eq_some.mp step
        cases step
        rfl
    exact g.move now (by simp [Phase.next, Phase.holds]) (by simp [Phase.next, Phase.holds])
      (by simp) (by simp [Phase.next]) (by simp) (by simp [Phase.next, Phase.marks]) (by simp)
      (by simp [Phase.next, Phase.marks])
  | lock i =>
    obtain rfl : φ = .idle := allowed
    obtain ⟨free, step⟩ := Option.ite_none_left_eq_some.mp step
    obtain rfl := change_cases step
    have free : (s i).mu = false := by simpa using free
    refine g.move now ?_ ?_ ?_ (by simp [Phase.next]) ?_ (by simp [Phase.next, Phase.marks]) ?_
      (by simp [Phase.next, Phase.marks])
    · rintro j rfl
      exact .inr free
    · rintro j rfl
      simp
    · intro j _ held
      by_cases here : j = i <;> simp_all
    · intro j _
      by_cases here : j = i <;> simp_all
    · intro j h
      by_cases here : j = i <;> simp_all
  | isSpent i h =>
    obtain rfl : φ = .locked i := allowed
    obtain ⟨-, step⟩ := Option.ite_none_right_eq_some.mp step
    cases step
    have held := g.locked now rfl
    cases spent : (s i).spentTokens.contains h with
    | true =>
      refine g.move now (fun j held => .inl held) ?_ (fun _ _ => id) nofun (fun _ _ => rfl)
        (fun _ _ => False.elim) (fun _ _ => id) (fun _ _ => False.elim)
      rintro j rfl
      exact held
    | false =>
      refine g.move now (fun j held => .inl held) ?_ (fun _ _ => id) ?_ (fun _ _ => rfl)
        (fun _ _ => False.elim) (fun _ _ => id) (fun _ _ => False.elim)
      · rintro j rfl
        exact held
      · rintro j h' ⟨⟩
        simpa using spent
  | markSpent i h =>
    obtain rfl : φ = .unspent i h := allowed
    simp only [Issuers.exec] at step
    obtain rfl := change_cases step
    have held := g.locked now rfl
    have new := g.unspent now
    refine g.move now (fun j held => .inl held) ?_ ?_ nofun ?_ ?_ ?_ ?_
    · rintro j rfl
      simpa using held
    · intro j _ other
      by_cases here : j = i <;> simp_all
    · intro j other
      have elsewhere : j ≠ i := fun same => other same.symm
      rw [Function.update_of_ne elsewhere]
    · rintro j h' ⟨rfl, rfl⟩
      simp
    · intro j h' mem
      by_cases here : j = i <;> simp_all
    · rintro j h' ⟨rfl, rfl⟩
      exact .inr new
  | unlock i =>
    simp only [Issuers.exec] at step
    obtain rfl := change_cases step
    have kept (j : Nat) (other : j ≠ i) (held : (s j).mu = true) :
        (Function.update s i { s i with mu := false } j).mu = true := by
      rwa [Function.update_of_ne other]
    have same (j : Nat) : (Function.update s i { s i with mu := false } j).spentTokens =
        (s j).spentTokens := by
      by_cases here : j = i <;> simp_all
    rcases allowed with rfl | ⟨h, rfl⟩
    · refine g.move now (fun _ => False.elim) (fun _ => False.elim) ?_ nofun (fun j _ => same j)
        (fun _ _ => False.elim) ?_ (fun _ _ => False.elim)
      · exact fun j other => kept j fun here => other here.symm
      · intro j h' mem
        rwa [same]
    · refine g.move now (fun _ => False.elim) (fun _ => False.elim) ?_ nofun (fun j _ => same j)
        ?_ ?_ (fun _ _ => .inl)
      · exact fun j other => kept j fun here => other here.symm
      · intro j h' mark
        rw [same]
        exact g.spent now mark
      · intro j h' mem
        rwa [same]

end Guarded

/-! ## One issuer for a token -/

section Runs
variable {K : Keyring} {ok : Pool (service K) → PoolLabel (service K) → Prop} {p : Pool (service K)}

theorem guarded (h : (Pool.machine (service K)).Reach ok p) :
    ∃ phases, Pool.Phased typestate (returns K) p phases ∧ Guarded p.shared phases := by
  refine Pool.phased (T := typestate) (Q := returns K) (I := Guarded)
    (fun _ t _ => handle_follows K t) ?_ ?_ ?_ ?_ h
  · rintro s rfl
    exact ⟨nofun, nofun, nofun, nofun, nofun⟩
  · exact fun p phases t _ g => g.spawn t
  · intro p phases i c t op k φ r s _ _ _ now allowed step g
    exact g.run now allowed step
  · rintro p phases e s _ _ step g
    refine g.congr (fun i => ?_) fun i => ?_
    all_goals
      cases e with
      | start j =>
        obtain ⟨-, step⟩ := Option.ite_none_right_eq_some.mp step
        cases step
        by_cases here : i = j <;> simp_all
      | stop j =>
        cases step
        by_cases here : i = j <;> simp_all

/-- The call has redeemed the token at the issuer. -/
def Redeemed (p : Pool (service K)) (k i : Nat) (token : Bytes) : Prop :=
  p.threads[k]? = some (.redeemToken i token, .pure .redeemed)

theorem redeemed_of_result {k i : Nat} {token : Bytes}
    (h : (p.threads[k]?.map fun t => (t.1, t.2.result)) =
      some (.redeemToken i token, some .redeemed)) : Redeemed p k i token := by
  obtain ⟨⟨t, program⟩, thread, same⟩ := Option.map_eq_some_iff.mp h
  obtain ⟨rfl, result⟩ := Prod.mk.inj same
  obtain rfl : program = .pure .redeemed := Prog.result_eq_some.mp result
  exact thread

/-- One issuer redeems a token once, and genuine tokens only. -/
theorem redeemed_once {k i : Nat} {token : Bytes} (h : (Pool.machine (service K)).Reach ok p)
    (first : Redeemed p k i token) (k' : Nat) :
    Genuine K token ∧ (Redeemed p k' i token → k = k') := by
  obtain ⟨phases, phased, g⟩ := guarded h
  obtain ⟨φ, now, genuine, rfl⟩ := phased.follows k _ _ first
  refine ⟨genuine, fun second => ?_⟩
  obtain ⟨φ', now', -, rfl⟩ := phased.follows k' _ _ second
  exact g.once now now' ⟨rfl, rfl⟩ ⟨rfl, rfl⟩

/-- The issuer that the token is presented to. -/
def Request.presented (token : Bytes) : Request → Option Nat
  | .redeemToken i token' => if token' = token then some i else none
  | .issueToken _ => none

/-- A genuine token is presented to one issuer only. -/
def OneIssuer (p : Pool (service K)) : PoolLabel (service K) → Prop
  | .spawn (.redeemToken i token) =>
    Genuine K token → ∀ x ∈ p.threads, ∀ j ∈ x.1.presented token, j = i
  | _ => True

instance : ∀ (p : Pool (service K)) l, Decidable (OneIssuer p l)
  | p, .spawn (.redeemToken i token) => inferInstanceAs (Decidable
    (Genuine K token → ∀ x ∈ p.threads, ∀ j ∈ x.1.presented token, j = i))
  | _, .spawn (.issueToken _) => instDecidableTrue
  | _, .run _ _ => instDecidableTrue
  | _, .env _ => instDecidableTrue

theorem presented_once (h : (Pool.machine (service K)).Reach OneIssuer p) {token : Bytes}
    (genuine : Genuine K token) : ∀ x ∈ p.threads, ∀ y ∈ p.threads, ∀ i j,
      x.1 = .redeemToken i token → y.1 = .redeemToken j token → i = j := by
  induction h with
  | start hs =>
    obtain ⟨s, -, rfl⟩ := hs
    exact nofun
  | @step p p' l _ hok step ih =>
    cases l with
    | spawn t =>
      cases step
      intro x hx y hy i j hi hj
      rcases List.mem_append.mp hx with oldX | newX
      · rcases List.mem_append.mp hy with oldY | newY
        · exact ih x oldX y oldY i j hi hj
        · cases List.mem_singleton.mp newY
          obtain rfl : t = _ := hj
          exact hok genuine x oldX i (by simp [hi, Request.presented])
      · cases List.mem_singleton.mp newX
        obtain rfl : t = _ := hi
        rcases List.mem_append.mp hy with oldY | newY
        · exact (hok genuine y oldY j (by simp [hj, Request.presented])).symm
        · cases List.mem_singleton.mp newY
          cases hj
          rfl
    | run k c =>
      obtain ⟨t, op, next, r, s, thread, -, rfl⟩ := Pool.run_cases step
      have before {x : Request × Proc Reply}
          (hx : x ∈ p.threads.set k (t, next r)) : ∃ y ∈ p.threads, y.1 = x.1 := by
        rcases List.mem_or_eq_of_mem_set hx with old | rfl
        · exact ⟨x, old, rfl⟩
        · exact ⟨_, List.mem_of_getElem? thread, rfl⟩
      intro x hx y hy i j hi hj
      obtain ⟨x', hx', same⟩ := before hx
      obtain ⟨y', hy', same'⟩ := before hy
      exact ih x' hx' y' hy' i j (same.trans hi) (same'.trans hj)
    | env e =>
      obtain ⟨s, -, rfl⟩ := Pool.env_cases step
      exact ih

/-- Every token is redeemed once, and it is genuine. -/
structure SpentOnce (p : Pool (service K)) : Prop where
  once : ∀ {k k' i i' token}, Redeemed p k i token → Redeemed p k' i' token → k = k'
  genuine : ∀ {k i token}, Redeemed p k i token → Genuine K token

theorem spent_once (h : (Pool.machine (service K)).Reach OneIssuer p) : SpentOnce p where
  once {k k' i i' token} first second := by
    obtain ⟨genuine, same⟩ := redeemed_once h first k'
    obtain rfl := presented_once h genuine _ (List.mem_of_getElem? first) _
      (List.mem_of_getElem? second) i i' rfl rfl
    exact same second
  genuine first := (redeemed_once h first 0).1

end Runs

/-! ## Two replicas -/

namespace Sample

def keyring : Keyring where
  signingKey := [7]
  hmac key message := key ++ message.take 31
  sha256 message := message

/-- A nonce of zeros with its MAC. -/
def token : Bytes := List.replicate 32 0 ++ 7 :: List.replicate 31 0

abbrev processes : Machine (Pool (service keyring)) (PoolLabel (service keyring)) :=
  Pool.machine (service keyring)

/-- Call `k` to redeem the token, from its start to its end. -/
def redeem (k i : Nat) (steps : Nat) : List (PoolLabel (service keyring)) :=
  .spawn (.redeemToken i token) :: List.replicate steps (.run k .ok)

/-- One process, asked twice. -/
def askedTwice : List (PoolLabel (service keyring)) :=
  .env (.start 0) :: redeem 0 0 4 ++ redeem 1 0 3

/-- The service is restarted in between. -/
def restarted : List (PoolLabel (service keyring)) :=
  .env (.start 0) :: redeem 0 0 4 ++ .env (.stop 0) :: .env (.start 1) :: redeem 1 1 4

def nothing : Pool (service keyring) := Pool.start _ fun _ => .new

theorem nothing_reach {ok : Pool (service keyring) → PoolLabel (service keyring) → Prop} :
    processes.Reach ok nothing := .start ⟨_, rfl, rfl⟩

theorem askedTwice_isSome : (processes.follow OneIssuer nothing askedTwice).isSome := by
  rfl

theorem restarted_isSome : (processes.follow (fun _ _ => True) nothing restarted).isSome := by
  rfl

end Sample

open Sample in
theorem spent_once_sample : SpentOnce ((processes.follow OneIssuer nothing askedTwice).get
    askedTwice_isSome) :=
  spent_once (nothing_reach.follow (Option.some_get askedTwice_isSome).symm)

open Sample in
/-- After the restart the same token is redeemed again. -/
theorem redeemed_twice : ∃ p, processes.Reachable p ∧ Redeemed p 0 0 token ∧
    Redeemed p 1 1 token ∧ ¬ SpentOnce p := by
  let p := (processes.follow (fun _ _ => True) nothing restarted).get restarted_isSome
  have reach : processes.Reachable p :=
    nothing_reach.follow (Option.some_get restarted_isSome).symm
  have first : Redeemed p 0 0 token := redeemed_of_result (by rfl)
  have second : Redeemed p 1 1 token := redeemed_of_result (by rfl)
  exact ⟨p, reach, first, second, fun once => absurd (once.once first second) (by decide)⟩

end GenChat.Auth.BlindTokens
