import GenChat.Library.Machine

/-!
# The session of a channel

`WsReconciler` and `SyncReconciler` read the session of a channel, decrypt with it and store what
the engine gives back, each step asynchronously. `InboundSyncReconciler` and `OptimisticOutbox`
use the session that comes with the payload or the call, and drop what the engine gives back. The
session goes through the calls one after the other as long as it is only pushes that use it, one
at a time, and the engine has not failed.
-/
namespace GenChat.Sync
open Library

/-- The engine: from a session and a message to a text and the updated session. -/
structure Ratchet (Pickle : Type) where
  decryptMessage : Pickle → Nat → String → Option (List UInt8 × Pickle)
  encryptMessage : Pickle → String → Option (String × Pickle)

variable {Pickle : Type} (R : Ratchet Pickle)

/-- A ratchet never comes back to an earlier session. -/
def Ratchet.Forward : Prop := ∃ age : Pickle → Nat,
  (∀ p messageType ciphertext r,
    R.decryptMessage p messageType ciphertext = some r → age p < age r.2) ∧
  ∀ p plaintext r, R.encryptMessage p plaintext = some r → age p < age r.2

inductive Operation where
  | decrypt (messageType : Nat) (ciphertext : String)
  | encrypt (plaintext : String)
  deriving DecidableEq

/-- The session after the operation, where the engine does not fail. -/
def Operation.updated (p : Pickle) : Operation → Option Pickle
  | .decrypt messageType ciphertext => (R.decryptMessage p messageType ciphertext).map Prod.snd
  | .encrypt plaintext => (R.encryptMessage p plaintext).map Prod.snd

/-- A session that was passed to the engine. -/
structure Call (Pickle : Type) where
  sessionPickle : Pickle
  operation : Operation
  deriving DecidableEq

/-- The session after the calls, applied one after the other. -/
def applyAll (initial : Pickle) (calls : List (Call Pickle)) : Pickle :=
  calls.foldl (fun p call => (call.operation.updated R p).getD p) initial

/-- A push that is handled: with the session that it has read, or with the updated one. -/
inductive Push (Pickle : Type) where
  | read (sessionPickle : Pickle) (messageType : Nat) (ciphertext : String)
  | decrypted (updatedSessionPickle : Pickle)
  deriving DecidableEq

structure Channel (Pickle : Type) where
  initial : Pickle
  stored : Pickle
  /-- The pushes whose `getSession` has not answered. -/
  waiting : List (Nat × String)
  handled : List (Push Pickle)
  calls : List (Call Pickle)
  deriving DecidableEq

inductive Event (Pickle : Type) where
  | push (messageType : Nat) (ciphertext : String)
  | getSession (n : Nat) (found : Bool)
  | decryptMessage (n : Nat)
  | saveSession (n : Nat) (saved : Bool)
  | flushItem (sessionPickle : Pickle) (messageType : Nat) (ciphertext : String)
  | send (sessionPickle : Pickle) (plaintext : String)
  deriving DecidableEq

namespace Channel

/-- A push ends where a step fails. -/
def step (s : Channel Pickle) : Event Pickle → Option (Channel Pickle)
  | .push messageType ciphertext =>
    some { s with waiting := s.waiting ++ [(messageType, ciphertext)] }
  | .getSession n found => s.waiting[n]?.map fun (messageType, ciphertext) =>
    { s with
      waiting := s.waiting.eraseIdx n
      handled := s.handled ++ if found then [.read s.stored messageType ciphertext] else [] }
  | .decryptMessage n =>
    match s.handled[n]? with
    | some (.read p messageType ciphertext) => some
      { s with
        calls := s.calls ++ [⟨p, .decrypt messageType ciphertext⟩]
        handled := match R.decryptMessage p messageType ciphertext with
          | some (_, updated) => s.handled.set n (.decrypted updated)
          | none => s.handled.eraseIdx n }
    | _ => none
  | .saveSession n saved =>
    match s.handled[n]? with
    | some (.decrypted updated) => some
      { s with
        handled := s.handled.eraseIdx n
        stored := if saved then updated else s.stored }
    | _ => none
  | .flushItem p messageType ciphertext =>
    some { s with calls := s.calls ++ [⟨p, .decrypt messageType ciphertext⟩] }
  | .send p plaintext => some { s with calls := s.calls ++ [⟨p, .encrypt plaintext⟩] }

end Channel

def machine : Machine (Channel Pickle) (Event Pickle) where
  start s := s.stored = s.initial ∧ s.waiting = [] ∧ s.handled = [] ∧ s.calls = []
  step := Channel.step R

namespace Channel

/-- A session is read when no other push is handled and saved when it was updated, the engine has
not failed before, and nothing is flushed or sent. -/
def Sequential (s : Channel Pickle) : Event Pickle → Prop
  | .push _ _ => True
  | .getSession _ _ => s.handled = []
  | .decryptMessage _ => ∀ call ∈ s.calls, (call.operation.updated R call.sessionPickle).isSome
  | .saveSession _ saved => saved
  | .flushItem _ _ _ => False
  | .send _ _ => False

instance [DecidableEq Pickle] (s : Channel Pickle) (event : Event Pickle) :
    Decidable (s.Sequential R event) := by
  cases event <;> unfold Sequential <;> infer_instance

/-- The session after all calls is the stored one, or the one at which the push is. -/
def Current (s : Channel Pickle) (now : Pickle) : Prop :=
  match s.handled with
  | [] => s.stored = now
  | [.read p _ _] => p = now ∧ s.stored = now
  | [.decrypted updated] => updated = now
  | _ => False

structure Sound (age : Pickle → Nat) (s : Channel Pickle) : Prop where
  once : (s.calls.map Call.sessionPickle).Nodup
  current : s.Current (applyAll R s.initial s.calls)
  earlier : ∀ call ∈ s.calls, (call.operation.updated R call.sessionPickle).isSome →
    age call.sessionPickle < age (applyAll R s.initial s.calls)

variable {R} {age : Pickle → Nat} {s t : Channel Pickle}

theorem applyAll_append (initial : Pickle) (calls : List (Call Pickle)) (call : Call Pickle) :
    applyAll R initial (calls ++ [call]) =
      (call.operation.updated R (applyAll R initial calls)).getD (applyAll R initial calls) := by
  simp [applyAll]

/-- No more than one push is handled. -/
theorem Current.alone {now : Pickle} {n : Nat} {push : Push Pickle} (current : s.Current now)
    (found : s.handled[n]? = some push) : s.handled = [push] ∧ n = 0 := by
  unfold Current at current
  cases handled : s.handled with
  | nil => simp [handled] at found
  | cons first rest =>
    rw [handled] at current found
    cases rest with
    | nil =>
      cases n with
      | zero => exact ⟨congrArg (fun p => [p]) (Option.some.inj found), rfl⟩
      | succ n => simp at found
    | cons second rest => cases first <;> exact current.elim

/-- What one call does, made with the current session after calls that have all succeeded. -/
theorem Sound.call (operation : Operation) {now : Pickle} (sound : s.Sound R age)
    (forward : ∀ updated, operation.updated R now = some updated → age now < age updated)
    (same : now = applyAll R s.initial s.calls)
    (succeeded : ∀ call ∈ s.calls, (call.operation.updated R call.sessionPickle).isSome) :
    let calls : List (Call Pickle) := s.calls ++ [⟨now, operation⟩]
    (calls.map Call.sessionPickle).Nodup ∧
      ∀ call ∈ calls, (call.operation.updated R call.sessionPickle).isSome →
        age call.sessionPickle < age (applyAll R s.initial calls) := by
  intro calls
  subst same
  have before (call : Call Pickle) (hc : call ∈ s.calls) :=
    sound.earlier call hc (succeeded call hc)
  refine ⟨?_, fun call hc success => ?_⟩
  · rw [List.map_append, List.nodup_append]
    refine ⟨sound.once, List.nodup_singleton _, fun p hp q hq same => ?_⟩
    obtain ⟨call, hc, rfl⟩ := List.mem_map.mp hp
    have last : q = applyAll R s.initial s.calls := by simpa using hq
    have younger := before call hc
    rw [same, last] at younger
    exact lt_irrefl _ younger
  · rw [applyAll_append]
    cases updated : operation.updated R (applyAll R s.initial s.calls) with
    | none =>
      obtain hc | hc := List.mem_append.mp hc
      · exact before call hc
      · obtain rfl := List.mem_singleton.mp hc
        simp [updated] at success
    | some next =>
      have grows := forward next updated
      obtain hc | hc := List.mem_append.mp hc
      · exact (before call hc).trans grows
      · obtain rfl := List.mem_singleton.mp hc
        exact grows

theorem Sound.step {event : Event Pickle} (sound : s.Sound R age)
    (forward : ∀ p messageType ciphertext r,
      R.decryptMessage p messageType ciphertext = some r → age p < age r.2)
    (ok : s.Sequential R event) (h : s.step R event = some t) : t.Sound R age := by
  obtain ⟨once, current, earlier⟩ := sound
  cases event with
  | push messageType ciphertext =>
    cases h
    exact ⟨once, current, earlier⟩
  | getSession n found =>
    obtain ⟨frame, -, rfl⟩ := Option.map_eq_some_iff.mp h
    have idle : s.handled = [] := ok
    refine ⟨once, ?_, earlier⟩
    rw [Current, idle] at current
    cases found <;> simpa [Current, idle] using current
  | decryptMessage n =>
    simp only [Channel.step] at h
    split at h
    case h_2 => cases h
    case h_1 p messageType ciphertext found =>
      cases h
      obtain ⟨alone, rfl⟩ := current.alone found
      rw [Current, alone] at current
      obtain ⟨current, stored⟩ := current
      have grows : ∀ updated,
          (Operation.decrypt messageType ciphertext).updated R p = some updated →
            age p < age updated := by
        intro updated h
        obtain ⟨r, decrypted, rfl⟩ := Option.map_eq_some_iff.mp h
        exact forward p messageType ciphertext r decrypted
      have sound : s.Sound R age := ⟨once, by simp [Current, alone, current, stored], earlier⟩
      obtain ⟨once, earlier⟩ := sound.call (.decrypt messageType ciphertext) grows current ok
      refine ⟨once, ?_, earlier⟩
      rw [applyAll_append, ← current, Operation.updated]
      cases decrypted : R.decryptMessage p messageType ciphertext with
      | none => simpa [Current, alone, current] using stored
      | some r => simp [Current, alone]
  | saveSession n saved =>
    simp only [Channel.step] at h
    split at h
    case h_2 => cases h
    case h_1 updated found =>
      cases h
      obtain ⟨alone, rfl⟩ := current.alone found
      rw [Current, alone] at current
      have ok : saved = true := ok
      exact ⟨once, by simp [Current, alone, ok, current], earlier⟩
  | flushItem => cases ok
  | send => cases ok

end Channel
/-- No session is passed to the engine twice, and when no push is handled the stored session is the
one after all calls. -/
theorem sessions_in_order (forward : R.Forward) {s : Channel Pickle}
    (h : (machine R).Reach (Channel.Sequential R) s) :
    (s.calls.map Call.sessionPickle).Nodup ∧
      (s.handled = [] → s.stored = applyAll R s.initial s.calls) := by
  obtain ⟨age, forward, -⟩ := forward
  have sound : s.Sound R age := by
    induction h with
    | start new =>
      obtain ⟨same, -, idle, none'⟩ := new
      refine ⟨by simp [none'], ?_, by simp [none']⟩
      rw [Channel.Current, idle, none']
      exact same
    | step _ ok step ih => exact ih.step forward ok step
  refine ⟨sound.once, fun idle => ?_⟩
  have current := sound.current
  rwa [Channel.Current, idle] at current

/-- An update that is dropped, as for every message that is flushed or sent, is lost for good. -/
theorem dropped_update_lost (forward : R.Forward) {s : Channel Pickle} {call : Call Pickle}
    (stored : s.stored = applyAll R s.initial s.calls)
    (advances : (call.operation.updated R s.stored).isSome) :
    s.stored ≠ applyAll R s.initial (s.calls ++ [call]) := by
  obtain ⟨age, decrypts, encrypts⟩ := forward
  obtain ⟨updated, advances⟩ := Option.isSome_iff_exists.mp advances
  have grows : age s.stored < age updated := by
    cases operation : call.operation <;> rw [operation] at advances <;>
      obtain ⟨r, done, rfl⟩ := Option.map_eq_some_iff.mp advances
    · exact decrypts _ _ _ r done
    · exact encrypts _ _ r done
  rw [Channel.applyAll_append, ← stored, advances, Option.getD_some]
  exact fun same => absurd (congrArg age same) grows.ne

/-! ## Two pushes -/

namespace Sample

/-- A session that counts what it has processed; every message is a text. -/
def counting : Ratchet Nat where
  decryptMessage p _ ciphertext := some (ciphertext.toUTF8.data.toList, p + 1)
  encryptMessage p plaintext := some (plaintext, p + 1)

theorem counting_forward : counting.Forward := by
  refine ⟨id, fun p _ _ r h => ?_, fun p _ r h => ?_⟩ <;> cases h <;> exact Nat.lt_succ_self p

abbrev channel := machine counting

def established : Channel Nat := ⟨0, 0, [], [], []⟩

/-- Both pushes read the session before either has saved it. -/
def overlapping : Option (Channel Nat) :=
  channel.follow (fun _ _ => True) established
    [.push 1 "a", .push 1 "b", .getSession 0 true, .getSession 0 true, .decryptMessage 0,
      .decryptMessage 1, .saveSession 0 true, .saveSession 0 true]

theorem overlapping_isSome : overlapping.isSome := by rfl

/-- A message that is sent uses the session that the caller has. -/
def sent : Option (Channel Nat) :=
  channel.follow (fun _ _ => True) established [.send 0 "hello"]

theorem sent_isSome : sent.isSome := by rfl

/-- Two pushes use one session, and one of the two advances is lost; so is the one of a message
that is sent. -/
theorem session_reused : counting.Forward ∧
    (∃ s, channel.Reachable s ∧ ¬ (s.calls.map Call.sessionPickle).Nodup) ∧
    (∃ s, channel.Reachable s ∧ s.handled = [] ∧ s.stored ≠ applyAll counting s.initial s.calls) ∧
    ∃ s, channel.Reachable s ∧ s.calls = [⟨0, .encrypt "hello"⟩] ∧ s.stored = 0 := by
  have start : channel.Reachable established := .start ⟨rfl, rfl, rfl, rfl⟩
  have both := start.follow (Option.some_get overlapping_isSome).symm
  have hello := start.follow (Option.some_get sent_isSome).symm
  exact ⟨counting_forward, ⟨_, both, by decide⟩, ⟨_, both, by decide⟩,
    ⟨_, hello, by decide⟩⟩

def oneByOne : Option (Channel Nat) :=
  channel.follow (Channel.Sequential counting) established
    [.push 1 "a", .push 1 "b", .getSession 1 true, .decryptMessage 0, .saveSession 0 true,
      .getSession 0 true, .decryptMessage 0, .saveSession 0 true]

theorem oneByOne_isSome : oneByOne.isSome := by rfl

theorem sessions_in_order_sample : ∃ s, channel.Reach (Channel.Sequential counting) s ∧
    s.stored = 2 ∧ (s.calls.map Call.sessionPickle).Nodup ∧
      (s.handled = [] → s.stored = applyAll counting s.initial s.calls) := by
  have start : channel.Reach (Channel.Sequential counting) established :=
    .start ⟨rfl, rfl, rfl, rfl⟩
  have reach := start.follow (Option.some_get oneByOne_isSome).symm
  exact ⟨_, reach, by rfl, sessions_in_order counting counting_forward reach⟩

end Sample

end GenChat.Sync
