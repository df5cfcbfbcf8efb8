import GenChat.Library.Machine
import GenChat.Offline.LocalStorageDb
import GenChat.Sync.LocalDatabase

/-!
# The status of a message

`OptimisticOutbox` writes the status of a message when its dispatch settles and when an
acknowledgement comes in, `WsReconciler` when a read receipt does, and `LocalStorageDb` when it is
told to. None looks at the status that is there. It only moves up where each of them is in time.
-/
namespace GenChat.Sync
open Library
open Offline (LocalStorageDb)

/-- A failed message is as far as a pending one. -/
def MessageStatus.rank : MessageStatus → Nat
  | .pending => 0
  | .failed => 0
  | .sent => 1
  | .delivered => 2
  | .read => 3

def storedRank : Offline.MessageStatus → Nat
  | .pending => 0
  | .sent => 1
  | .delivered => 2
  | .read => 3

namespace Message

/-- The record that `send` creates. -/
def outgoing (clientMsgId channelId senderId plaintext : String) (now : Nat) : Message where
  id := clientMsgId
  serverId := none
  channelId := channelId
  senderId := senderId
  clientMsgId := clientMsgId
  sequenceNum := none
  text := plaintext
  status := .pending
  messageType := .text
  createdAt := now

def acknowledged (sequenceNum : Nat) (m : Message) : Message :=
  { m with status := .sent, sequenceNum := some sequenceNum }

def withStatus (status : MessageStatus) (m : Message) : Message := { m with status := status }

end Message

/-- The collection of the outbox and the reconciler, and the store of the chat page. -/
structure Stores where
  messages : LocalCollection
  /-- The ids of the records whose dispatch has not settled. -/
  dispatched : List String
  offline : LocalStorageDb

/-- A dispatch settles with the sequence number of its acknowledgement, or fails, in the encryption
or in the transport. -/
inductive StatusEvent where
  | send (clientMsgId channelId senderId plaintext : String) (now : Nat)
  | settled (n : Nat) (sequenceNum : Option Nat)
  | reconcileAck (clientMsgId : String) (sequenceNum : Nat)
  | readReceipt (serverId : String)
  | updateMessageStatus (clientMsgIdOrId : String) (status : Offline.MessageStatus)
  deriving DecidableEq

namespace Stores

/-- The acknowledgement finds the first message with the client id. -/
def awaited (s : Stores) (clientMsgId : String) : Option Message :=
  s.messages.items.find? (·.clientMsgId = clientMsgId)

/-- A receipt without an id finds none. -/
def receiptTarget (s : Stores) (serverId : String) : Option Message :=
  if serverId = "" then none else s.messages.items.find? (·.serverId = some serverId)

def change (s : Stores) (id : String) (f : Message → Message) (keeps : ∀ m, (f m).id = m.id) :
    Stores :=
  { s with messages := s.messages.update id f keeps }

def step (s : Stores) : StatusEvent → Option Stores
  | .send clientMsgId channelId senderId plaintext now => some
    { s with
      messages := s.messages.set (.outgoing clientMsgId channelId senderId plaintext now)
      dispatched := s.dispatched ++ [clientMsgId] }
  | .settled n sequenceNum => s.dispatched[n]?.map fun id =>
    let rest := { s with dispatched := s.dispatched.eraseIdx n }
    match sequenceNum with
    | some sequenceNum => rest.change id (·.acknowledged sequenceNum) fun _ => rfl
    | none => rest.change id (·.withStatus .failed) fun _ => rfl
  | .reconcileAck clientMsgId sequenceNum => some <|
    match s.awaited clientMsgId with
    | some msg => s.change msg.id (·.acknowledged sequenceNum) fun _ => rfl
    | none => s
  | .readReceipt serverId => some <|
    match s.receiptTarget serverId with
    | some target => s.change target.id (·.withStatus .read) fun _ => rfl
    | none => s
  | .updateMessageStatus id status =>
    some { s with offline := s.offline.updateMessageStatus id status }

/-- An acknowledged message has a sequence number. -/
def machine : Machine Stores StatusEvent where
  start s := s.dispatched = [] ∧
    ∀ m ∈ s.messages.items, m.sequenceNum.isSome → 1 ≤ m.status.rank
  step := step

/-- A message has a new id, an acknowledgement finds no message that is delivered, a failure none
that is sent, and a stored status is not lowered. -/
def InTime (s : Stores) : StatusEvent → Prop
  | .send clientMsgId _ _ _ _ => s.messages.find clientMsgId = none
  | .settled n sequenceNum => ∀ id ∈ s.dispatched[n]?, ∀ m ∈ s.messages.find id,
    m.status.rank ≤ if sequenceNum.isSome then 1 else 0
  | .reconcileAck clientMsgId _ => ∀ m ∈ s.awaited clientMsgId, m.status.rank ≤ 1
  | .readReceipt _ => True
  | .updateMessageStatus id status =>
    ∀ row ∈ s.offline.rows, row.id = id → storedRank row.status ≤ storedRank status

instance (s : Stores) (event : StatusEvent) : Decidable (s.InTime event) := by
  cases event <;> unfold InTime <;> infer_instance

/-- Every message is there still, acknowledged if it was, and no status has moved down. -/
structure Upward (s t : Stores) : Prop where
  messages {id : String} {m : Message} : s.messages.find id = some m →
    ∃ m', t.messages.find id = some m' ∧ m.status.rank ≤ m'.status.rank ∧
      (m.sequenceNum.isSome → m'.sequenceNum.isSome)
  rows : ∀ row ∈ s.offline.rows, ∃ row' ∈ t.offline.rows, row'.id = row.id ∧
    storedRank row.status ≤ storedRank row'.status

theorem Upward.refl (s : Stores) : Upward s s :=
  ⟨fun {_} m found => ⟨m, found, le_rfl, id⟩, fun row hrow => ⟨row, hrow, rfl, le_rfl⟩⟩

theorem Upward.trans {s t u : Stores} (first : Upward s t) (second : Upward t u) : Upward s u := by
  refine ⟨fun found => ?_, fun row hrow => ?_⟩
  · obtain ⟨m', found', rank, acked⟩ := first.messages found
    obtain ⟨m'', found'', rank', acked'⟩ := second.messages found'
    exact ⟨m'', found'', rank.trans rank', acked' ∘ acked⟩
  · obtain ⟨row', hrow', id, rank⟩ := first.rows row hrow
    obtain ⟨row'', hrow'', id', rank'⟩ := second.rows row' hrow'
    exact ⟨row'', hrow'', id'.trans id, rank.trans rank'⟩

theorem Upward.dispatched (s : Stores) (dispatched : List String) :
    Upward s { s with dispatched := dispatched } :=
  ⟨(Upward.refl s).messages, (Upward.refl s).rows⟩

/-- An acknowledged message is neither pending nor failed. -/
def Acknowledged (s : Stores) : Prop :=
  ∀ id m, s.messages.find id = some m → m.sequenceNum.isSome → 1 ≤ m.status.rank

variable {s t : Stores}

/-- A change of one record moves up if it does so for the record that is there. -/
theorem Upward.change {id : String} {f : Message → Message} {keeps : ∀ m, (f m).id = m.id}
    (up : ∀ m, s.messages.find id = some m → m.status.rank ≤ (f m).status.rank ∧
      (m.sequenceNum.isSome → (f m).sequenceNum.isSome)) : Upward s (s.change id f keeps) := by
  refine ⟨fun {id' m} found => ?_, fun row hrow => ⟨row, hrow, rfl, le_rfl⟩⟩
  by_cases same : id' = id
  · subst same
    refine ⟨f m, ?_, up m found⟩
    rw [Stores.change, LocalCollection.find_update, if_pos rfl, found, Option.map_some]
  · refine ⟨m, ?_, le_rfl, fun given => given⟩
    rw [Stores.change, LocalCollection.find_update, if_neg same, found]

theorem Acknowledged.change {id : String} {f : Message → Message} {keeps : ∀ m, (f m).id = m.id}
    (acked : s.Acknowledged) (up : ∀ m, s.messages.find id = some m →
      (f m).sequenceNum.isSome → 1 ≤ (f m).status.rank) : (s.change id f keeps).Acknowledged := by
  intro id' m found given
  rw [Stores.change, LocalCollection.find_update] at found
  split at found
  case isTrue same =>
    subst same
    obtain ⟨old, there, rfl⟩ := Option.map_eq_some_iff.mp found
    exact up old there given
  case isFalse => exact acked id' m found given

theorem awaited_found {clientMsgId : String} {m : Message} (h : s.awaited clientMsgId = some m) :
    s.messages.find m.id = some m :=
  LocalCollection.find_of_mem (List.mem_of_find?_eq_some h)

theorem receiptTarget_found {serverId : String} {m : Message}
    (h : s.receiptTarget serverId = some m) : s.messages.find m.id = some m := by
  unfold receiptTarget at h
  split at h
  case isTrue => cases h
  case isFalse => exact LocalCollection.find_of_mem (List.mem_of_find?_eq_some h)

theorem rank_le_three (status : MessageStatus) : status.rank ≤ 3 := by
  cases status <;> decide

/-- An acknowledgement, where the record is not delivered. -/
theorem acknowledge {id : String} (sequenceNum : Nat) (acked : s.Acknowledged)
    (ok : ∀ m, s.messages.find id = some m → m.status.rank ≤ 1) :
    Upward s (s.change id (·.acknowledged sequenceNum) fun _ => rfl) ∧
      (s.change id (·.acknowledged sequenceNum) fun _ => rfl).Acknowledged :=
  ⟨.change fun m found => ⟨ok m found, fun _ => rfl⟩, acked.change fun _ _ _ => le_rfl⟩

theorem InTime.step {event : StatusEvent} (acked : s.Acknowledged) (ok : s.InTime event)
    (h : s.step event = some t) : Upward s t ∧ t.Acknowledged := by
  cases event with
  | send clientMsgId channelId senderId plaintext now =>
    cases h
    have new : s.messages.find clientMsgId = none := ok
    have find (id : String) : (s.messages.set
        (.outgoing clientMsgId channelId senderId plaintext now)).find id =
          if id = clientMsgId then some (.outgoing clientMsgId channelId senderId plaintext now)
          else s.messages.find id := LocalCollection.find_set _ _ _
    refine ⟨⟨fun {id m} found => ?_, fun row hrow => ⟨row, hrow, rfl, le_rfl⟩⟩,
      fun id m found given => ?_⟩
    · have other : id ≠ clientMsgId := by
        rintro rfl
        rw [new] at found
        cases found
      exact ⟨m, by rw [find, if_neg other, found], le_rfl, fun given => given⟩
    · rw [find] at found
      split at found
      case isTrue =>
        cases found
        cases given
      case isFalse => exact acked id m found given
  | settled n sequenceNum =>
    obtain ⟨id, there, rfl⟩ := Option.map_eq_some_iff.mp h
    have ok (m : Message) (found : s.messages.find id = some m) := ok id there m found
    let rest : Stores := { s with dispatched := s.dispatched.eraseIdx n }
    have away : Upward s rest := .dispatched s _
    have acked : rest.Acknowledged := acked
    cases sequenceNum with
    | some sequenceNum =>
      obtain ⟨up, acked⟩ := acknowledge sequenceNum acked ok
      exact ⟨away.trans up, acked⟩
    | none =>
      have unsent (m : Message) (found : rest.messages.find id = some m) : m.status.rank = 0 :=
        Nat.le_zero.mp (ok m found)
      refine ⟨away.trans (.change fun m found => ⟨(unsent m found).le, fun given => given⟩),
        acked.change fun m found given => ?_⟩
      exact absurd (acked id m found given) (by rw [unsent m found]; decide)
  | reconcileAck clientMsgId sequenceNum =>
    cases h
    cases found : s.awaited clientMsgId with
    | none => exact ⟨.refl s, acked⟩
    | some msg =>
      refine acknowledge sequenceNum acked fun m there => ?_
      rw [awaited_found found] at there
      cases there
      exact ok msg found
  | readReceipt serverId =>
    cases h
    cases found : s.receiptTarget serverId with
    | none => exact ⟨.refl s, acked⟩
    | some target =>
      exact ⟨.change fun m _ => ⟨rank_le_three m.status, fun given => given⟩,
        acked.change fun _ _ _ => Nat.le_add_left 1 2⟩
  | updateMessageStatus id status =>
    cases h
    refine ⟨⟨(Upward.refl s).messages, fun row hrow => ?_⟩, acked⟩
    cases hdb : s.offline.db with
    | none =>
      rw [LocalStorageDb.rows, hdb] at hrow
      cases hrow
    | some store =>
      have stored : row ∈ store.rows := by rwa [LocalStorageDb.rows, hdb] at hrow
      have rows : (s.offline.updateMessageStatus id status).rows =
          (store.update id (·.setStatus status)).rows := by
        simp [LocalStorageDb.updateMessageStatus, LocalStorageDb.rows, hdb]
      rw [rows]
      refine ⟨if row.id = id then row.setStatus status else row, ?_, ?_⟩
      · exact (Offline.ObjectStore.mem_update (Offline.StoredMessage.inPlace_setStatus status)).mpr
          ⟨row, stored, rfl⟩
      · split
        case isTrue same => exact ⟨rfl, ok row hrow same⟩
        case isFalse => exact ⟨rfl, le_rfl⟩

theorem acknowledged (h : machine.Reach InTime s) : s.Acknowledged := by
  induction h with
  | start new => exact fun id m found => new.2 m (LocalCollection.mem_of_find found)
  | step _ ok step ih => exact (ok.step ih step).2

/-- From any state of a run to any later one, no status moves down; and an acknowledged message is
neither pending nor failed, in that state and in all later ones. -/
theorem status_monotone (h : machine.Reach InTime s) (later : (machine.resume s).Reach InTime t) :
    Upward s t ∧ ∀ id m, t.messages.find id = some m → m.sequenceNum.isSome →
      m.status ≠ .pending ∧ m.status ≠ .failed := by
  have run : Upward s t ∧ t.Acknowledged := by
    induction later with
    | start same => exact ⟨same ▸ .refl s, same ▸ acknowledged h⟩
    | step _ ok step ih =>
      obtain ⟨up, acked⟩ := ok.step ih.2 step
      exact ⟨ih.1.trans up, acked⟩
  refine ⟨run.1, fun id m found given => ?_⟩
  have high := run.2 id m found given
  constructor <;> intro low <;> rw [low] at high <;> exact absurd high (by decide)

end Stores

/-! ## A message of Alice -/

namespace Sample
open Offline (ObjectStore)

abbrev stores := Stores.machine

/-- The chat page has stored a message that was read. -/
def readRow : LocalStorageDb :=
  ⟨some (ObjectStore.empty.put
    { Offline.Sample.message "msg_1" "msg_1" "hello" 1 with status := .read }), .empty⟩

def unsent : Stores := ⟨.empty, [], readRow⟩

theorem unsent_start : stores.start unsent := ⟨rfl, fun _ hm => absurd hm List.not_mem_nil⟩

def sentOff : StatusEvent := .send "msg_1" "room" "alice" "hello" 1

/-- The acknowledgement comes in beside the dispatch. -/
def ackedEarly : Option Stores :=
  stores.follow (fun _ _ => True) unsent [sentOff, .reconcileAck "msg_1" 42]

theorem ackedEarly_isSome : ackedEarly.isSome := by rfl

/-- Then the dispatch times out, and a receipt of the delivery comes in after the one of reading. -/
def timedOut : Option Stores :=
  (stores.resume (ackedEarly.get ackedEarly_isSome)).follow (fun _ _ => True)
    (ackedEarly.get ackedEarly_isSome) [.settled 0 none, .updateMessageStatus "msg_1" .delivered]

theorem timedOut_isSome : timedOut.isSome := by rfl

/-- An acknowledged message is marked as failed, and a message that was read as delivered. -/
theorem status_lowered : ∃ s t, stores.Reachable s ∧ (stores.resume s).Reachable t ∧
    (s.messages.find "msg_1").map Message.status = some .sent ∧
    (t.messages.find "msg_1").map (fun m => (m.status, m.sequenceNum)) = some (.failed, some 42) ∧
    s.offline.rows.map (·.status) = [.read] ∧ t.offline.rows.map (·.status) = [.delivered] := by
  have start : stores.Reachable unsent := .start unsent_start
  have first := start.follow (Option.some_get ackedEarly_isSome).symm
  have second := (Machine.Reach.start rfl : (stores.resume _).Reachable _).follow
    (Option.some_get timedOut_isSome).symm
  exact ⟨_, _, first, second, by decide⟩

def dispatchedFirst : Option Stores :=
  stores.follow Stores.InTime unsent [sentOff]

theorem dispatchedFirst_isSome : dispatchedFirst.isSome := by rfl

/-- The dispatch fails at first, and the acknowledgement comes in later, twice. -/
def ackedLate : Option Stores :=
  (stores.resume (dispatchedFirst.get dispatchedFirst_isSome)).follow Stores.InTime
    (dispatchedFirst.get dispatchedFirst_isSome)
    [.settled 0 none, .reconcileAck "msg_1" 42, .reconcileAck "msg_1" 42, .readReceipt "msg_1",
      .updateMessageStatus "msg_1" .read]

theorem ackedLate_isSome : ackedLate.isSome := by rfl

theorem status_monotone_sample : ∃ s t, stores.Reach Stores.InTime s ∧
    (stores.resume s).Reach Stores.InTime t ∧
    (s.messages.find "msg_1").map Message.status = some .pending ∧
    (t.messages.find "msg_1").map Message.status = some .sent ∧ Stores.Upward s t ∧
    ∀ id m, t.messages.find id = some m → m.sequenceNum.isSome →
      m.status ≠ .pending ∧ m.status ≠ .failed := by
  have start : stores.Reach Stores.InTime unsent := .start unsent_start
  have first := start.follow (Option.some_get dispatchedFirst_isSome).symm
  have second := (Machine.Reach.start rfl : (stores.resume _).Reach Stores.InTime _).follow
    (Option.some_get ackedLate_isSome).symm
  exact ⟨_, _, first, second, by rfl, by rfl,
    Stores.status_monotone first second⟩

end Sample

end GenChat.Sync
