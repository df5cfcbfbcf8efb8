import GenChat.Library.Machine
import GenChat.Offline.LocalStorageDb

/-!
# Tombstones

`markMessageDeleted` for everyone leaves a message without its contents. A record of the message
stays so as long as no record with contents is saved again and no late edit reaches it, provided
that the deletion has reached every record: IndexedDB knows a message by its id only.
-/
namespace GenChat.Offline
open Library

namespace StoredMessage

/-- A record of the same message as `r`: it has its id, or its client id. -/
def RecordOf (m r : StoredMessage) : Prop :=
  m.id = r.id ∨ r.clientMsgId ≠ "" ∧ m.clientMsgId = r.clientMsgId

instance (m r : StoredMessage) : Decidable (m.RecordOf r) := inferInstanceAs (Decidable (_ ∨ _))

/-- Deleted, with no text, attachment or reply. -/
def Tombstone (m : StoredMessage) : Prop :=
  m.isDeleted ∧ m.text.getD "" = "" ∧ m.attachment = none ∧ m.replyTo = none

instance (m : StoredMessage) : Decidable m.Tombstone := inferInstanceAs (Decidable (_ ∧ _))

theorem tombstone_markDeleted (now : Int) (deletedBy : String) (m : StoredMessage) :
    (m.markDeleted now deletedBy).Tombstone :=
  ⟨rfl, rfl, rfl, rfl⟩

theorem recordOf_change {change : StoredMessage → StoredMessage} (inPlace : InPlace change)
    {m r : StoredMessage} : (change m).RecordOf r ↔ m.RecordOf r := by
  rw [RecordOf, RecordOf, inPlace.id, inPlace.clientMsgId]

end StoredMessage

namespace LocalStorageDb
open StoredMessage

/-- One store in one browser. -/
def machine : Machine LocalStorageDb (Int × DbCall) where
  start s := s = ⟨some .empty, .empty⟩ ∨ s = ⟨none, .empty⟩
  step s := fun (now, op) => some (s.call now op)

variable (s : LocalStorageDb) (r : StoredMessage)

/-- A saved record of the message is a tombstone, and an edit with a text finds no record of it. -/
def KeepsDeleted (s : LocalStorageDb) : Int × DbCall → Prop
  | (_, .saveMessage msg) => msg.RecordOf r → msg.Tombstone
  | (_, .saveMessages msgs) => ∀ msg ∈ msgs, msg.RecordOf r → msg.Tombstone
  | (_, .updateMessageText name channelId newText _) =>
    newText = "" ∨ s.Spares name channelId (·.RecordOf r)
  | _ => True

/-- Every stored record of the message is a tombstone. -/
def Deleted : Prop := ∀ m, s.Stored m → m.RecordOf r → m.Tombstone

variable {s r}

namespace Deleted

theorem saveMessage {now : Int} {msg : StoredMessage} (deleted : s.Deleted r)
    (ok : msg.RecordOf r → msg.Tombstone) : (s.saveMessage now msg).Deleted r := by
  intro m stored record
  obtain rfl | stored := stored_saveMessage stored
  · exact ok record
  · exact deleted m stored record

theorem saveMessages {now : Int} {msgs : List StoredMessage} (deleted : s.Deleted r)
    (ok : ∀ msg ∈ msgs, msg.RecordOf r → msg.Tombstone) : (s.saveMessages now msgs).Deleted r := by
  induction msgs generalizing s with
  | nil => exact deleted
  | cons msg msgs ih =>
    obtain ⟨first, rest⟩ := List.forall_mem_cons.mp ok
    exact ih (deleted.saveMessage first) rest

/-- A change keeps the tombstones if it does so wherever it reaches a record. -/
theorem update {name channelId : String} {change : StoredMessage → StoredMessage}
    (inPlace : InPlace change) (deleted : s.Deleted r)
    (keeps : ∀ m, s.Stored m → m.RecordOf r → ¬ s.Spares name channelId (· = m) →
      (change m).Tombstone) : (s.update name channelId change).Deleted r := by
  intro m stored record
  obtain ⟨old, before, ⟨rfl, reached⟩ | ⟨rfl, -⟩⟩ := stored_update inPlace stored
  · exact keeps old before ((recordOf_change inPlace).mp record) reached
  · exact deleted m before record

theorem step {now : Int} {op : DbCall} (deleted : s.Deleted r) (ok : s.KeepsDeleted r (now, op)) :
    (s.call now op).Deleted r := by
  have removed {t : LocalStorageDb} (subset : ∀ m, t.Stored m → s.Stored m) : t.Deleted r :=
    fun m stored => deleted m (subset m stored)
  cases op with
  | saveMessage msg => exact deleted.saveMessage ok
  | saveMessages msgs => exact deleted.saveMessages ok
  | deleteMessage name channelId => exact removed fun m => stored_deleteMessage
  | markMessageDeleted name channelId deletedBy scope =>
    cases scope with
    | everyone =>
      exact deleted.update (inPlace_markDeleted now deletedBy)
        fun m _ _ _ => tombstone_markDeleted now deletedBy m
    | me => exact removed fun m => stored_deleteMessage
  | updateMessageText name channelId newText editedAt =>
    refine deleted.update (inPlace_edit newText editedAt) fun m stored record reached => ?_
    obtain rfl | spares := ok
    · obtain ⟨isDeleted, -, rest⟩ := deleted m stored record
      exact ⟨isDeleted, rfl, rest⟩
    · refine absurd ⟨fun m' hm same => ?_, fun c m' hm same => ?_⟩ reached
      · exact spares.1 m' hm (same ▸ record)
      · exact spares.2 c m' hm (same ▸ record)
  | updateMessagePinned name channelId isPinned pinnedBy pinnedAt =>
    exact deleted.update (inPlace_pin isPinned pinnedBy _)
      fun m stored record _ => deleted m stored record
  | purgeExpiredMessages => exact removed fun m => stored_purgeExpiredMessages
  | updateMessageStatus id status =>
    intro m stored record
    obtain ⟨old, before, rfl | rfl⟩ := stored_updateMessageStatus stored
    · exact deleted old before record
    · exact deleted m before record

/-- A deletion leaves only tombstones if it reaches every record that is not one yet. -/
theorem mark {now : Int} {name channelId deletedBy : String}
    (reaches : s.Reaches name channelId fun m => m.RecordOf r ∧ ¬ m.Tombstone) :
    (s.markMessageDeleted now name channelId deletedBy .everyone).Deleted r := by
  intro m stored record
  obtain ⟨old, -, ⟨rfl, -⟩ | ⟨rfl, missed⟩⟩ :=
    stored_update (inPlace_markDeleted now deletedBy) stored
  · exact tombstone_markDeleted now deletedBy old
  · by_contra alive
    refine missed ⟨fun m' hm same => ?_, fun c m' hm same => ?_⟩
    · exact reaches.1 m' hm (same ▸ ⟨record, alive⟩)
    · exact reaches.2 c m' hm (same ▸ ⟨record, alive⟩)

end Deleted

/-- Once a deletion has reached every record of the message, the message stays deleted. -/
theorem deletion_permanent {t : LocalStorageDb} {now : Int} {name channelId deletedBy : String}
    (reaches : s.Reaches name channelId fun m => m.RecordOf r ∧ ¬ m.Tombstone)
    (run : (machine.resume (s.markMessageDeleted now name channelId deletedBy .everyone)).Reach
      (fun s call => s.KeepsDeleted r call) t) : t.Deleted r := by
  induction run with
  | start same =>
    rw [same]
    exact Deleted.mark reaches
  | step _ ok step ih =>
    cases step
    exact ih.step ok

end LocalStorageDb

/-! ## Bob deletes a message -/

namespace Sample
open LocalStorageDb

def hello : StoredMessage := message "m1" "c1" "hello" 1

def another : StoredMessage := message "m2" "c2" "there" 2

/-- The message is in the object store. -/
def withRow : LocalStorageDb := ⟨some (ObjectStore.empty.put hello), .empty⟩

theorem withRow_reachable : machine.Reachable withRow :=
  .step (l := (1, .saveMessage hello)) (.start (.inl rfl)) trivial rfl

/-- The message is in the list of its channel. -/
def withList : LocalStorageDb := ⟨none, LocalStorage.empty.saveMessage 1 hello⟩

theorem withList_reachable : machine.Reachable withList :=
  .step (l := (1, .saveMessage hello)) (.start (.inr rfl)) trivial rfl

/-- With IndexedDB a deletion by the client id leaves the text; with the fallback a late edit brings
a text back. -/
theorem deletion_undone :
    (∃ s, machine.Reachable s ∧ s.Stored hello ∧ hello.Named "c1" ∧
      ¬ (s.markMessageDeleted 2 "c1" "channel" "bob" .everyone).Deleted hello) ∧
    ∃ s t, machine.Reachable s ∧ s.Stored hello ∧ hello.Named "m1" ∧
      (machine.resume (s.markMessageDeleted 2 "m1" "channel" "bob" .everyone)).Reachable t ∧
      ¬ t.Deleted hello := by
  refine ⟨⟨withRow, withRow_reachable, .inl (by decide), by decide, fun deleted => ?_⟩,
    withList, _, withList_reachable, .inr ⟨"channel", by decide⟩, by decide,
    .step (l := (3, .updateMessageText "m1" "channel" "late" 3)) (.start rfl) trivial rfl,
    fun deleted => ?_⟩
  · have missed : ¬ hello.Tombstone := by decide
    exact missed (deleted hello (.inl (by decide)) (.inl rfl))
  · let late := (hello.markDeleted 2 "bob").edit "late" 3
    have text : ¬ late.Tombstone := by decide
    exact text (deleted late (.inr ⟨"channel", by decide⟩) (.inl rfl))

/-- A deletion by the id holds while the message is pinned and another one comes in. -/
theorem deletion_permanent_sample : ∃ t : LocalStorageDb,
    t.rows.map StoredMessage.text = [none, some "there"] ∧ t.Deleted hello := by
  have reaches : withRow.Reaches "m1" "channel" fun m => m.RecordOf hello ∧ ¬ m.Tombstone := by
    refine ⟨?_, fun c m hm => absurd hm List.not_mem_nil⟩
    have rows : withRow.rows = [hello] := by rfl
    rw [rows]
    exact fun m hm _ => List.mem_singleton.mp hm ▸ rfl
  let marked := withRow.markMessageDeleted 2 "m1" "channel" "bob" .everyone
  have start : (machine.resume marked).Reach (fun s call => s.KeepsDeleted hello call) marked :=
    .start rfl
  let pin := DbCall.updateMessagePinned "m1" "channel" true none none
  have pinned := start.step (l := (3, pin)) trivial rfl
  have foreign : another.RecordOf hello → another.Tombstone := fun record =>
    absurd record (by decide)
  have saved := pinned.step (l := (4, DbCall.saveMessage another)) foreign rfl
  exact ⟨_, by rfl, deletion_permanent reaches saved⟩

end Sample

end GenChat.Offline
