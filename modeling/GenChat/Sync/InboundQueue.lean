import GenChat.Library.Machine
import GenChat.Sync.LocalDatabase

/-!
# The queue of inbound messages

`InboundSyncReconciler` takes the whole queue, decrypts one payload after the other, creates its
message and counts it for its channel. The messages of a batch are lost where a step of the
database throws, a message that comes again replaces its row, and it is counted again. With new
messages only, and a database that does not throw, a drained queue has left a row for each message
and counted each once.
-/
namespace GenChat.Sync
open Library
open Ledger (Table)

structure InboundEncryptedPayload where
  channelId : String
  senderId : String
  messageId : String
  sequenceNum : Nat
  ciphertextBase64 : String
  messageType : Nat
  sessionPickle : String
  pickleKeyHex : String
  timestamp : Option Nat
  deriving DecidableEq

def decryptionFailed : String := "[Decryption Failed]"

/-- The record that the builder fills in. An empty id gives way to a random one. -/
def InboundEncryptedPayload.message (item : InboundEncryptedPayload) (decrypted : Option String)
    (defaultId : String) (now : Nat) : Message where
  id := if item.messageId = "" then defaultId else item.messageId
  serverId := none
  channelId := item.channelId
  senderId := item.senderId
  clientMsgId := item.messageId
  sequenceNum := some item.sequenceNum
  text := decrypted.getD decryptionFailed
  status := .delivered
  messageType := .text
  createdAt := match item.timestamp with
    | some t => if t = 0 then now else t
    | none => now

def ChannelRow.count (now : Nat) (c : ChannelRow) : ChannelRow :=
  ⟨some now, some (c.unreadCount.getD 0 + 1)⟩

structure InboundSyncReconciler where
  queue : List InboundEncryptedPayload
  isProcessing : Bool
  /-- What is left of the batch. -/
  batch : List InboundEncryptedPayload
  /-- The payload whose message has been created and not been counted. -/
  created : Option InboundEncryptedPayload
  messages : LocalCollection
  channels : Table String ChannelRow
  /-- The payloads that have come in, and what each decryption has given. -/
  arrived : List InboundEncryptedPayload
  decryptions : List (InboundEncryptedPayload × Option String)
  /-- The database at first. -/
  messagesBefore : LocalCollection
  channelsBefore : Table String ChannelRow

/-- A batch goes on with `createMessage` and `countMessage`, by turns, and ends with `finish`. A
flush is called by the timer or from outside. -/
inductive InboundEvent where
  | enqueue (payload : InboundEncryptedPayload)
  | flushQueue
  | createMessage (decrypted : Option String) (defaultId : String) (now : Nat) (throws : Bool)
  | countMessage (now : Nat) (throws : Bool)
  | finish
  deriving DecidableEq

namespace InboundSyncReconciler

/-- An exception ends the batch. -/
def abort (s : InboundSyncReconciler) : InboundSyncReconciler :=
  { s with isProcessing := false, batch := [], created := none }

def step (s : InboundSyncReconciler) : InboundEvent → Option InboundSyncReconciler
  | .enqueue payload =>
    some { s with queue := s.queue ++ [payload], arrived := s.arrived ++ [payload] }
  | .flushQueue =>
    if s.queue = [] ∨ s.isProcessing then some s
    else some { s with isProcessing := true, batch := s.queue, queue := [] }
  | .createMessage decrypted defaultId now throws =>
    match s.created, s.batch with
    | none, item :: rest =>
      let called := { s with decryptions := s.decryptions ++ [(item, decrypted)] }
      some <| if throws then called.abort
        else { called with
          batch := rest
          created := some item
          messages := s.messages.set (item.message decrypted defaultId now) }
    | _, _ => none
  | .countMessage now throws => s.created.map fun item =>
    if throws then s.abort
    else { s with
      created := none
      channels := match s.channels.lookup item.channelId with
        | some channel => s.channels.insert item.channelId (channel.count now)
        | none => s.channels }
  | .finish =>
    if s.isProcessing ∧ s.batch = [] ∧ s.created = none then some { s with isProcessing := false }
    else none

def machine : Machine InboundSyncReconciler InboundEvent where
  start s := s.queue = [] ∧ s.isProcessing = false ∧ s.batch = [] ∧ s.created = none ∧
    s.arrived = [] ∧ s.decryptions = [] ∧ s.messages = s.messagesBefore ∧
    s.channels = s.channelsBefore
  step := step

/-! ## What a drained queue leaves -/

/-- What the first decryption of the message that has succeeded has given. -/
def firstText (s : InboundSyncReconciler) (id : String) : Option String :=
  (s.decryptions.filterMap fun (item, decrypted) =>
    if item.messageId = id then decrypted else none).head?

/-- The messages that have come in on the channel and were not there before, each once. -/
def newMessages (s : InboundSyncReconciler) (channelId : String) : List String :=
  ((s.arrived.filter fun item => item.channelId = channelId ∧
    s.messagesBefore.find item.messageId = none).map (·.messageId)).dedup

structure Reconciled (s : InboundSyncReconciler) : Prop where
  rows (id : String) : (s.messages.find id).isSome ↔
    (s.messagesBefore.find id).isSome ∨ id ∈ s.arrived.map (·.messageId)
  texts (id text : String) : s.firstText id = some text →
    (s.messages.find id).map Message.text = some text
  unread (channelId : String) : (s.channels.lookup channelId).map (·.unreadCount.getD 0) =
    (s.channelsBefore.lookup channelId).map fun channel =>
      channel.unreadCount.getD 0 + (s.newMessages channelId).length

/-- A payload has an id that is in no row and in no payload that waits, and no step of the database
throws. -/
def Undisturbed (s : InboundSyncReconciler) : InboundEvent → Prop
  | .enqueue payload => payload.messageId ≠ "" ∧ s.messages.find payload.messageId = none ∧
    payload.messageId ∉ (s.batch ++ s.queue).map (·.messageId)
  | .createMessage _ _ _ throws => ¬ throws
  | .countMessage _ throws => ¬ throws
  | _ => True

instance (s : InboundSyncReconciler) (event : InboundEvent) : Decidable (s.Undisturbed event) := by
  cases event <;> unfold Undisturbed <;> infer_instance

/-! ## Accounts -/

/-- Where each payload is that has come in, and what has been done with it. -/
structure Accounts (s : InboundSyncReconciler) : Prop where
  arrived : s.arrived = s.decryptions.map Prod.fst ++ (s.batch ++ s.queue)
  busy : s.isProcessing = false → s.batch = [] ∧ s.created = none
  fresh : (s.arrived.map (·.messageId)).Nodup
  new : ∀ item ∈ s.arrived, item.messageId ≠ "" ∧ s.messagesBefore.find item.messageId = none
  rows (id : String) : (s.messages.find id).isSome ↔ (s.messagesBefore.find id).isSome ∨
    id ∈ (s.decryptions.map Prod.fst).map (·.messageId)
  texts : ∀ entry ∈ s.decryptions, (s.messages.find entry.1.messageId).map Message.text =
    some (entry.2.getD decryptionFailed)
  counted : ∃ counted, s.decryptions.map Prod.fst = counted ++ s.created.toList ∧
    ∀ channelId, (s.channels.lookup channelId).map (·.unreadCount.getD 0) =
      (s.channelsBefore.lookup channelId).map fun channel =>
        channel.unreadCount.getD 0 + (counted.filter (·.channelId = channelId)).length

variable {s t : InboundSyncReconciler}

theorem Accounts.enqueue {payload : InboundEncryptedPayload} (accounts : s.Accounts)
    (ok : s.Undisturbed (.enqueue payload)) (h : s.step (.enqueue payload) = some t) :
    t.Accounts := by
  cases h
  obtain ⟨named, unknown, notWaiting⟩ := ok
  have notThere : ¬ ((s.messagesBefore.find payload.messageId).isSome ∨
      payload.messageId ∈ (s.decryptions.map Prod.fst).map (·.messageId)) := by
    rw [← accounts.rows, unknown]
    exact Bool.false_ne_true
  have unseen : payload.messageId ∉ s.arrived.map (·.messageId) := by
    rw [accounts.arrived, List.map_append, List.mem_append]
    exact fun seen => seen.elim (fun h => notThere (.inr h)) notWaiting
  refine { accounts with arrived := ?_, fresh := ?_, new := ?_ }
  · simp only [accounts.arrived, List.append_assoc]
  · rw [List.map_append, List.nodup_append]
    refine ⟨accounts.fresh, List.nodup_singleton _, fun id hid id' hid' same => unseen ?_⟩
    have last : id' = payload.messageId := by simpa using hid'
    rwa [← last, ← same]
  · intro item hitem
    obtain hitem | hitem := List.mem_append.mp hitem
    · exact accounts.new item hitem
    · obtain rfl := List.mem_singleton.mp hitem
      refine ⟨named, ?_⟩
      cases before : s.messagesBefore.find item.messageId with
      | none => rfl
      | some m => exact absurd (.inl (by rw [before]; rfl)) notThere

theorem Accounts.createMessage {decrypted : Option String} {defaultId : String} {now : Nat}
    {throws : Bool} (accounts : s.Accounts) (ok : ¬ throws)
    (h : s.step (.createMessage decrypted defaultId now throws) = some t) : t.Accounts := by
  simp only [step] at h
  split at h
  case h_2 => cases h
  case h_1 item rest created batch =>
    rw [if_neg ok] at h
    cases h
    have arrived : s.arrived = s.decryptions.map Prod.fst ++ (item :: rest ++ s.queue) := by
      rw [accounts.arrived, batch]
    have mem : item ∈ s.arrived := by simp [arrived]
    obtain ⟨named, -⟩ := accounts.new item mem
    have id : (item.message decrypted defaultId now).id = item.messageId := if_neg named
    have others : ∀ entry ∈ s.decryptions, entry.1.messageId ≠ item.messageId := by
      intro entry hentry same
      have fresh := accounts.fresh
      rw [arrived, List.map_append, List.nodup_append] at fresh
      exact fresh.2.2 _ (List.mem_map_of_mem (List.mem_map_of_mem hentry)) _
        (List.mem_map_of_mem (by simp)) same
    refine { accounts with arrived := ?_, busy := ?_, rows := ?_, texts := ?_, counted := ?_ }
    · simp [arrived]
    · intro idle
      have none' := (accounts.busy idle).1
      rw [batch] at none'
      cases none'
    · intro id'
      rw [LocalCollection.find_set, id]
      by_cases same : id' = item.messageId
      · subst same
        simp
      · rw [if_neg same, accounts.rows]
        simp [same]
    · intro entry hentry
      rw [LocalCollection.find_set, id]
      obtain hentry | hentry := List.mem_append.mp hentry
      · rw [if_neg (others entry hentry)]
        exact accounts.texts entry hentry
      · obtain rfl := List.mem_singleton.mp hentry
        rw [if_pos rfl]
        rfl
    · obtain ⟨counted, all, unread⟩ := accounts.counted
      refine ⟨counted, ?_, unread⟩
      rw [created] at all
      simpa using all

theorem Accounts.countMessage {now : Nat} {throws : Bool} (accounts : s.Accounts) (ok : ¬ throws)
    (h : s.step (.countMessage now throws) = some t) : t.Accounts := by
  obtain ⟨item, created, rfl⟩ := Option.map_eq_some_iff.mp h
  rw [if_neg ok]
  obtain ⟨counted, all, unread⟩ := accounts.counted
  refine { accounts with busy := ?_, counted := ⟨counted ++ [item], ?_, fun channelId => ?_⟩ }
  · exact fun idle => ⟨(accounts.busy idle).1, rfl⟩
  · simpa [created] using all
  · have before := unread channelId
    rw [List.filter_append, List.length_append]
    by_cases same : channelId = item.channelId
    · subst same
      cases found : s.channels.lookup item.channelId with
      | none =>
        rw [found, Option.map_none, eq_comm, Option.map_eq_none_iff] at before
        simp [found, before]
      | some channel =>
        rw [found, Option.map_some] at before
        obtain ⟨old, known, grown⟩ := Option.map_eq_some_iff.mp before.symm
        simp only [AList.lookup_insert, Option.map_some, known, ChannelRow.count,
          Option.getD_some, ← grown]
        simp [Nat.add_assoc]
    · have other : ([item].filter fun i => decide (i.channelId = channelId)) = [] := by
        simp [Ne.symm same]
      rw [other, List.length_nil, Nat.add_zero, ← before]
      split
      · rw [AList.lookup_insert_ne same]
      · rfl

theorem Accounts.step {event : InboundEvent} (accounts : s.Accounts) (ok : s.Undisturbed event)
    (h : s.step event = some t) : t.Accounts := by
  cases event with
  | enqueue payload => exact accounts.enqueue ok h
  | flushQueue =>
    simp only [InboundSyncReconciler.step] at h
    split at h
    case isTrue =>
      cases h
      exact accounts
    case isFalse ready =>
      cases h
      obtain ⟨-, idle⟩ := not_or.mp ready
      obtain ⟨batch, -⟩ := accounts.busy (by simpa using idle)
      refine { accounts with arrived := ?_, busy := ?_ }
      · rw [accounts.arrived, batch, List.append_nil, List.nil_append]
      · exact fun idle => by cases idle
  | createMessage decrypted defaultId now throws => exact accounts.createMessage ok h
  | countMessage now throws => exact accounts.countMessage ok h
  | finish =>
    simp only [InboundSyncReconciler.step] at h
    split at h
    case isTrue done =>
      cases h
      exact { accounts with busy := fun _ => done.2 }
    case isFalse => cases h

theorem Accounts.start (new : machine.start s) : s.Accounts := by
  obtain ⟨queue, -, batch, created, arrived, decryptions, messages, channels⟩ := new
  refine ⟨by simp [arrived, decryptions, batch, queue], fun _ => ⟨batch, created⟩,
    by simp [arrived], by simp [arrived], fun id => by simp [messages, decryptions],
    by simp [decryptions], [], by simp [decryptions, created], fun c => by simp [channels]⟩

theorem accounts (h : machine.Reach Undisturbed s) : s.Accounts := by
  induction h with
  | start new => exact .start new
  | step _ ok step ih => exact ih.step ok step

/-- Once the queue has drained, there is a row for every message that has come in, with the text of
its decryption, and every new message has been counted once. -/
theorem drained_reconciled (h : machine.Reach Undisturbed s) (drained : s.queue = [])
    (idle : s.isProcessing = false) : s.Reconciled := by
  have accounts := accounts h
  obtain ⟨batch, created⟩ := accounts.busy idle
  have all : s.arrived = s.decryptions.map Prod.fst := by simp [accounts.arrived, batch, drained]
  refine ⟨fun id => ?_, fun id text first => ?_, fun channelId => ?_⟩
  · rw [accounts.rows, all]
  · have mem := List.mem_of_head? first
    obtain ⟨⟨item, decrypted⟩, hentry, same⟩ := List.mem_filterMap.mp mem
    dsimp only at same
    split at same
    case isTrue named =>
      subst named
      rw [accounts.texts _ hentry, same]
      rfl
    case isFalse => cases same
  · obtain ⟨counted, whole, unread⟩ := accounts.counted
    have same : counted = s.arrived := by rw [all, whole, created]; simp
    have new : s.newMessages channelId =
        (s.arrived.filter (·.channelId = channelId)).map (·.messageId) := by
      have none' : (s.arrived.filter fun item => item.channelId = channelId ∧
          s.messagesBefore.find item.messageId = none) =
          s.arrived.filter (·.channelId = channelId) := by
        refine List.filter_congr fun item hitem => ?_
        simp [(accounts.new item hitem).2]
      rw [newMessages, none']
      exact (accounts.fresh.sublist (List.filter_sublist.map _)).dedup
    rw [unread, new, List.length_map, same]

end InboundSyncReconciler
/-! ## A channel with two messages -/

namespace Sample
open InboundSyncReconciler

abbrev inbound := InboundSyncReconciler.machine

def payload (messageId : String) (sequenceNum : Nat) : InboundEncryptedPayload where
  channelId := "room"
  senderId := "bob"
  messageId := messageId
  sequenceNum := sequenceNum
  ciphertextBase64 := "AQID"
  messageType := 1
  sessionPickle := "pickle"
  pickleKeyHex := "key"
  timestamp := none

def room : Table String ChannelRow := (∅ : Table String ChannelRow).insert "room" ⟨none, some 0⟩

def waiting : InboundSyncReconciler where
  queue := []
  isProcessing := false
  batch := []
  created := none
  messages := .empty
  channels := room
  arrived := []
  decryptions := []
  messagesBefore := .empty
  channelsBefore := room

theorem waiting_start : inbound.start waiting := ⟨rfl, rfl, rfl, rfl, rfl, rfl, rfl, rfl⟩

/-- The message comes a second time, and its key is gone. -/
def again : Option InboundSyncReconciler :=
  inbound.follow (fun _ _ => True) waiting
    [.enqueue (payload "m1" 1), .enqueue (payload "m1" 1), .flushQueue,
      .createMessage (some "hello") "r1" 5 false, .countMessage 5 false,
      .createMessage none "r2" 6 false, .countMessage 6 false, .finish]

theorem again_isSome : again.isSome := by rfl

/-- The database throws before the first of two messages is there. -/
def thrown : Option InboundSyncReconciler :=
  inbound.follow (fun _ _ => True) waiting
    [.enqueue (payload "m1" 1), .enqueue (payload "m2" 2), .flushQueue,
      .createMessage (some "hello") "r1" 5 true]

theorem thrown_isSome : thrown.isSome := by rfl

/-- A message that comes again loses its text and counts twice; an exception loses a batch. -/
theorem drained_not_reconciled :
    (∃ s, inbound.Reachable s ∧ s.queue = [] ∧ s.isProcessing = false ∧
      s.firstText "m1" = some "hello" ∧
      (s.messages.find "m1").map Message.text = some "[Decryption Failed]" ∧
      (s.channels.lookup "room").map (·.unreadCount) = some (some 2) ∧ ¬ s.Reconciled) ∧
    ∃ s, inbound.Reachable s ∧ s.queue = [] ∧ s.isProcessing = false ∧
      s.arrived.length = 2 ∧ s.messages.items = [] ∧ ¬ s.Reconciled := by
  have start : inbound.Reachable waiting := .start waiting_start
  refine ⟨⟨_, start.follow (Option.some_get again_isSome).symm, by rfl,
    by rfl, by rfl, by rfl, by rfl,
    fun reconciled => ?_⟩,
    ⟨_, start.follow (Option.some_get thrown_isSome).symm, by rfl, by rfl,
    by rfl, by rfl, fun reconciled => ?_⟩⟩
  · have text := reconciled.texts "m1" "hello" (by rfl)
    revert text
    decide
  · have row := (reconciled.rows "m1").mpr (.inr (by decide))
    revert row
    decide

/-- The second message comes in while the first is handled, and cannot be decrypted. -/
def inTurn : Option InboundSyncReconciler :=
  inbound.follow Undisturbed waiting
    [.enqueue (payload "m1" 1), .flushQueue, .createMessage (some "hello") "r1" 5 false,
      .enqueue (payload "m2" 2), .flushQueue, .countMessage 5 false, .finish, .flushQueue,
      .createMessage none "r2" 6 false, .countMessage 6 false, .finish]

theorem inTurn_isSome : inTurn.isSome := by rfl

theorem drained_reconciled_sample : ∃ s, inbound.Reach Undisturbed s ∧
    s.messages.items.map Message.text = ["hello", "[Decryption Failed]"] ∧ s.Reconciled := by
  have start : inbound.Reach Undisturbed waiting := .start waiting_start
  have reach := start.follow (Option.some_get inTurn_isSome).symm
  exact ⟨_, reach, by rfl,
    drained_reconciled reach (by rfl) (by rfl)⟩

end Sample

end GenChat.Sync
