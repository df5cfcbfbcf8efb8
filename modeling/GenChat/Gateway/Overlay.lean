import GenChat.Gateway.History
import GenChat.Gateway.Runs
import GenChat.Library.Emits

/-!
# The overlay against the operations

`message_events` keeps one row for each message id and event type, so it forgets in which order
pins and unpins came, and an id on which the operations on a message did not agree has rows of its
own. `fetch_history` therefore replays the operations only if no unpin precedes a last pin, and if
the last edit has a ciphertext and is not covered by an edit under the id that is looked up first.
-/
namespace GenChat.Gateway
open Library Ledger Router

/-- A row of `message_events` as it was written. -/
abbrev Recording := EventKey × EventColumns

/-! ## What a run records -/

def lastUnder (key : EventKey) (events : List Recording) : Option EventColumns :=
  ((events.filter fun e => e.1 = key).getLast?).map Prod.snd

theorem lastUnder_append (key : EventKey) (xs ys : List Recording) :
    lastUnder key (xs ++ ys) = (lastUnder key ys).or (lastUnder key xs) := by
  simp only [lastUnder, List.filter_append, List.getLast?_append]
  cases (ys.filter fun e => e.1 = key).getLast? <;> rfl

theorem lastUnder_singleton (key key' : EventKey) (c : EventColumns) :
    lastUnder key [(key', c)] = if key' = key then some c else none := by
  by_cases same : key' = key <;> simp [lastUnder, same]

theorem lastUnder_isSome {key : EventKey} {events : List Recording} :
    (lastUnder key events).isSome ↔ ∃ e ∈ events, e.1 = key := by
  simp [lastUnder]

section Recordings
variable {S : Platform} {r : Router}

/-- The event that an operation records at a time. -/
def Op.recording (now : Nat) : Op → Option Recording
  | .insertEvent k id type actor ct => some (⟨k, id, type⟩, ⟨actor, ct, now⟩)
  | _ => none

/-- The event that a step records: its write takes effect. -/
def recorded (p : Pool (gateway S r)) : PoolLabel (gateway S r) → List Recording
  | .run i c => if c = .fail then [] else
    ((p.next i).bind fun x => x.2.recording p.shared.clock).toList
  | _ => []

theorem events_exec {s s' : Server} {op : Op} {c : Choice} {x : Ret op}
    (h : s.exec S op c = some (x, s')) (key : EventKey) : s'.db.events.lookup key =
      (lastUnder key (if c = .fail then [] else (op.recording s.clock).toList)).or
        (s.db.events.lookup key) := by
  cases op with
  | insertEvent k id type actor ct =>
    have applied : (s.db.insertEvent ⟨k, id, type⟩ ⟨actor, ct, s.clock⟩).events.lookup key =
        (lastUnder key [(⟨k, id, type⟩, ⟨actor, ct, s.clock⟩)]).or
          (s.db.events.lookup key) := by
      rw [lastUnder_singleton]
      by_cases same : (⟨k, id, type⟩ : EventKey) = key
      · subst same
        simp [Store.insertEvent]
      · simp [Store.insertEvent, same, AList.lookup_insert_ne (Ne.symm same)]
    rcases Server.write_eq_some.mp h with ⟨rfl, -, rfl⟩ | ⟨rfl, -, rfl⟩ | ⟨rfl, -, rfl⟩
    · exact applied
    · rfl
    · exact applied
  | _ =>
    have same : s'.db.events = s.db.events := by
      rcases Server.exec_db h with same | applied
      · rw [same]
      · rw [applied]
        rfl
    simp [Op.recording, lastUnder, same]

/-- Under each key stands what was recorded last. -/
theorem events_lookup {p : Pool (gateway S r)} {events : List Recording}
    (run : (Pool.machine (gateway S r)).Emits recorded p events) (key : EventKey) :
    p.shared.db.events.lookup key = lastUnder key events := by
  refine run.invariant
    (I := fun p events => p.shared.db.events.lookup key = lastUnder key events) ?_ ?_
  · rintro _ ⟨s, ⟨clock, rfl⟩, rfl⟩
    rfl
  · intro p l q events ih step
    cases l with
    | spawn tag =>
      cases step
      simpa [recorded] using ih
    | env e =>
      obtain ⟨s, hs, rfl⟩ := Pool.env_cases step
      simpa [recorded, Server.change_db hs] using ih
    | run i c =>
      obtain ⟨tag, op, rest, x, s, thread, hr, rfl⟩ := Pool.run_cases step
      rw [events_exec hr key, ih, lastUnder_append, recorded, Pool.next_call thread,
        Option.bind_some]

end Recordings

/-! ## Replaying the operations on a message -/

section Replay
variable (k : String) (m : LedgerMessage)

/-- What was recorded under one of the ids of the message. -/
def operationsOn (events : List Recording) : List Recording :=
  events.filter fun e => e.1.conversationID = k ∧ e.1.messageID ∈ [m.messageID, m.clientMsgID]

def ofType (types : List String) (events : List Recording) : List Recording :=
  events.filter fun e => e.1.eventType ∈ types

/-- Pinned after a last pin, and with the ciphertext of the last edit unless deleted. -/
def Replayed (ops : List Recording) (deleted : Prop) (dto : HistoryMessageDTO) : Prop :=
  (dto.isPinned = true ↔
    ∃ e, (ofType ["pin", "unpin"] ops).getLast? = some e ∧ e.1.eventType = "pin") ∧
  (¬ deleted → match (ofType ["edited"] ops).getLast? with
    | none => dto.isEdited = false
    | some e => dto.isEdited = true ∧
      dto.ciphertextB64 = Base64.encodeToString e.2.newCiphertext)

/-- No unpin precedes a last pin. The last edit has a ciphertext, and it is the one under the
server id, or the last one there has no other ciphertext. What there is to show has arrived. -/
def Legible (arrived : Prop) (ops : List Recording) (deleted : Prop) : Prop :=
  (∀ e, (ofType ["pin", "unpin"] ops).getLast? = some e → e.1.eventType = "pin" →
    arrived ∧ ∀ e' ∈ ops, e'.1.eventType ≠ "unpin") ∧
  (¬ deleted → ∀ e, (ofType ["edited"] ops).getLast? = some e → arrived ∧
    e.2.newCiphertext ≠ [] ∧ (e.1.messageID = m.messageID ∨
      ∀ c, lastUnder ⟨k, m.messageID, "edited"⟩ ops = some c →
        c.newCiphertext = [] ∨ c.newCiphertext = e.2.newCiphertext))

variable {k m} {events : List Recording} {db : Store}

theorem lastUnder_operationsOn {id type : String} (hid : id ∈ [m.messageID, m.clientMsgID]) :
    lastUnder ⟨k, id, type⟩ (operationsOn k m events) = lastUnder ⟨k, id, type⟩ events := by
  rw [lastUnder, operationsOn, List.filter_filter, lastUnder]
  congr 3
  funext e
  by_cases same : e.1 = ⟨k, id, type⟩
  · simp [same, hid]
  · simp [same]

/-- The last of a list is the last of any part of it that it belongs to. -/
theorem getLast?_filter {α : Type} {xs : List α} {x : α} {p : α → Bool}
    (last : xs.getLast? = some x) (hx : p x) : (xs.filter p).getLast? = some x := by
  obtain ⟨front, rfl⟩ := List.getLast?_eq_some_iff.mp last
  simp [hx]

/-- The table holds, under the ids of the message, what the operations on it recorded last. -/
def KeepsLast (db : Store) (k : String) (m : LedgerMessage) (ops : List Recording) : Prop :=
  ∀ id ∈ [m.messageID, m.clientMsgID], ∀ type,
    db.events.lookup ⟨k, id, type⟩ = lastUnder ⟨k, id, type⟩ ops

/-- All operations name the message by one of its ids. -/
def Naming (k : String) (m : LedgerMessage) (ops : List Recording) : Prop :=
  ∀ e ∈ ops, ∃ id ∈ [m.messageID, m.clientMsgID], e.1 = ⟨k, id, e.1.eventType⟩

theorem operationsOn_naming : Naming k m (operationsOn k m events) := by
  intro e he
  obtain ⟨-, named⟩ := List.mem_filter.mp he
  obtain ⟨rfl, hid⟩ := of_decide_eq_true named
  exact ⟨e.1.messageID, hid, rfl⟩

variable {ops : List Recording}

theorem KeepsLast.hasEvent (kept : KeepsLast db k m ops) (naming : Naming k m ops) (type : String) :
    hasEvent (db.selectEvents k "") m type = true ↔ ∃ e ∈ ops, e.1.eventType = type := by
  have here (id : String) (hid : id ∈ [m.messageID, m.clientMsgID]) :
      (findEvent (db.selectEvents k "") id type).isSome ↔ ∃ e ∈ ops, e.1 = ⟨k, id, type⟩ := by
    rw [findEvent_selectEvents, kept id hid, Option.isSome_map, lastUnder_isSome]
  rw [Router.hasEvent, Bool.or_eq_true, here _ (by simp), here _ (by simp)]
  constructor
  · rintro (⟨e, he, key⟩ | ⟨e, he, key⟩)
    · exact ⟨e, he, by rw [key]⟩
    · exact ⟨e, he, by rw [key]⟩
  · rintro ⟨e, he, rfl⟩
    obtain ⟨id, hid, key⟩ := naming e he
    rcases List.mem_pair.mp hid with rfl | rfl
    · exact .inl ⟨e, he, key⟩
    · exact .inr ⟨e, he, key⟩

theorem overlay_isPinned (events : List MessageEvent) (m : LedgerMessage) :
    (overlay events m).isPinned =
      (Router.hasEvent events m "pin" && !Router.hasEvent events m "unpin") := by
  have unpinned : (applyEdit events m (applyDeletion events m (historyDTO m))).isPinned = false := by
    unfold applyEdit applyDeletion
    split <;> split <;> rfl
  simp only [overlay, applyPin]
  cases Router.hasEvent events m "pin" <;> cases Router.hasEvent events m "unpin" <;>
    simp [unpinned]

theorem overlay_isEdited (events : List MessageEvent) (m : LedgerMessage) :
    (overlay events m).isEdited = (editOf events m).isSome := by
  have unedited : (applyDeletion events m (historyDTO m)).isEdited = false := by
    unfold applyDeletion
    split <;> rfl
  simp only [overlay, applyPin, applyEdit]
  cases editOf events m <;> split <;> split <;> simp [unedited]

/-- With the events at hand, pins are replayed if no unpin precedes a last pin. -/
theorem pins_replayed (kept : KeepsLast db k m ops) (naming : Naming k m ops) :
    ((overlay (db.selectEvents k "") m).isPinned = true ↔
      ∃ e, (ofType ["pin", "unpin"] ops).getLast? = some e ∧ e.1.eventType = "pin") ↔
    ∀ e, (ofType ["pin", "unpin"] ops).getLast? = some e → e.1.eventType = "pin" →
      ∀ e' ∈ ops, e'.1.eventType ≠ "unpin" := by
  have pinned : (overlay (db.selectEvents k "") m).isPinned = true ↔
      (∃ e ∈ ops, e.1.eventType = "pin") ∧ ∀ e ∈ ops, e.1.eventType ≠ "unpin" := by
    rw [overlay_isPinned, Bool.and_eq_true, kept.hasEvent naming, Bool.not_eq_true',
      ← Bool.not_eq_true, kept.hasEvent naming]
    simp
  rw [pinned]
  constructor
  · intro same e last pin
    exact (same.mpr ⟨e, last, pin⟩).2
  · intro calm
    constructor
    · rintro ⟨⟨e, he, pin⟩, none⟩
      have mem : e ∈ ofType ["pin", "unpin"] ops := List.mem_filter.mpr ⟨he, by simp [pin]⟩
      have last := List.getLast?_eq_some_getLast (List.ne_nil_of_mem mem)
      obtain ⟨there, type⟩ := List.mem_filter.mp (List.mem_of_getLast? last)
      have types := List.mem_pair.mp (of_decide_eq_true type)
      exact ⟨_, last, types.resolve_right (none _ there)⟩
    · rintro ⟨e, last, pin⟩
      have mem := (List.mem_filter.mp (List.mem_of_getLast? last)).1
      exact ⟨⟨e, mem, pin⟩, calm e last pin⟩

/-- The ciphertext that is shown, by the edits under each id. -/
def shownEdit (edits : String → Option EventColumns) (m : LedgerMessage) : Option Bytes :=
  let under (id : String) := ((edits id).map EventColumns.newCiphertext).filter fun ct => ct ≠ []
  (under m.messageID).or (under m.clientMsgID)

theorem editOf_ciphertext (db : Store) (k : String) (m : LedgerMessage) :
    (editOf (db.selectEvents k "") m).map (·.newCiphertext) =
      shownEdit (fun id => db.events.lookup ⟨k, id, "edited"⟩) m := by
  simp only [editOf, findEvent_selectEvents, shownEdit]
  cases db.events.lookup ⟨k, m.messageID, "edited"⟩ with
  | none =>
    cases db.events.lookup ⟨k, m.clientMsgID, "edited"⟩ <;>
      simp [Option.filter, EventColumns.event]
    split <;> rfl
  | some c =>
    by_cases blank : c.newCiphertext = []
    · cases db.events.lookup ⟨k, m.clientMsgID, "edited"⟩ <;>
        simp [Option.filter, EventColumns.event, blank]
      split <;> rfl
    · simp [Option.filter, EventColumns.event, blank]

/-- An edit is shown in full if the response says so and has its ciphertext. -/
theorem overlay_shows (ct : Bytes) : ((overlay (db.selectEvents k "") m).isEdited = true ∧
    (overlay (db.selectEvents k "") m).ciphertextB64 = Base64.encodeToString ct) ↔
      shownEdit (fun id => db.events.lookup ⟨k, id, "edited"⟩) m = some ct := by
  rw [overlay_isEdited, overlay_ciphertextB64, ← editOf_ciphertext]
  cases editOf (db.selectEvents k "") m with
  | none => simp
  | some edit => simpa using Base64.encodeToString_injective.eq_iff

section Shown
variable {edits : String → Option EventColumns}

theorem shownEdit_ne_nil {ct : Bytes} (shown : shownEdit edits m = some ct) : ct ≠ [] := by
  rcases Option.or_eq_some_iff.mp shown with server | ⟨-, client⟩
  · simpa using (Option.filter_eq_some_iff.mp server).2
  · simpa using (Option.filter_eq_some_iff.mp client).2

/-- An edit of the message is shown if it has a ciphertext that the server id does not cover. -/
theorem shownEdit_eq_some {id : String} {c : EventColumns}
    (named : id = m.messageID ∨ id = m.clientMsgID) (here : edits id = some c) :
    shownEdit edits m = some c.newCiphertext ↔ c.newCiphertext ≠ [] ∧ (id = m.messageID ∨
      ∀ c', edits m.messageID = some c' →
        c'.newCiphertext = [] ∨ c'.newCiphertext = c.newCiphertext) := by
  constructor
  · intro shown
    refine ⟨shownEdit_ne_nil shown, or_iff_not_imp_left.mpr fun _ c' server => ?_⟩
    by_cases blank : c'.newCiphertext = []
    · exact .inl blank
    · simp [shownEdit, server, blank] at shown
      exact .inr shown.1
  · rintro ⟨some, same | uncovered⟩
    · simp [shownEdit, ← same, here, some]
    · rcases named with same | same
      · simp [shownEdit, ← same, here, some]
      · cases server : edits m.messageID with
        | none => simp [shownEdit, server, ← same, here, some]
        | some c' =>
          rcases uncovered c' server with blank | equal
          · simp [shownEdit, server, ← same, here, some, blank]
          · simp [shownEdit, server, equal, some]

end Shown

/-- The last edit is the last one under its id. -/
theorem lastUnder_of_last (naming : Naming k m ops) {e : Recording}
    (last : (ofType ["edited"] ops).getLast? = some e) :
    (e.1.messageID = m.messageID ∨ e.1.messageID = m.clientMsgID) ∧
      lastUnder ⟨k, e.1.messageID, "edited"⟩ ops = some e.2 := by
  obtain ⟨mem, edited⟩ := List.mem_filter.mp (List.mem_of_getLast? last)
  have type : e.1.eventType = "edited" := by simpa using edited
  obtain ⟨id, hid, key⟩ := naming e mem
  rw [type] at key
  have one : (ops.filter fun e' => e'.1 = ⟨k, id, "edited"⟩) =
      (ofType ["edited"] ops).filter fun e' => e'.1 = ⟨k, id, "edited"⟩ := by
    rw [ofType, List.filter_filter]
    congr 1
    funext e'
    by_cases same : e'.1 = ⟨k, id, "edited"⟩ <;> simp [same]
  rw [key]
  refine ⟨List.mem_pair.mp hid, ?_⟩
  rw [lastUnder, one, getLast?_filter last (by simp [key])]
  rfl

/-- With the events at hand, an edit is replayed if it has a ciphertext that nothing covers. -/
theorem edits_replayed (kept : KeepsLast db k m ops) (naming : Naming k m ops) :
    (match (ofType ["edited"] ops).getLast? with
      | none => (overlay (db.selectEvents k "") m).isEdited = false
      | some e => (overlay (db.selectEvents k "") m).isEdited = true ∧
        (overlay (db.selectEvents k "") m).ciphertextB64 =
          Base64.encodeToString e.2.newCiphertext) ↔
    ∀ e, (ofType ["edited"] ops).getLast? = some e → e.2.newCiphertext ≠ [] ∧
      (e.1.messageID = m.messageID ∨ ∀ c, lastUnder ⟨k, m.messageID, "edited"⟩ ops = some c →
        c.newCiphertext = [] ∨ c.newCiphertext = e.2.newCiphertext) := by
  cases last : (ofType ["edited"] ops).getLast? with
  | none =>
    have unedited (id : String) (hid : id ∈ [m.messageID, m.clientMsgID]) :
        db.events.lookup ⟨k, id, "edited"⟩ = none := by
      rw [kept id hid, ← Option.not_isSome_iff_eq_none, lastUnder_isSome]
      rintro ⟨e, he, key⟩
      have mem : e ∈ ofType ["edited"] ops := List.mem_filter.mpr ⟨he, by simp [key]⟩
      simp [List.getLast?_eq_none_iff.mp last] at mem
    have none : editOf (db.selectEvents k "") m = none := by
      simpa [shownEdit, unedited] using editOf_ciphertext db k m
    simp [overlay_isEdited, none]
  | some e =>
    obtain ⟨named, under⟩ := lastUnder_of_last naming last
    simp only [Option.some.injEq, forall_eq']
    rw [overlay_shows, shownEdit_eq_some named ((kept _ (by simpa using named) _).trans under),
      kept m.messageID (by simp)]

end Replay

/-! ## The history of a run -/

/-- An operation of Alice on a message to Bob. -/
def operationFrame (fields : String) : Bytes :=
  ("\x7b\"channel_id\":\"bob\"," ++ fields ++ "\x7d").toUTF8.data.toList

/-- Thread `i` handles the frame up to the event. -/
def operationLabels (i : Nat) (fields : String) :
    List (PoolLabel (gateway samplePlatform sampleRouter)) := [
  .spawn ⟨⟨"alice", .json⟩, operationFrame fields⟩, .run i (.answer true), .run i .ok,
  .run i (.answer true), .run i (.answer true), .run i .ok]

def sampleEdit (id ciphertext : String) : String :=
  "\"action\":\"edit_message\",\"message_id\":\"" ++ id ++ "\",\"ciphertext_base64\":\"" ++
    ciphertext ++ "\""

def samplePin (id op : String) : String :=
  "\"action\":\"pin_message\",\"message_id\":\"" ++ id ++ "\",\"op\":\"" ++ op ++ "\""

abbrev gatewayRuns : Machine (Pool (gateway samplePlatform sampleRouter))
    (PoolLabel (gateway samplePlatform sampleRouter)) :=
  Pool.machine (gateway samplePlatform sampleRouter)

/-- Alice sends a message and operates on it. -/
def operated (labels : List (PoolLabel (gateway samplePlatform sampleRouter))) :
    Option (Pool (gateway samplePlatform sampleRouter) × List Recording) :=
  gatewayRuns.collect recorded (Pool.start _ (Server.empty sampleClock)) (helloLabels ++ labels)

theorem operated_emits {labels : List (PoolLabel (gateway samplePlatform sampleRouter))}
    {run : Pool (gateway samplePlatform sampleRouter) × List Recording}
    (h : operated labels = some run) : gatewayRuns.Emits recorded run.1 run.2 := by
  have start : gatewayRuns.Emits recorded
      (Pool.start (gateway samplePlatform sampleRouter) (Server.empty sampleClock)) [] :=
    .start ⟨_, ⟨sampleClock, rfl⟩, rfl⟩
  exact start.collect h

/-- An edit under the client id, and a pin. -/
def plainLabels : List (PoolLabel (gateway samplePlatform sampleRouter)) :=
  operationLabels 1 (sampleEdit "c1" "BwcH") ++
    operationLabels 2 (samplePin sampleRow.messageID.text "pin")

/-- An edit under each id, and a pin that is taken back and repeated. -/
def mixedLabels : List (PoolLabel (gateway samplePlatform sampleRouter)) :=
  List.flatten [operationLabels 1 (sampleEdit sampleRow.messageID.text "BwcH"),
    operationLabels 2 (sampleEdit "c1" "CAgI"), operationLabels 3 (samplePin "c1" "pin"),
    operationLabels 4 (samplePin "c1" "unpin"), operationLabels 5 (samplePin "c1" "pin")]

set_option maxRecDepth 20000

theorem operated_isSome :
    (operated plainLabels).isSome = true ∧ (operated mixedLabels).isSome = true := by
  decide

theorem plain_isSome : (operated plainLabels).isSome := operated_isSome.1

theorem mixed_isSome : (operated mixedLabels).isSome := operated_isSome.2

def plainRun : Pool (gateway samplePlatform sampleRouter) × List Recording :=
  (operated plainLabels).get plain_isSome

def mixedRun : Pool (gateway samplePlatform sampleRouter) × List Recording :=
  (operated mixedLabels).get mixed_isSome

theorem sampleFetch_executes (s : Server) : Executes (system samplePlatform)
    (sampleRouter.handleFetchHistory samplePlatform ⟨"bob", .json⟩ sampleFetch) s
    (sampleTrace (sampleMessages s)) (.ok ()) s := by
  have rows : sampleMessages s = (((s.db.selectMessages s.clock "dm:alice:bob" "2024-05" 50
      none).map StoredMessage.response).map StoredMessageResponse.ledgerMessage).map
        (overlay (s.db.selectEvents "dm:alice:bob" "")) := by
    simp only [sampleMessages, historyRows, List.map_map]
    rfl
  rw [rows]
  exact Executes.of_play ((sampleTrace []).map Prod.snd) (by rfl)

abbrev sampleMessage : LedgerMessage := sampleRow.response.ledgerMessage

def recordingOf (id type : String) (ciphertext : Bytes) : Recording :=
  (⟨"dm:alice:bob", id, type⟩, ⟨"alice", ciphertext, sampleClock⟩)

theorem plain_operations :
    operationsOn "dm:alice:bob" sampleMessage plainRun.2 =
      [recordingOf "c1" "edited" [7, 7, 7], recordingOf sampleRow.messageID.text "pin" []] ∧
    historyRows samplePlatform ⟨"bob", .json⟩ ⟨"fetch_history", "alice", 0, ""⟩
      plainRun.1.shared = [sampleMessage] ∧
    (sampleMessages plainRun.1.shared).map (fun dto => (dto.isPinned, dto.ciphertextB64)) =
      [(true, "BwcH")] := by
  decide

theorem plain_legible : Legible "dm:alice:bob" sampleMessage
    (EventsArrived "dm:alice:bob" (sampleTrace (sampleMessages plainRun.1.shared)))
    (operationsOn "dm:alice:bob" sampleMessage plainRun.2)
    (Deleted plainRun.1.shared.db "dm:alice:bob" sampleMessage) := by
  have arrived : EventsArrived "dm:alice:bob"
      (sampleTrace (sampleMessages plainRun.1.shared)) := by simp [EventsArrived, sampleTrace]
  rw [plain_operations.1]
  constructor
  · intro e last pin
    refine ⟨arrived, fun e' he' => ?_⟩
    fin_cases he' <;> decide
  · intro _ e last
    cases last
    refine ⟨arrived, by decide, .inr fun c server => ?_⟩
    cases server

theorem plainRun_emits : gatewayRuns.Emits recorded plainRun.1 plainRun.2 :=
  operated_emits (Option.some_get plain_isSome).symm

theorem mixedRun_emits : gatewayRuns.Emits recorded mixedRun.1 mixedRun.2 :=
  operated_emits (Option.some_get mixed_isSome).symm

end GenChat.Gateway
