import GenChat.Gateway.Footprint

/-!
# Deleted messages in the history

`handleFetchHistory` lays the recorded events over the fetched rows: first deletions, which blank
the ciphertext, then edits, which write it again. A deleted message therefore stays blank exactly
if no edit with a ciphertext is recorded for it, and if the events could be read at all, for
their failure to arrive is ignored.
-/
namespace GenChat.Gateway
open Library Ledger Router

/-! ## Events of one message -/

/-- Events are found under their primary key. -/
theorem findEvent_selectEvents (db : Store) (k id type : String) :
    findEvent (db.selectEvents k "") id type =
      (db.events.lookup ⟨k, id, type⟩).map fun c => c.event ⟨k, id, type⟩ := by
  have rows {e : MessageEvent} (he : e ∈ db.selectEvents k "") (hid : e.messageID = id)
      (htype : e.eventType = type) :
      ∃ c, db.events.lookup ⟨k, id, type⟩ = some c ∧ e = c.event ⟨k, id, type⟩ := by
    obtain ⟨row, conversation⟩ := List.mem_filter.mp he
    obtain ⟨⟨key, c⟩, entry, rfl⟩ := List.mem_map.mp row
    have same : key = ⟨k, id, type⟩ := by
      cases key
      simp_all [EventColumns.event]
    subst same
    exact ⟨c, AList.mem_lookup_iff.mpr entry, rfl⟩
  cases found : findEvent (db.selectEvents k "") id type with
  | some e =>
    have mem := List.mem_reverse.mp (List.mem_of_find?_eq_some found)
    obtain ⟨hid, htype⟩ : e.messageID = id ∧ e.eventType = type := by
      simpa using List.find?_some found
    obtain ⟨c, hc, rfl⟩ := rows mem hid htype
    simp [hc]
  | none =>
    cases hc : db.events.lookup ⟨k, id, type⟩ with
    | none => rfl
    | some c =>
      have mem : c.event ⟨k, id, type⟩ ∈ db.selectEvents k "" := by
        refine List.mem_filter.mpr ⟨List.mem_map.mpr ⟨⟨_, c⟩, AList.mem_lookup_iff.mp hc, rfl⟩, ?_⟩
        simp [EventColumns.event]
      have absent := List.find?_eq_none.mp found _ (List.mem_reverse.mpr mem)
      simp [EventColumns.event] at absent

/-- A deletion is recorded under one of the ids of the message. -/
def Deleted (db : Store) (k : String) (m : LedgerMessage) : Prop :=
  ∃ id ∈ [m.messageID, m.clientMsgID], (db.events.lookup ⟨k, id, "deleted"⟩).isSome

/-- An edit that brings a ciphertext is recorded under one of the ids of the message. -/
def Rewritten (db : Store) (k : String) (m : LedgerMessage) : Prop :=
  ∃ id ∈ [m.messageID, m.clientMsgID], ∃ c,
    db.events.lookup ⟨k, id, "edited"⟩ = some c ∧ c.newCiphertext ≠ []

theorem hasEvent_deleted (db : Store) (k : String) (m : LedgerMessage) :
    hasEvent (db.selectEvents k "") m "deleted" ↔ Deleted db k m := by
  simp [hasEvent, findEvent_selectEvents, Deleted]

theorem editOf_isSome (db : Store) (k : String) (m : LedgerMessage) :
    (editOf (db.selectEvents k "") m).isSome ↔ Rewritten db k m := by
  simp only [editOf, findEvent_selectEvents, Rewritten]
  cases server : db.events.lookup ⟨k, m.messageID, "edited"⟩ <;>
    cases client : db.events.lookup ⟨k, m.clientMsgID, "edited"⟩ <;>
    simp [EventColumns.event, Option.filter, server, client] <;>
    split <;> simp_all

theorem editOf_nonempty {events : List MessageEvent} {m : LedgerMessage} {e : MessageEvent}
    (h : editOf events m = some e) : e.newCiphertext ≠ [] := by
  unfold editOf at h
  split at h
  · rename_i found
    cases h
    simpa using (Option.filter_eq_some_iff.mp found).2
  · simpa using (Option.filter_eq_some_iff.mp h).2

/-! ## The overlay -/

section Overlay
variable (events : List MessageEvent) (m : LedgerMessage) (dto : HistoryMessageDTO)

@[simp] theorem applyPin_serverID : (applyPin events m dto).serverID = dto.serverID := by
  simp only [applyPin]
  split <;> split <;> rfl

@[simp] theorem applyPin_isDeleted : (applyPin events m dto).isDeleted = dto.isDeleted := by
  simp only [applyPin]
  split <;> split <;> rfl

@[simp] theorem applyPin_ciphertextB64 :
    (applyPin events m dto).ciphertextB64 = dto.ciphertextB64 := by
  simp only [applyPin]
  split <;> split <;> rfl

@[simp] theorem applyEdit_serverID : (applyEdit events m dto).serverID = dto.serverID := by
  unfold applyEdit
  split <;> rfl

@[simp] theorem applyEdit_isDeleted : (applyEdit events m dto).isDeleted = dto.isDeleted := by
  unfold applyEdit
  split <;> rfl

theorem overlay_serverID : (overlay events m).serverID = m.messageID := by
  simp only [overlay, applyPin_serverID, applyEdit_serverID, applyDeletion]
  split <;> rfl

theorem overlay_isDeleted : (overlay events m).isDeleted = hasEvent events m "deleted" := by
  simp only [overlay, applyPin_isDeleted, applyEdit_isDeleted, applyDeletion]
  cases hasEvent events m "deleted" <;> rfl

theorem overlay_ciphertextB64 : (overlay events m).ciphertextB64 = match editOf events m with
    | some e => Base64.encodeToString e.newCiphertext
    | none => if hasEvent events m "deleted" then ""
        else Base64.encodeToString m.encryptedPayload := by
  rw [overlay, applyPin_ciphertextB64, applyEdit]
  cases editOf events m with
  | some e => rfl
  | none =>
    simp only [applyDeletion]
    split <;> rfl

end Overlay

/-- With all recorded events at hand, a deleted message is blank unless an edit rewrites it. -/
theorem overlay_deleted_iff {db : Store} {k : String} {m : LedgerMessage} (h : Deleted db k m) :
    ((overlay (db.selectEvents k "") m).isDeleted = true ∧
      (overlay (db.selectEvents k "") m).ciphertextB64 = "") ↔ ¬ Rewritten db k m := by
  have deleted := (hasEvent_deleted db k m).mpr h
  rw [overlay_isDeleted, overlay_ciphertextB64, ← editOf_isSome]
  cases edit : editOf (db.selectEvents k "") m with
  | none => simp [deleted]
  | some e => simp [Base64.encodeToString_eq_empty, editOf_nonempty edit]

/-- Without events nothing is marked as deleted. -/
theorem overlay_nil (m : LedgerMessage) : (overlay [] m).isDeleted = false := by
  rw [overlay_isDeleted]
  rfl

/-! ## Runs of the handler -/

section Runs
variable {S : Platform} {r : Router} {conn : Conn} {s t : Server} {c : Choice}

/-- A call that was lost on its way, or one whose answer came back or was lost. -/
theorem executes_rpc {α : Type} {method : RpcMethod} {handler : Proc (Except Status α)}
    {trace : List (Op × Choice)} {a : Except Status α}
    (run : Executes (system S) (rpc method handler) s trace a t) :
    (trace = [(.rpcRequest method, .answer false)] ∧
      a = .error ⟨.unavailable, "connection error"⟩ ∧ s = t) ∨
    ∃ inner answer arrived, Executes (system S) handler s inner answer t ∧
      trace = (.rpcRequest method, .answer true) ::
        (inner ++ [(.rpcReply method, .answer arrived)]) ∧
      a = if arrived then answer else
        .error ⟨.deadlineExceeded, "context deadline exceeded"⟩ := by
  simp only [rpc, rpcRequest, rpcReply, issue, Prog.monad_bind, Prog.perform_bind] at run
  obtain ⟨_, reached, _, later, hr, called, rfl⟩ := executes_call.mp run
  obtain ⟨rfl, rfl⟩ := Server.ask_eq_some.mp hr
  cases reached with
  | false =>
    obtain ⟨rfl, rfl, rfl⟩ := executes_pure.mp called
    exact .inl ⟨rfl, rfl, rfl⟩
  | true =>
    obtain ⟨inner, answer, u, rest, handled, replied, rfl⟩ := executes_bind.mp called
    obtain ⟨_, arrived, _, rest, hr, done, rfl⟩ := executes_call.mp replied
    obtain ⟨rfl, rfl⟩ := Server.ask_eq_some.mp hr
    refine .inr ⟨inner, answer, arrived, ?_⟩
    cases arrived <;> obtain ⟨rfl, rfl, rfl⟩ := executes_pure.mp done <;>
      exact ⟨handled, rfl, rfl⟩

theorem executes_rpc_ok {α : Type} {method : RpcMethod} {handler : Proc (Except Status α)}
    {trace : List (Op × Choice)} {a : α}
    (run : Executes (system S) (rpc method handler) s trace (.ok a) t) :
    ∃ inner, Executes (system S) handler s inner (.ok a) t := by
  rcases executes_rpc run with ⟨-, ⟨⟩, -⟩ | ⟨inner, answer, arrived, handled, -, ha⟩
  cases arrived with
  | false => cases ha
  | true =>
    cases ha
    exact ⟨inner, handled⟩

/-- The rows `fetch_history` asks the ledger for. -/
def historyRows (S : Platform) (conn : Conn) (frame : FetchHistoryFrame) (s : Server) :
    List LedgerMessage :=
  let beforeID := if frame.beforeServerID ≠ "" then S.parseUUID frame.beforeServerID else none
  (s.db.selectMessages s.clock (getConversationID conn.userID frame.channelID)
    (S.formatBucket s.clock) (if frame.limit ≤ 0 then 50 else frame.limit) beforeID).map
      fun m => m.response.ledgerMessage

theorem executes_fetchMessages {k bucket before : String} {limit : Int}
    {trace : List (Op × Choice)} {rows : List StoredMessageResponse}
    (run : Executes (system S) (LedgerHandler.fetchMessages S k bucket limit before)
      s trace (.ok rows) t) :
    s = t ∧ rows = (s.db.selectMessages s.clock k bucket limit
      (if before ≠ "" then S.parseUUID before else none)).map StoredMessage.response := by
  obtain ⟨c, found, u, later, hr, done, rfl⟩ := executes_call.mp run
  obtain ⟨rfl, ⟨rfl, rfl⟩ | ⟨rfl, rfl⟩⟩ := Server.query_eq_some.mp hr
  · obtain ⟨rfl, h, rfl⟩ := executes_pure.mp done
    cases h
    exact ⟨rfl, rfl⟩
  · obtain ⟨rfl, ⟨⟩, rfl⟩ := executes_pure.mp done

theorem executes_historyRows {frame : FetchHistoryFrame} {trace : List (Op × Choice)}
    {msgs : List LedgerMessage}
    (run : Executes (system S) (LedgerClient.fetchMessages S
      (getConversationID conn.userID frame.channelID) (S.formatBucket s.clock) frame.limit
      frame.beforeServerID) s trace (.ok msgs) t) :
    s = t ∧ msgs = historyRows S conn frame s := by
  -- The default of the bucket is the bucket the caller passes, so both branches fetch alike.
  have fetched {rest : List (Op × Choice)} (called : Executes (system S)
      ((rpc .fetchMessages (LedgerHandler.fetchMessages S
        (getConversationID conn.userID frame.channelID) (S.formatBucket s.clock)
        (if frame.limit ≤ 0 then 50 else frame.limit) frame.beforeServerID)).bind ledgerMessages)
      s rest (.ok msgs) t) : s = t ∧ msgs = historyRows S conn frame s := by
    obtain ⟨_, answer, u, _, called, done, rfl⟩ := executes_bind.mp called
    cases answer with
    | error err => obtain ⟨-, ⟨⟩, -⟩ := executes_pure.mp done
    | ok rows =>
      obtain ⟨inner, handled⟩ := executes_rpc_ok called
      obtain ⟨rfl, rfl⟩ := executes_fetchMessages handled
      obtain ⟨-, h, rfl⟩ := executes_pure.mp done
      cases h
      exact ⟨rfl, by simp [historyRows]⟩
  rw [LedgerClient.fetchMessages] at run
  by_cases empty : S.formatBucket s.clock = ""
  · rw [if_pos empty] at run
    obtain ⟨c, time, v, rest, hr, called, rfl⟩ := executes_call.mp run
    cases c <;> cases hr
    exact fetched called
  · rw [if_neg empty] at run
    exact fetched run

/-- The recorded events of the conversation reached the gateway. -/
def EventsArrived (k : String) (trace : List (Op × Choice)) : Prop :=
  (.rpcRequest .fetchMessageEvents, .answer true) ∈ trace ∧ (.selectEvents k "", .ok) ∈ trace ∧
    (.rpcReply .fetchMessageEvents, .answer true) ∈ trace

/-- The operations before the events are looked up. -/
def Op.beforeEvents : Op → Prop
  | .sendToUser _ (.history _ _) => False
  | .selectEvents _ _ => False
  | .rpcRequest method => method ≠ .fetchMessageEvents
  | .rpcReply method => method ≠ .fetchMessageEvents
  | _ => True

theorem executes_fetchMessageEvents {k : String} (hk : k ≠ "") {trace : List (Op × Choice)}
    {answer : Except Status (List MessageEvent)}
    (run : Executes (system S) (LedgerClient.fetchMessageEvents k "") s trace answer t) :
    s = t ∧ (∀ u f c, (.sendToUser u f, c) ∉ trace) ∧
      (EventsArrived k trace ∧ answer = .ok (s.db.selectEvents k "") ∨
        ¬ EventsArrived k trace ∧ ∃ err, answer = .error err) := by
  rcases executes_rpc run with ⟨rfl, rfl, rfl⟩ | ⟨inner, answer, arrived, handled, rfl, rfl⟩
  · exact ⟨rfl, by simp, .inr ⟨by simp [EventsArrived], _, rfl⟩⟩
  · rw [LedgerHandler.fetchMessageEvents, if_neg hk] at handled
    obtain ⟨c, found, u, later, hr, done, rfl⟩ := executes_call.mp handled
    obtain ⟨rfl, ⟨rfl, rfl⟩ | ⟨rfl, rfl⟩⟩ := Server.query_eq_some.mp hr <;>
      obtain ⟨rfl, rfl, rfl⟩ := executes_pure.mp done
    · cases arrived <;> simp [EventsArrived]
    · cases arrived <;> simp [EventsArrived]

theorem Op.fetches.beforeEvents {op : Op} (h : Op.fetches op) : op.beforeEvents := by
  unfold Op.fetches at h
  split at h <;> first | exact h.elim | trivial | exact nofun

theorem beforeEvents_sendError (code msg : String) :
    (sendError conn code msg).All Op.beforeEvents := ⟨trivial, fun _ => trivial⟩

theorem getConversationID_ne_empty {u ch : String} (hch : ch ≠ "") :
    getConversationID u ch ≠ "" := by
  unfold getConversationID
  split
  · exact hch
  · split <;> simp [String.append_eq_empty_iff]

/-- Operations in front of the lookup say nothing about the events. -/
theorem eventsArrived_append {k : String} {first later : List (Op × Choice)}
    (early : ∀ x ∈ first, x.1.beforeEvents) :
    EventsArrived k (first ++ later) ↔ EventsArrived k later := by
  have absent {op : Op} {c : Choice} (late : ¬ op.beforeEvents) :
      (op, c) ∈ first ++ later ↔ (op, c) ∈ later := by
    rw [List.mem_append]
    exact or_iff_right fun mem => late (early _ mem)
  rw [EventsArrived, absent (by simp [Op.beforeEvents]), absent (by simp [Op.beforeEvents]),
    absent (by simp [Op.beforeEvents]), EventsArrived]

/-- A response carries the fetched rows under the events that arrived. -/
theorem executes_respondHistory {frame : FetchHistoryFrame} (hch : frame.channelID ≠ "")
    {trace : List (Op × Choice)} {res : Except RelayError Unit} {ch : String}
    {messages : List HistoryMessageDTO}
    (run : Executes (system S) (respondHistory S conn frame) s trace res t)
    (sent : (.sendToUser conn.userID (.history ch messages), c) ∈ trace) :
    ∃ events, messages = (historyRows S conn frame s).map (overlay events) ∧
      let k := getConversationID conn.userID frame.channelID
      (EventsArrived k trace ∧ events = s.db.selectEvents k "" ∨
        ¬ EventsArrived k trace ∧ events = []) := by
  obtain ⟨c, time, _, rest, hr, run, rfl⟩ := executes_call.mp run
  cases c <;> cases hr
  change Executes (system S) (Prog.bind (LedgerClient.fetchMessages S _ _ _ _) _) _ _ _ _ at run
  obtain ⟨first, answer, u, later, fetched, run, rfl⟩ := executes_bind.mp run
  have early := fetched.all ((fetchMessages_all _ _ _ _).mono fun _ => Op.fetches.beforeEvents)
  have before : ∀ x ∈ (.now, .ok) :: first, Op.beforeEvents x.1 :=
    List.forall_mem_cons.mpr ⟨trivial, early⟩
  rw [← List.cons_append] at sent ⊢
  simp only [eventsArrived_append before]
  replace sent := (List.mem_append.mp sent).resolve_left fun mem => before _ mem
  cases answer with
  | error err =>
    exact absurd sent fun mem => run.all (beforeEvents_sendError _ _) _ mem
  | ok msgs =>
    obtain ⟨rfl, rfl⟩ := executes_historyRows fetched
    obtain ⟨looked, answer, u, rest, lookup, run, rfl⟩ := executes_bind.mp run
    obtain ⟨rfl, silent, arrived⟩ :=
      executes_fetchMessageEvents (getConversationID_ne_empty hch) lookup
    obtain ⟨c', _, _, _, hr, done, rfl⟩ := executes_call.mp run
    obtain ⟨rfl, -, -⟩ := executes_pure.mp done
    replace sent := (List.mem_append.mp sent).resolve_left (silent _ _ _)
    simp only [List.mem_singleton, Prod.mk.injEq, Op.sendToUser.injEq, Frame.history.injEq] at sent
    obtain ⟨⟨-, -, rfl⟩, -⟩ := sent
    rcases arrived with ⟨arrived, rfl⟩ | ⟨lost, err, rfl⟩
    · exact ⟨_, rfl, .inl ⟨by simpa [EventsArrived] using arrived, rfl⟩⟩
    · exact ⟨_, rfl, .inr ⟨by simpa [EventsArrived] using lost, rfl⟩⟩

theorem executes_handleFetchHistory {data : Json} {frame : FetchHistoryFrame}
    (parsed : FetchHistoryFrame.unmarshal data = some frame)
    {trace : List (Op × Choice)} {res : Except RelayError Unit} {ch : String}
    {messages : List HistoryMessageDTO}
    (run : Executes (system S) (r.handleFetchHistory S conn data) s trace res t)
    (sent : (.sendToUser conn.userID (.history ch messages), c) ∈ trace) :
    ∃ events, messages = (historyRows S conn frame s).map (overlay events) ∧
      let k := getConversationID conn.userID frame.channelID
      (EventsArrived k trace ∧ events = s.db.selectEvents k "" ∨
        ¬ EventsArrived k trace ∧ events = []) := by
  have refused {code msg : String} {s : Server} {trace : List (Op × Choice)}
      (run : Executes (system S) (sendError conn code msg) s trace res t) :
      (.sendToUser conn.userID (.history ch messages), c) ∉ trace :=
    fun mem => run.all (beforeEvents_sendError _ _) _ mem
  simp only [handleFetchHistory, parsed] at run
  split at run
  · exact absurd sent (refused run)
  rename_i hch
  split at run
  · exact absurd sent (refused run)
  split at run
  · obtain ⟨c, members, u, rest, hr, checked, rfl⟩ := executes_call.mp run
    obtain ⟨rfl, -⟩ := Server.getChannelMembers_cases hr
    have later := (List.mem_cons.mp sent).resolve_left (by simp)
    have early : ∀ x ∈ [(Op.getChannelMembers (trimPrefix frame.channelID "chan_"), c)],
        x.1.beforeEvents := List.forall_mem_singleton.mpr trivial
    rw [← List.singleton_append]
    simp only [eventsArrived_append early]
    rw [Prog.pure_bind] at checked
    cases members with
    | error err => exact absurd later (refused checked)
    | ok memberIDs =>
      dsimp only at checked
      split at checked
      · exact absurd later (refused checked)
      · exact executes_respondHistory hch checked later
  · exact executes_respondHistory hch run sent

end Runs

/-- Every response to `fetch_history` carries the fetched rows. A deleted one is marked and blank
exactly if the recorded events arrived and no edit with a ciphertext is among them. -/
theorem deleted_stay_deleted {S : Platform} {r : Router} {conn : Conn} {data : Json}
    {frame : FetchHistoryFrame} {s t : Server} {trace : List (Op × Choice)}
    {res : Except RelayError Unit} {ch : String} {messages : List HistoryMessageDTO} {c : Choice}
    (parsed : FetchHistoryFrame.unmarshal data = some frame)
    (run : Executes (system S) (r.handleFetchHistory S conn data) s trace res t)
    (sent : (.sendToUser conn.userID (.history ch messages), c) ∈ trace) :
    let k := getConversationID conn.userID frame.channelID
    List.Forall₂ (fun m dto => dto.serverID = m.messageID ∧ (Deleted s.db k m →
      (dto.isDeleted = true ∧ dto.ciphertextB64 = "" ↔
        EventsArrived k trace ∧ ¬ Rewritten s.db k m))) (historyRows S conn frame s) messages := by
  intro k
  obtain ⟨events, rfl, arrived⟩ := executes_handleFetchHistory parsed run sent
  refine List.forall₂_map_right_iff.mpr (List.forall₂_same.mpr fun m _ => ⟨?_, fun hm => ?_⟩)
  · exact overlay_serverID events m
  · rcases arrived with ⟨arrived, rfl⟩ | ⟨lost, rfl⟩
    · rw [overlay_deleted_iff hm]
      simp [k, arrived]
    · simp [overlay_nil, k, lost]

/-! ## Samples -/

/-- Alice wrote to Bob and deleted her message. -/
def sampleDeleted : Server :=
  let db := Store.empty.insertAuthor sampleClock "dm:alice:bob" "c1" "alice"
  let db := db.insertAuthor sampleClock "dm:alice:bob" sampleRow.messageID.text "alice"
  let db := db.insertRow sampleClock sampleRow
  let db := db.insertDedup sampleClock "dm:alice:bob" "c1" sampleRow.messageID 1 0
  { Server.empty sampleClock with
    db := db.insertEvent ⟨"dm:alice:bob", sampleRow.messageID.text, "deleted"⟩
      ⟨"alice", [], sampleClock⟩ }

/-- She then edited it under its client id. -/
def sampleEdited : Server :=
  { sampleDeleted with
    db := sampleDeleted.db.insertEvent ⟨"dm:alice:bob", "c1", "edited"⟩
      ⟨"alice", [7, 7, 7], sampleClock⟩ }

def sampleFetch : Json :=
  .object [("action", .string "fetch_history"), ("channel_id", .string "alice")]

/-- Bob fetches the conversation, and everything the handler calls answers. -/
def sampleTrace (messages : List HistoryMessageDTO) : List (Op × Choice) := [
  (.now, .ok),
  (.rpcRequest .fetchMessages, .answer true),
  (.selectMessages "dm:alice:bob" "2024-05" 50 none, .ok),
  (.rpcReply .fetchMessages, .answer true),
  (.rpcRequest .fetchMessageEvents, .answer true),
  (.selectEvents "dm:alice:bob" "", .ok),
  (.rpcReply .fetchMessageEvents, .answer true),
  (.sendToUser "bob" (.history "alice" messages), .ok)]

def sampleMessages (s : Server) : List HistoryMessageDTO :=
  (historyRows samplePlatform ⟨"bob", .json⟩ ⟨"fetch_history", "alice", 0, ""⟩ s).map
    (overlay (s.db.selectEvents "dm:alice:bob" ""))

theorem sampleTrace_executes (s : Server) (hs : s = sampleDeleted ∨ s = sampleEdited) :
    Executes (system samplePlatform)
      (sampleRouter.handleFetchHistory samplePlatform ⟨"bob", .json⟩ sampleFetch) s
      (sampleTrace (sampleMessages s)) (.ok ()) s := by
  apply Executes.of_play ((sampleTrace []).map Prod.snd)
  rcases hs with rfl | rfl <;> rfl

/-- Before the edit the message is gone. -/
theorem deleted_stay_deleted_sample :
    Deleted sampleDeleted.db "dm:alice:bob" sampleRow.response.ledgerMessage ∧
    List.Forall₂ (fun m dto => dto.serverID = m.messageID ∧
      (Deleted sampleDeleted.db "dm:alice:bob" m → (dto.isDeleted = true ∧ dto.ciphertextB64 = "" ↔
        EventsArrived "dm:alice:bob" (sampleTrace (sampleMessages sampleDeleted)) ∧
          ¬ Rewritten sampleDeleted.db "dm:alice:bob" m)))
      [sampleRow.response.ledgerMessage] (sampleMessages sampleDeleted) :=
  ⟨⟨sampleRow.messageID.text, by decide, by decide⟩, deleted_stay_deleted
    (rfl : FetchHistoryFrame.unmarshal sampleFetch = some ⟨"fetch_history", "alice", 0, ""⟩)
    (sampleTrace_executes _ (.inl rfl)) (List.mem_of_getLast? rfl)⟩

/-- After it the response shows the edited text. -/
theorem deleted_message_shown :
    Executes (system samplePlatform)
      (sampleRouter.handleFetchHistory samplePlatform ⟨"bob", .json⟩ sampleFetch) sampleEdited
      (sampleTrace (sampleMessages sampleEdited)) (.ok ()) sampleEdited ∧
    Deleted sampleEdited.db "dm:alice:bob" sampleRow.response.ledgerMessage ∧
    (sampleMessages sampleEdited).map (fun dto => (dto.serverID, dto.ciphertextB64)) =
      [(sampleRow.messageID.text, "BwcH")] :=
  ⟨sampleTrace_executes _ (.inr rfl), ⟨sampleRow.messageID.text, by decide, by decide⟩, by decide⟩

end GenChat.Gateway
