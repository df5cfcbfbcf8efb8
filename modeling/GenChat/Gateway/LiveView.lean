import GenChat.Gateway.Overlay

/-!
# The live view and the history

The handlers of edits, deletions and pins record an event, ignore whether that worked, and then
push the change and acknowledge it. An edit is pushed as the text it came in, but recorded as the
bytes that Go's decoder made of it before it met an error. What was pushed is therefore what the
history shows only if the write took effect, the text decodes, and no other edit covers it.
-/
namespace GenChat.Gateway
open Library Ledger Router

/-! ## Reports -/

/-- What a frame reports as done: a change of a message, and the ciphertext it pushes. -/
structure Report where
  channelID : String
  messageID : String
  eventType : String
  pushed : Option String
  deriving DecidableEq

def Frame.report : Frame → Option Report
  | .messageEdited ch id _ ct _ => some ⟨ch, id, "edited", some ct⟩
  | .ackEdit id ch _ => some ⟨ch, id, "edited", none⟩
  | .messageDeleted ch id _ _ => some ⟨ch, id, "deleted", none⟩
  | .ackDelete id ch scope => if scope = "everyone" then some ⟨ch, id, "deleted", none⟩ else none
  | .messagePinned ch id _ op _ => some ⟨ch, id, op, none⟩
  | .ackPin id ch op _ => some ⟨ch, id, op, none⟩
  | _ => none

def Op.report : Op → Option Report
  | .sendToUser _ frame | .broadcastAll _ frame => frame.report
  | _ => none

namespace Report
variable (rep : Report) (conn : Conn)

/-- The key of the event that belongs to a report. -/
def key : EventKey :=
  ⟨getConversationID conn.userID rep.channelID, rep.messageID, rep.eventType⟩

/-- The message is in the ledger, under the reported id or with it as its client id. -/
def names (db : Store) (m : LedgerMessage) : Prop :=
  ∃ row, db.Holds row ∧ row.conversationID = getConversationID conn.userID rep.channelID ∧
    m = row.response.ledgerMessage ∧
      (rep.messageID = m.messageID ∨ rep.messageID = m.clientMsgID)

/-- The event is recorded for the user. A ciphertext that was pushed is the recorded one, and the
history shows it for the message. -/
def Agrees (db : Store) : Prop :=
  ∃ row, db.events.lookup (rep.key conn) = some row ∧ row.actorID = conn.userID ∧
    ∀ text, rep.pushed = some text → Base64.decodeString text = (row.newCiphertext, true) ∧
      ∀ m, rep.names conn db m →
        let dto := overlay (db.selectEvents (getConversationID conn.userID rep.channelID) "") m
        dto.isEdited = true ∧ dto.ciphertextB64 = Base64.encodeToString row.newCiphertext

/-- A write of the event took effect. -/
def Recorded (trace : List (Op × Choice)) : Prop :=
  ∃ ct c, c ≠ .fail ∧ (.insertEvent (rep.key conn).conversationID (rep.key conn).messageID
    (rep.key conn).eventType conn.userID ct, c) ∈ trace

/-- A pushed ciphertext decodes. For a message that the history has, it decodes to something, and
no other edit with a ciphertext stands under the server id unless the edit goes there itself. -/
def Intact (db : Store) : Prop :=
  ∀ text, rep.pushed = some text → (Base64.decodeString text).2 = true ∧
    ∀ m, rep.names conn db m → (Base64.decodeString text).1 ≠ [] ∧ (rep.messageID = m.messageID ∨
      ∀ row, db.events.lookup
          ⟨getConversationID conn.userID rep.channelID, m.messageID, "edited"⟩ = some row →
        row.newCiphertext = [] ∨ row.newCiphertext = (Base64.decodeString text).1)

end Report

variable {S : Platform} {r : Router} {conn : Conn} {rep : Report} {s t : Server}
  {trace : List (Op × Choice)}

theorem Op.report_edited {op : Op} {text : String} (h : op.report = some rep)
    (pushed : rep.pushed = some text) : rep.eventType = "edited" := by
  have frames (frame : Frame) (h : frame.report = some rep) : rep.eventType = "edited" := by
    cases frame <;> simp only [Frame.report, reduceCtorEq, Option.some.injEq] at h <;>
      first | (subst h; first | rfl | cases pushed) | skip
    split at h <;> cases h
    cases pushed
  cases op <;> first | exact frames _ h | cases h

/-! ## From the event to the report -/

/-- The operation changes nothing and reports nothing. -/
def Op.quiet (op : Op) : Prop := op.silent ∧ op.report = none

/-- The operation changes nothing, and reports at most a change of the message. -/
def Op.reporting (ch id type : String) (text : Option String) (op : Op) : Prop :=
  op.silent ∧ ∀ rep, op.report = some rep → rep.channelID = ch ∧ rep.messageID = id ∧
    rep.eventType = type ∧ ∀ pushed, rep.pushed = some pushed → text = some pushed

theorem executes_silent {α : Type} {p : Proc α} {a : α}
    (run : Executes (system S) p s trace a t) (h : p.All Op.silent) : s = t := by
  induction p generalizing s trace with
  | pure => exact (executes_pure.mp run).2.2
  | call op k ih =>
    obtain ⟨c, x, u, later, hr, rest, -⟩ := executes_call.mp run
    cases Server.exec_silent h.1 hr
    exact ih x rest (h.2 x)

/-- The event of a report was written with the bytes of the text, or it was not written. -/
def Recounted (conn : Conn) (s : Server) (trace : List (Op × Choice)) (t : Server) (rep : Report) :
    Prop :=
  ∃ ct, (∀ text, rep.pushed = some text → ct = (Base64.decodeString text).1) ∧
    (rep.Recorded conn trace ∧
      t.db = s.db.insertEvent (rep.key conn) ⟨conn.userID, ct, s.clock⟩ ∨
    ¬ rep.Recorded conn trace ∧ t.db = s.db)

/-- Whatever a program reports has such an outcome. -/
def Reports (S : Platform) (conn : Conn) (p : Handled) : Prop :=
  ∀ s trace res t rep, Executes (system S) p s trace res t →
    (∃ x ∈ trace, x.1.report = some rep) → Recounted conn s trace t rep

theorem Reports.of_quiet {p : Handled} (h : p.All Op.quiet) : Reports S conn p := by
  rintro s trace res t rep run ⟨x, hx, reported⟩
  have quiet := (run.all h x hx).2
  rw [reported] at quiet
  cases quiet

/-- Quiet operations in front make no difference. -/
theorem Reports.bind {α : Type} {p : Proc α} {f : α → Handled} (h : p.All Op.quiet)
    (hf : ∀ a, Reports S conn (f a)) : Reports S conn (p.bind f) := by
  rintro s trace res t rep run ⟨x, hx, reported⟩
  obtain ⟨first, a, u, later, before, after, rfl⟩ := executes_bind.mp run
  cases executes_silent before (h.mono fun _ quiet => quiet.1)
  have quiet := before.all h
  have there : x ∈ later := (List.mem_append.mp hx).resolve_left fun early => by
    rw [(quiet x early).2] at reported
    cases reported
  obtain ⟨ct, text, outcome⟩ := hf a s later res t rep after ⟨x, there, reported⟩
  have same : rep.Recorded conn (first ++ later) ↔ rep.Recorded conn later := by
    have absent (ct : Bytes) (c : Choice) : (.insertEvent (rep.key conn).conversationID
        (rep.key conn).messageID (rep.key conn).eventType conn.userID ct, c) ∉ first :=
      fun mem => (quiet _ mem).1
    simp [Report.Recorded, absent]
  exact ⟨ct, text, by rwa [same]⟩

/-- A call that records an event writes it, or leaves the store alone. -/
theorem executes_recordMessageEvent {k id type actor : String} {ct : Bytes}
    {answer : Except Status Unit} (hk : k ≠ "") (hid : id ≠ "") (htype : type ≠ "")
    (run : Executes (system S) (LedgerClient.recordMessageEvent k id type actor ct)
      s trace answer t) :
    (∀ x ∈ trace, x.1.report = none) ∧
    ((∃ c, c ≠ .fail ∧ (.insertEvent k id type actor ct, c) ∈ trace) ∧
      t.db = s.db.insertEvent ⟨k, id, type⟩ ⟨actor, ct, s.clock⟩ ∨
    (∀ ct' c, (.insertEvent k id type actor ct', c) ∈ trace → c = .fail) ∧ t.db = s.db) := by
  rcases executes_rpc run with ⟨rfl, rfl, rfl⟩ | ⟨inner, answer, arrived, handled, rfl, rfl⟩
  · simp [Op.report]
  · rw [LedgerHandler.recordMessageEvent, if_neg (by simp [hk, hid, htype])] at handled
    obtain ⟨c, found, u, later, hr, done, rfl⟩ := executes_call.mp handled
    have ended : later = [] ∧ u = t := by
      cases found <;> obtain ⟨rfl, -, rfl⟩ := executes_pure.mp done <;> exact ⟨rfl, rfl⟩
    obtain ⟨rfl, rfl⟩ := ended
    refine ⟨by simp [Op.report], ?_⟩
    rcases Server.write_eq_some.mp hr with ⟨rfl, -, rfl⟩ | ⟨rfl, -, rfl⟩ | ⟨rfl, -, rfl⟩
    · exact .inl ⟨⟨.ok, nofun, by simp⟩, rfl⟩
    · exact .inr ⟨by simp, rfl⟩
    · exact .inl ⟨⟨.failApplied, nofun, by simp⟩, rfl⟩

/-- Recording an event and then reporting the change it is for. -/
theorem Reports.record {ch id type : String} {ct : Bytes} (text : Option String)
    {f : Except Status Unit → Handled} (hch : ch ≠ "") (hid : id ≠ "") (htype : type ≠ "")
    (bytes : ∀ x, text = some x → ct = (Base64.decodeString x).1)
    (hf : ∀ answer, (f answer).All (Op.reporting ch id type text)) :
    Reports S conn ((LedgerClient.recordMessageEvent (getConversationID conn.userID ch) id type
      conn.userID ct).bind f) := by
  rintro s trace res t rep run ⟨x, hx, reported⟩
  obtain ⟨first, answer, u, later, record, after, rfl⟩ := executes_bind.mp run
  have reporting := after.all (hf answer)
  cases executes_silent after ((hf answer).mono fun _ h => h.1)
  obtain ⟨quiet, written⟩ :=
    executes_recordMessageEvent (getConversationID_ne_empty hch) hid htype record
  have there : x ∈ later := (List.mem_append.mp hx).resolve_left fun early => by
    rw [quiet x early] at reported
    cases reported
  obtain ⟨rfl, rfl, rfl, pushed⟩ := (reporting x there).2 rep reported
  refine ⟨ct, fun y hy => bytes y (pushed y hy), ?_⟩
  have absent (op : Op) (c : Choice) (loud : ¬ op.silent) : (op, c) ∉ later :=
    fun mem => loud (reporting _ mem).1
  rcases written with ⟨⟨c, applied, mem⟩, db⟩ | ⟨failed, db⟩
  · exact .inl ⟨⟨ct, c, applied, List.mem_append_left _ mem⟩, db⟩
  · refine .inr ⟨?_, db⟩
    rintro ⟨ct', c, applied, mem⟩
    refine applied (failed ct' c ((List.mem_append.mp mem).resolve_right (absent _ _ id)))

/-! ## The handlers -/

theorem sendError_quiet (code msg : String) : (sendError conn code msg).All Op.quiet :=
  ⟨⟨trivial, rfl⟩, fun _ => trivial⟩

theorem getMessageAuthor_quiet (k id : String) :
    (LedgerClient.getMessageAuthor k id).All Op.quiet := by
  refine all_rpc ⟨trivial, rfl⟩ ⟨trivial, rfl⟩ ?_
  unfold LedgerHandler.getMessageAuthor
  split
  · trivial
  · refine ⟨⟨trivial, rfl⟩, fun found => ?_⟩
    cases found with
    | error err => trivial
    | ok author =>
      dsimp only [Prog.pure_bind]
      split <;> trivial

/-- What follows the event: the push, and the acknowledgement that the requester gets. -/
theorem relay_reporting {ch id type : String} {text : Option String} {push : Frame}
    (reports : ∀ rep, push.report = some rep → rep.channelID = ch ∧ rep.messageID = id ∧
      rep.eventType = type ∧ ∀ pushed, rep.pushed = some pushed → text = some pushed) :
    (r.relayAndEcho conn ch push).All (Op.reporting ch id type text) :=
  relayAndEcho_all (fun _ => ⟨trivial, nofun⟩) (fun _ => ⟨trivial, reports⟩)
    (fun _ => ⟨trivial, reports⟩) ch

theorem handleEditMessage_reports (data : Json) :
    Reports S conn (r.handleEditMessage conn data) := by
  have refuse (code msg : String) : Reports S conn (sendError conn code msg) :=
    .of_quiet (sendError_quiet code msg)
  unfold handleEditMessage
  split
  · exact refuse _ _
  rename_i frame _
  dsimp only
  split
  · exact refuse _ _
  rename_i given
  simp only [not_or] at given
  split
  · exact refuse _ _
  refine .bind (getMessageAuthor_quiet _ _) fun author => ?_
  cases author with
  | error err => exact refuse _ _
  | ok authorID =>
    dsimp only
    split
    · exact refuse _ _
    split
    · exact refuse _ _
    refine .record (some frame.ciphertextB64) given.1 given.2.1 (by decide) ?_ ?_
    · rintro _ ⟨⟩
      rfl
    · refine fun _ => ⟨⟨trivial, nofun⟩, fun time => ?_⟩
      refine (relay_reporting ?_).bind fun _ => ⟨⟨trivial, ?_⟩, fun _ => trivial⟩
      · rintro _ ⟨⟩
        exact ⟨rfl, rfl, rfl, fun _ => id⟩
      · rintro _ ⟨⟩
        exact ⟨rfl, rfl, rfl, nofun⟩

theorem handleDeleteMessage_reports (data : Json) :
    Reports S conn (r.handleDeleteMessage conn data) := by
  have refuse (code msg : String) : Reports S conn (sendError conn code msg) :=
    .of_quiet (sendError_quiet code msg)
  unfold handleDeleteMessage
  split
  · exact refuse _ _
  rename_i frame _
  dsimp only
  split
  · exact refuse _ _
  rename_i given
  simp only [not_or] at given
  split
  · rename_i everyone
    split
    · exact refuse _ _
    refine .bind (getMessageAuthor_quiet _ _) fun author => ?_
    cases author with
    | error err => exact refuse _ _
    | ok authorID =>
      dsimp only
      split
      · exact refuse _ _
      split
      · exact refuse _ _
      unfold deleteForEveryone
      simp only [Prog.monad_bind, Prog.bind_assoc]
      refine .record none given.1 given.2 (by decide) nofun fun _ => ?_
      refine ⟨⟨trivial, nofun⟩, fun time => ?_⟩
      refine (relay_reporting ?_).bind fun _ => ⟨⟨trivial, ?_⟩, fun _ => trivial⟩
      · rintro _ ⟨⟩
        exact ⟨rfl, rfl, rfl, nofun⟩
      · rintro _ reported
        rw [Op.report, Frame.report, if_pos everyone] at reported
        cases reported
        exact ⟨rfl, rfl, rfl, nofun⟩
  · rename_i mine
    refine .of_quiet ⟨⟨trivial, ?_⟩, fun _ => trivial⟩
    rw [Op.report, Frame.report, if_neg mine]

theorem handlePinMessage_reports (data : Json) :
    Reports S conn (r.handlePinMessage conn data) := by
  have refuse (code msg : String) : Reports S conn (sendError conn code msg) :=
    .of_quiet (sendError_quiet code msg)
  unfold handlePinMessage
  split
  · exact refuse _ _
  rename_i frame _
  dsimp only
  split
  · exact refuse _ _
  rename_i given
  simp only [not_or] at given
  have verified : Reports S conn
      (r.pinVerified conn frame (orElse frame.messageID frame.clientMsgID)) := by
    unfold pinVerified
    split
    · exact refuse _ _
    refine .bind (getMessageAuthor_quiet _ _) fun author => ?_
    cases author with
    | error err => exact refuse _ _
    | ok authorID =>
      dsimp only
      split
      · exact refuse _ _
      have operation : PinMessageInboundFrame.operation frame ≠ "" := by
        unfold PinMessageInboundFrame.operation
        split <;> decide
      refine .record none given.1 given.2 operation nofun fun _ => ?_
      refine ⟨⟨trivial, nofun⟩, fun time => ?_⟩
      refine (relay_reporting ?_).bind fun _ => ⟨⟨trivial, ?_⟩, fun _ => trivial⟩
      · rintro _ ⟨⟩
        exact ⟨rfl, rfl, rfl, nofun⟩
      · rintro _ ⟨⟩
        exact ⟨rfl, rfl, rfl, nofun⟩
  split
  · refine .bind (p := getChannelMembers _) ⟨⟨trivial, rfl⟩, fun _ => trivial⟩ fun members => ?_
    cases members with
    | error err => exact refuse _ _
    | ok memberIDs =>
      dsimp only
      split
      · exact refuse _ _
      · exact verified
  · exact verified

/-! ## Agreement -/

/-- Where the event was written, the views agree if the pushed ciphertext is intact. -/
theorem Recounted.agrees_iff (outcome : Recounted conn s trace t rep)
    (edit : ∀ text, rep.pushed = some text → rep.eventType = "edited") :
    rep.Agrees conn t.db ↔ rep.Recorded conn trace ∧ rep.Intact conn s.db ∨
      ¬ rep.Recorded conn trace ∧ rep.Agrees conn s.db := by
  obtain ⟨ct, bytes, ⟨recorded, db⟩ | ⟨lost, db⟩⟩ := outcome
  · have row : t.db.events.lookup (rep.key conn) = some ⟨conn.userID, ct, s.clock⟩ := by
      rw [db, Store.insertEvent, AList.lookup_insert]
    have names (m : LedgerMessage) : rep.names conn t.db m ↔ rep.names conn s.db m := by
      rw [db]
      rfl
    simp only [recorded, true_and, not_true_eq_false, false_and, or_false]
    rw [Report.Agrees, Report.Intact]
    simp only [row, Option.some.injEq, exists_eq_left', true_and, names]
    refine forall_congr' fun text => forall_congr' fun pushed => ?_
    obtain rfl := bytes text pushed
    refine and_congr (by simp [Prod.ext_iff]) (forall_congr' fun m => forall_congr' fun named => ?_)
    obtain ⟨-, -, -, -, id⟩ := named
    rw [Report.key, edit text pushed] at row
    rw [overlay_shows]
    refine Iff.trans (shownEdit_eq_some (c := ⟨conn.userID, _, s.clock⟩) id row) ?_
    refine and_congr_right fun _ => or_congr_right' fun other => ?_
    have old : t.db.events.lookup ⟨getConversationID conn.userID rep.channelID, m.messageID,
        "edited"⟩ = s.db.events.lookup ⟨getConversationID conn.userID rep.channelID, m.messageID,
        "edited"⟩ := by
      rw [db, Store.insertEvent, Report.key, edit text pushed, AList.lookup_insert_ne]
      exact fun same => other (congrArg EventKey.messageID same).symm
    rw [old]
  · simp [lost, db]

/-- Alice wrote to Bob. -/
def sampleStored : Server :=
  let db := Store.empty.insertAuthor sampleClock "dm:alice:bob" "c1" "alice"
  { Server.empty sampleClock with db := db.insertRow sampleClock sampleRow }

def editData (text : String) : Json :=
  .object [("action", .string "edit_message"), ("channel_id", .string "bob"),
    ("message_id", .string "c1"), ("ciphertext_base64", .string text)]

/-- She edits it; the call that records the edit goes through or is lost. -/
def editTrace (text : String) (recorded : Bool) : List (Op × Choice) := List.flatten [
  [(.rpcRequest .getMessageAuthor, .answer true), (.selectAuthor "dm:alice:bob" "c1", .ok),
    (.rpcReply .getMessageAuthor, .answer true), (.rpcRequest .recordMessageEvent,
      .answer recorded)],
  if recorded then [(.insertEvent "dm:alice:bob" "c1" "edited" "alice"
      (Base64.decodeString text).1, .ok), (.rpcReply .recordMessageEvent, .answer true)] else [],
  [(.now, .ok), (.sendToUser "bob" (.messageEdited "bob" "c1" "alice" text 1714550400), .ok),
    (.sendToUser "alice" (.messageEdited "bob" "c1" "alice" text 1714550400), .ok),
    (.sendToUser "alice" (.ackEdit "c1" "bob" 1714550400), .ok)]]

def sampleRecorded (text : String) : Server :=
  { sampleStored with
    db := sampleStored.db.insertEvent ⟨"dm:alice:bob", "c1", "edited"⟩
      ⟨"alice", (Base64.decodeString text).1, sampleClock⟩ }

def sampleReport (text : String) : Report := ⟨"bob", "c1", "edited", some text⟩

theorem intact_executes : Executes (system samplePlatform)
    (sampleRouter.dispatch samplePlatform ⟨"alice", .json⟩ "edit_message" (editData "BwcH"))
    sampleStored (editTrace "BwcH" true) (.ok ()) (sampleRecorded "BwcH") :=
  Executes.of_play ((editTrace "BwcH" true).map Prod.snd) (by rfl)

theorem malformed_executes : Executes (system samplePlatform)
    (sampleRouter.dispatch samplePlatform ⟨"alice", .json⟩ "edit_message" (editData "BwcH!"))
    sampleStored (editTrace "BwcH!" true) (.ok ()) (sampleRecorded "BwcH!") :=
  Executes.of_play ((editTrace "BwcH!" true).map Prod.snd) (by rfl)

theorem lost_executes : Executes (system samplePlatform)
    (sampleRouter.dispatch samplePlatform ⟨"alice", .json⟩ "edit_message" (editData "BwcH"))
    sampleStored (editTrace "BwcH" false) (.ok ()) sampleStored :=
  Executes.of_play ((editTrace "BwcH" false).map Prod.snd) (by rfl)

theorem sample_intact : (sampleReport "BwcH").Intact ⟨"alice", .json⟩ sampleStored.db := by
  rintro _ ⟨⟩
  refine ⟨by decide, fun m _ => ⟨by decide, .inr fun row hrow => ?_⟩⟩
  cases hrow

end GenChat.Gateway
