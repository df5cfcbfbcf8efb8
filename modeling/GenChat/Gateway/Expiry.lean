import GenChat.Gateway.Overlay
import GenChat.Gateway.DirectIsolation
import GenChat.Ledger.Partition

/-!
# Disappearing messages

A TTL is given to the row of a message when it is inserted. Edits are kept in `message_events`,
which has no TTL, so a message disappears in time exactly if its last edit under each of its ids,
if there is one, brought no ciphertext. The other tables hold no ciphertext.
-/
namespace GenChat.Gateway
open Library Ledger Router

/-! ## What a run wrote -/

/-- The store accepts the write and the choice applies it. -/
def Op.takesEffect : Op → Choice → Bool
  | .insertRow row, c => c ≠ .fail && Server.acceptsRow row
  | .insertDedup _ _ _ _ ttlSec, c => c ≠ .fail && Server.acceptsTTL ttlSec
  | _, c => c ≠ .fail

section Performed
variable {S : Platform} {r : Router}

/-- The operation that a step performs, and when. -/
def performed (p : Pool (gateway S r)) : PoolLabel (gateway S r) → List (Op × Nat)
  | .run i c => (((p.next i).map Prod.snd).filter fun op => op.takesEffect c).toList.map
      fun op => (op, p.shared.clock)
  | _ => []

theorem exec_takesEffect {s s' : Server} {op : Op} {c : Choice} {x : Ret op}
    (h : s.exec S op c = some (x, s')) :
    s'.db = if op.takesEffect c then op.effect s.clock s.db else s.db := by
  by_cases silent : op.silent
  · rw [Server.exec_silent silent h]
    cases op <;> first | exact silent.elim | exact (ite_self _).symm
  · cases op with
    | recordAuthor | updateDelivered | updateRead | insertEvent =>
      rcases Server.write_eq_some.mp h with ⟨rfl, -, rfl⟩ | ⟨rfl, -, rfl⟩ | ⟨rfl, -, rfl⟩ <;> rfl
    | insertRow row =>
      simp only [Server.exec] at h
      split at h
      · rename_i accepted
        rcases Server.write_eq_some.mp h with ⟨rfl, -, rfl⟩ | ⟨rfl, -, rfl⟩ | ⟨rfl, -, rfl⟩ <;>
          simp [Op.takesEffect, accepted, Op.effect]
      · rename_i refused
        cases h
        simp [Op.takesEffect, refused]
    | insertDedup k clientMsgID mid n ttlSec =>
      simp only [Server.exec] at h
      split at h
      · rename_i accepted
        rcases Server.write_eq_some.mp h with ⟨rfl, -, rfl⟩ | ⟨rfl, -, rfl⟩ | ⟨rfl, -, rfl⟩ <;>
          simp [Op.takesEffect, accepted, Op.effect]
      · rename_i refused
        cases h
        simp [Op.takesEffect, refused]
    | incrSeq k => cases c <;> cases h <;> rfl
    | newUUID draft =>
      obtain ⟨-, rfl⟩ := Server.newUUID_cases h
      exact (ite_self _).symm
    | _ => exact absurd trivial silent

/-- The edits, deletions and pins among the operations. -/
def recordings (ws : List (Op × Nat)) : List Recording :=
  ws.filterMap fun w => w.1.recording w.2

/-- The rows among the operations, each with the time at which it was stored. -/
def insertions (ws : List (Op × Nat)) : List (StoredMessage × Nat) :=
  ws.filterMap fun w => match w.1 with
    | .insertRow m => some (m, w.2)
    | _ => none

theorem mem_insertions {ws : List (Op × Nat)} {m : StoredMessage} {t : Nat} :
    (m, t) ∈ insertions ws ↔ (.insertRow m, t) ∈ ws := by
  rw [insertions, List.mem_filterMap]
  constructor
  · rintro ⟨⟨op, t⟩, mem, same⟩
    cases op <;> cases same
    exact mem
  · exact fun mem => ⟨_, mem, rfl⟩

theorem recorded_of_performed {p : Pool (gateway S r)} {ws : List (Op × Nat)}
    (run : (Pool.machine (gateway S r)).Emits performed p ws) :
    (Pool.machine (gateway S r)).Emits recorded p (recordings ws) := by
  refine run.filterMap _ fun p l q step => ?_
  cases l with
  | spawn | env => rfl
  | run i c =>
    obtain ⟨tag, op, rest, x, s, thread, -, -⟩ := Pool.run_cases step
    rw [performed, recorded, Pool.next_call thread]
    -- Only an event is recorded, and it takes effect unless its write fails.
    have effective : op.recording p.shared.clock = none ∨
        op.takesEffect c = (c ≠ .fail : Bool) := by
      cases op <;> first | exact .inl rfl | exact .inr rfl
    rcases effective with silent | effective
    · simp only [Option.map_some, Option.bind_some, silent, Option.toList_none, ite_self]
      cases op.takesEffect c <;> simp [Option.filter, silent]
    · simp only [Option.map_some, Option.bind_some, Option.filter_some, effective]
      by_cases failed : c = .fail
      · simp [failed]
      · cases event : op.recording p.shared.clock <;> simp [failed, event]

/-- Rows stand under their keys with the TTL of an insert. -/
theorem rows_performed {p : Pool (gateway S r)} {ws : List (Op × Nat)}
    (run : (Pool.machine (gateway S r)).Emits performed p ws) {key : MessageKey}
    {cell : Cell StoredMessage} (found : p.shared.db.messages.lookup key = some cell) :
    ∃ t, (.insertRow cell.row, t) ∈ ws ∧ cell.expiresAt = expiry t cell.row.ephemeralTTLSec := by
  refine run.invariant (I := fun p ws => ∀ key cell, p.shared.db.messages.lookup key = some cell →
    ∃ t, (.insertRow cell.row, t) ∈ ws ∧
      cell.expiresAt = expiry t cell.row.ephemeralTTLSec) ?_ ?_ key cell found
  · rintro _ ⟨s, ⟨clock, rfl⟩, rfl⟩
    exact nofun
  · intro p l q ws ih step key cell found
    have old (found : p.shared.db.messages.lookup key = some cell) :
        ∃ t, (.insertRow cell.row, t) ∈ ws ++ performed p l ∧
          cell.expiresAt = expiry t cell.row.ephemeralTTLSec := by
      obtain ⟨t, mem, expires⟩ := ih key cell found
      exact ⟨t, List.mem_append_left _ mem, expires⟩
    cases l with
    | spawn tag =>
      cases step
      exact old found
    | env e =>
      obtain ⟨s, hs, rfl⟩ := Pool.env_cases step
      exact old (by simpa [Server.change_db hs] using found)
    | run i c =>
      obtain ⟨tag, op, rest, x, s, thread, hr, rfl⟩ := Pool.run_cases step
      have written := exec_takesEffect hr
      by_cases effective : op.takesEffect c
      · rw [if_pos effective] at written
        simp only [written] at found
        cases op with
        | insertRow row =>
          refine (lookup_insert_cases found).elim old ?_
          rintro ⟨-, rfl⟩
          exact ⟨p.shared.clock, by simp [performed, Pool.next_call thread, effective], rfl⟩
        | _ => exact old found
      · rw [if_neg effective] at written
        exact old (by simpa only [written] using found)

/-- The id of an inserted row is taken for good. -/
theorem issued_performed {p : Pool (gateway S r)} {ws : List (Op × Nat)}
    (run : (Pool.machine (gateway S r)).Emits performed p ws) {m : StoredMessage} {t : Nat}
    (stored : (.insertRow m, t) ∈ ws) : p.shared.issued.lookup m.messageID.text = some m := by
  induction run with
  | start => cases stored
  | @step p q l ws run step ih =>
    have reached := run.reachable
    cases l with
    | spawn tag =>
      cases step
      exact ih (by simpa [performed] using stored)
    | env e =>
      obtain ⟨s, hs, rfl⟩ := Pool.env_cases step
      rw [Server.change_issued hs]
      exact ih (by simpa [performed] using stored)
    | run i c =>
      obtain ⟨tag, op, rest, x, s, thread, hr, rfl⟩ := Pool.run_cases step
      refine Server.exec_issued hr ?_
      rcases List.mem_append.mp stored with old | new
      · exact ih old
      · have same : op = .insertRow m := by
          simp only [performed, Pool.next_call thread, Option.map_some, List.mem_map,
            Option.mem_toList, Option.filter_eq_some_iff, Prod.mk.injEq] at new
          obtain ⟨_, ⟨issues, -⟩, rfl, -⟩ := new
          cases issues
          rfl
        subst same
        exact Pool.safe_next (shownProtocol S r fun _ _ => True) reached thread

end Performed

/-! ## Disappearing -/

section Disappearing
variable (S : Platform) (r : Router) (s : Server) (m : StoredMessage)

/-- An edit with a ciphertext that is recorded for the message. -/
def EditOf (e : MessageEvent) : Prop :=
  e.conversationID = m.conversationID ∧ e.messageID ∈ [m.messageID.text, m.clientMsgID] ∧
    e.eventType = "edited" ∧ e.newCiphertext ≠ []

/-- What a response shows: the row of another message, under the edit of another message if it is
marked as edited. -/
def Unshown (dto : HistoryMessageDTO) : Prop :=
  dto.serverID ≠ m.messageID.text ∧ (dto.isEdited = true → ∃ e ∈ s.db.eventRows,
    dto.ciphertextB64 = Base64.encodeToString e.newCiphertext ∧ ¬ EditOf m e)

/-- No table holds the message or an edited version of it, and no response to `fetch_history`
shows one. -/
structure Disappeared : Prop where
  rows : ∀ key cell, s.db.messages.lookup key = some cell → cell.row.messageID = m.messageID →
    cell.live s.clock = false
  edits : ∀ e ∈ s.db.eventRows, ¬ EditOf m e
  history : ∀ conn data frame trace res t ch messages c,
    FetchHistoryFrame.unmarshal data = some frame →
    Executes (system S) (r.handleFetchHistory S conn data) s trace res t →
    (.sendToUser conn.userID (.history ch messages), c) ∈ trace →
    ∀ dto ∈ messages, Unshown s m dto

/-- The message was stored with a TTL, and the TTL has run out since. -/
structure Elapsed (ws : List (Op × Nat)) : Prop where
  stored : ∃ t, (m, t) ∈ insertions ws
  ephemeral : 0 < m.ephemeralTTLSec
  elapsed : ∀ t, (m, t) ∈ insertions ws → t + m.ephemeralTTLSec.toNat * second ≤ s.clock

end Disappearing

variable {S : Platform} {r : Router} {s : Server} {m : StoredMessage}

theorem eventRows_lookup {e : MessageEvent} : e ∈ s.db.eventRows ↔ ∃ c,
    s.db.events.lookup ⟨e.conversationID, e.messageID, e.eventType⟩ = some c ∧
      e = c.event ⟨e.conversationID, e.messageID, e.eventType⟩ := by
  constructor
  · intro mem
    obtain ⟨⟨key, c⟩, entry, rfl⟩ := List.mem_map.mp mem
    exact ⟨c, AList.mem_lookup_iff.mpr entry, rfl⟩
  · rintro ⟨c, found, same⟩
    exact List.mem_map.mpr ⟨⟨_, c⟩, AList.mem_lookup_iff.mp found, same.symm⟩

/-- Edits are left exactly if one under an id of the message has a ciphertext. -/
theorem edits_gone_iff : (∀ e ∈ s.db.eventRows, ¬ EditOf m e) ↔
    ∀ id ∈ [m.messageID.text, m.clientMsgID], ∀ c,
      s.db.events.lookup ⟨m.conversationID, id, "edited"⟩ = some c → c.newCiphertext = [] := by
  constructor
  · intro gone id hid c found
    by_contra ciphertext
    exact gone (c.event ⟨m.conversationID, id, "edited"⟩) (eventRows_lookup.mpr ⟨c, found, rfl⟩)
      ⟨rfl, hid, rfl, ciphertext⟩
  · rintro blank e mem ⟨conversation, hid, edited, ciphertext⟩
    obtain ⟨c, found, same⟩ := eventRows_lookup.mp mem
    rw [conversation, edited] at found
    rw [same] at ciphertext
    exact ciphertext (blank _ hid c found)

theorem editOf_mem {events : List MessageEvent} {row : LedgerMessage} {e : MessageEvent}
    (h : editOf events row = some e) : e ∈ events := by
  have found {id : String} (h : findEvent events id "edited" = some e) : e ∈ events :=
    List.mem_reverse.mp (List.mem_of_find?_eq_some h)
  unfold editOf at h
  split at h
  · rename_i server
    cases h
    exact found (Option.filter_eq_some_iff.mp server).1
  · exact found (Option.filter_eq_some_iff.mp h).1

/-- Where no table holds the message, responses show others. -/
theorem history_gone (recorded : s.Recorded) (issued : s.issued.lookup m.messageID.text = some m)
    (rows : ∀ key cell, s.db.messages.lookup key = some cell → cell.row.messageID = m.messageID →
      cell.live s.clock = false)
    (edits : ∀ e ∈ s.db.eventRows, ¬ EditOf m e) {conn : Conn} {data : Json}
    {frame : FetchHistoryFrame} {trace : List (Op × Choice)} {res : Except RelayError Unit}
    {t : Server} {ch : String} {messages : List HistoryMessageDTO} {c : Choice}
    (parsed : FetchHistoryFrame.unmarshal data = some frame)
    (run : Executes (system S) (r.handleFetchHistory S conn data) s trace res t)
    (sent : (.sendToUser conn.userID (.history ch messages), c) ∈ trace) :
    ∀ dto ∈ messages, Unshown s m dto := by
  obtain ⟨events, rfl, arrived⟩ := executes_handleFetchHistory parsed run sent
  intro dto mem
  obtain ⟨row, shown, rfl⟩ := List.mem_map.mp mem
  refine ⟨fun same => ?_, fun edited => ?_⟩
  · rw [overlay_serverID] at same
    obtain ⟨stored, selected, rfl⟩ := List.mem_map.mp shown
    rw [Store.selectMessages_eq] at selected
    obtain ⟨cell, page, rfl⟩ := List.mem_map.mp selected
    obtain ⟨⟨here, -, live⟩, -⟩ := Store.mem_page page
    obtain ⟨key, found⟩ := Store.mem_rows.mp here
    have id : cell.row.messageID.text = m.messageID.text := same
    have known := (recorded key cell found).2
    rw [id, issued] at known
    cases known
    exact absurd live (by simp [rows key cell found rfl])
  · rw [overlay_isEdited] at edited
    obtain ⟨e, found⟩ := Option.isSome_iff_exists.mp edited
    have here : e ∈ s.db.eventRows := by
      rcases arrived with ⟨-, rfl⟩ | ⟨-, rfl⟩
      · exact (List.mem_filter.mp (editOf_mem found)).1
      · cases editOf_mem found
    exact ⟨e, here, by rw [overlay_ciphertextB64, found], edits e here⟩

/-- Once its TTL has run out, a message has disappeared exactly if the last edit under each of its
ids brought no ciphertext. -/
theorem messages_disappear {p : Pool (gateway S r)} {ws : List (Op × Nat)}
    (run : (Pool.machine (gateway S r)).Emits performed p ws) (elapsed : Elapsed p.shared m ws) :
    Disappeared S r p.shared m ↔ ∀ id ∈ [m.messageID.text, m.clientMsgID], ∀ c,
      lastUnder ⟨m.conversationID, id, "edited"⟩ (recordings ws) = some c →
        c.newCiphertext = [] := by
  have last (id : String) : lastUnder ⟨m.conversationID, id, "edited"⟩ (recordings ws) =
      p.shared.db.events.lookup ⟨m.conversationID, id, "edited"⟩ :=
    (events_lookup (recorded_of_performed run) _).symm
  simp only [last]
  rw [← edits_gone_iff]
  constructor
  · exact Disappeared.edits
  · intro edits
    have recorded : p.shared.Recorded :=
      (Pool.safe (shownProtocol S r fun _ _ => True) run.reachable).1
    obtain ⟨t, stored⟩ := elapsed.stored
    have issued := issued_performed run (mem_insertions.mp stored)
    have rows (key : MessageKey) (cell : Cell StoredMessage)
        (found : p.shared.db.messages.lookup key = some cell)
        (same : cell.row.messageID = m.messageID) : cell.live p.shared.clock = false := by
      have known := (recorded key cell found).2
      rw [same, issued] at known
      obtain ⟨t, stored, expires⟩ := rows_performed run found
      rw [← Option.some.inj known] at stored expires
      rw [expiry, if_pos elapsed.ephemeral] at expires
      simpa [Cell.live, expires] using elapsed.elapsed t (mem_insertions.mpr stored)
    exact ⟨rows, edits, fun _ _ _ _ _ _ _ _ _ => history_gone recorded issued rows edits⟩

/-! ## Samples -/

/-- `send_message` to Bob with a TTL of a minute. -/
def secretFrame : Bytes :=
  ("\x7b\"action\":\"send_message\",\"channel_id\":\"bob\",\"client_msg_id\":\"c1\"," ++
    "\"ciphertext_base64\":\"AQID\",\"ephemeral_ttl_sec\":60\x7d").toUTF8.data.toList

/-- Alice sends it and does something to the message, then a minute passes. -/
def secretLabels (fields : String) : List (PoolLabel (gateway samplePlatform sampleRouter)) :=
  .spawn ⟨⟨"alice", .json⟩, secretFrame⟩ :: helloLabels.tail ++ operationLabels 1 fields ++
    [.env (.tick (60 * second))]

def secretRow : StoredMessage := { sampleRow with ephemeralTTLSec := 60 }

/-- What such a run performs. -/
def secret (fields : String) :
    Option (Pool (gateway samplePlatform sampleRouter) × List (Op × Nat)) :=
  gatewayRuns.collect performed (Pool.start _ (Server.empty sampleClock)) (secretLabels fields)

set_option maxRecDepth 20000

theorem secret_isSome : (secret (samplePin "c1" "pin")).isSome = true ∧
    (secret (sampleEdit "c1" "BwcH")).isSome = true := by
  decide

theorem pinned_isSome : (secret (samplePin "c1" "pin")).isSome := secret_isSome.1

theorem edited_isSome : (secret (sampleEdit "c1" "BwcH")).isSome := secret_isSome.2

def pinnedSecret : Pool (gateway samplePlatform sampleRouter) × List (Op × Nat) :=
  (secret (samplePin "c1" "pin")).get pinned_isSome

def editedSecret : Pool (gateway samplePlatform sampleRouter) × List (Op × Nat) :=
  (secret (sampleEdit "c1" "BwcH")).get edited_isSome

theorem secret_emits {fields : String}
    {run : Pool (gateway samplePlatform sampleRouter) × List (Op × Nat)}
    (h : secret fields = some run) : gatewayRuns.Emits performed run.1 run.2 := by
  have start : gatewayRuns.Emits performed
      (Pool.start (gateway samplePlatform sampleRouter) (Server.empty sampleClock)) [] :=
    .start ⟨_, ⟨sampleClock, rfl⟩, rfl⟩
  exact start.collect h

theorem secret_elapsed {run : Pool (gateway samplePlatform sampleRouter) × List (Op × Nat)}
    (stored : insertions run.2 = [(secretRow, sampleClock)])
    (clock : run.1.shared.clock = sampleClock + 60 * second) :
    Elapsed run.1.shared secretRow run.2 where
  stored := ⟨sampleClock, by simp [stored]⟩
  ephemeral := by decide
  elapsed t mem := by
    rw [stored] at mem
    cases List.mem_singleton.mp mem
    exact clock.ge

theorem pinnedSecret_emits : gatewayRuns.Emits performed pinnedSecret.1 pinnedSecret.2 :=
  secret_emits (Option.some_get pinned_isSome).symm

theorem editedSecret_emits : gatewayRuns.Emits performed editedSecret.1 editedSecret.2 :=
  secret_emits (Option.some_get edited_isSome).symm

/-- A message that was only pinned is gone after a minute. -/
theorem messages_disappear_sample :
    Disappeared samplePlatform sampleRouter pinnedSecret.1.shared secretRow := by
  have elapsed : Elapsed pinnedSecret.1.shared secretRow pinnedSecret.2 :=
    secret_elapsed (by rfl) (by rfl)
  refine (messages_disappear pinnedSecret_emits elapsed).mpr ?_
  have unedited : ∀ id ∈ [secretRow.messageID.text, secretRow.clientMsgID],
      lastUnder ⟨"dm:alice:bob", id, "edited"⟩ (recordings pinnedSecret.2) = none := by
    decide
  intro id hid c last
  cases (unedited id hid).symm.trans last

/-- One that was edited is not: the edited version stays in `message_events`. -/
theorem edited_message_stays :
    gatewayRuns.Emits performed editedSecret.1 editedSecret.2 ∧
    Elapsed editedSecret.1.shared secretRow editedSecret.2 ∧
    editedSecret.1.shared.db.events.lookup ⟨"dm:alice:bob", "c1", "edited"⟩ =
      some ⟨"alice", [7, 7, 7], sampleClock⟩ ∧
    ¬ Disappeared samplePlatform sampleRouter editedSecret.1.shared secretRow := by
  have kept : editedSecret.1.shared.db.events.lookup ⟨"dm:alice:bob", "c1", "edited"⟩ =
      some ⟨"alice", [7, 7, 7], sampleClock⟩ := by rfl
  refine ⟨editedSecret_emits, secret_elapsed (by rfl) (by rfl), kept,
    fun gone => ?_⟩
  have blank := edits_gone_iff.mp gone.edits "c1" (by decide) _ kept
  cases blank

end GenChat.Gateway
