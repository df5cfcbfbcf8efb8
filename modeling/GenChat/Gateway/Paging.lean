import GenChat.Gateway.History
import GenChat.Ledger.Partition

/-!
# Paging through the history

A client asks for pages with the oldest message it has as its cursor, until a page is empty. The
cursor goes through one partition in order. `handleFetchHistory` asks for the partition of the month
in which it runs, so a client that pages within a month gets the messages of that month, each once,
and no other.
-/
namespace GenChat.Gateway
open Library Ledger

/-- A server that is asked for a page, and the page it sends. -/
abbrev Visit := Server × List HistoryMessageDTO

section Paging
variable (S : Platform) (r : Router) (conn : Conn) (channelID : String) (limit : Int)

/-- Asked for the messages before `cursor`, the server sends the page. -/
def Serves (cursor : String) (visit : Visit) : Prop :=
  ∃ data frame trace res t ch c, FetchHistoryFrame.unmarshal data = some frame ∧
    frame.channelID = channelID ∧ frame.limit = limit ∧ frame.beforeServerID = cursor ∧
    Executes (system S) (r.handleFetchHistory S conn data) visit.1 trace res t ∧
    (.sendToUser conn.userID (.history ch visit.2), c) ∈ trace

/-- The client asks on with the oldest message of a page until a page is empty. -/
inductive Paging : String → List Visit → Prop where
  | last {cursor : String} {visit : Visit} (answers : Serves S r conn channelID limit cursor visit)
      (empty : visit.2 = []) : Paging cursor [visit]
  | next {cursor : String} {visit : Visit} {oldest : HistoryMessageDTO} {visits : List Visit}
      (answers : Serves S r conn channelID limit cursor visit)
      (found : visit.2.getLast? = some oldest) (rest : Paging oldest.serverID visits) :
      Paging cursor (visit :: visits)

end Paging

/-- The ids of the messages on the pages. -/
def received (visits : List Visit) : List String :=
  visits.flatMap fun visit => visit.2.map HistoryMessageDTO.serverID

/-- The row is there, unexpired, whenever a page is asked for. -/
def Lasting (k : String) (visits : List Visit) (c : Cell StoredMessage) : Prop :=
  ∀ visit ∈ visits, visit.1.db.Unexpired visit.1.clock k c

/-- The client gets every message that lasts exactly once. -/
def ReceivedOnce (k : String) (visits : List Visit) : Prop :=
  ∀ c, Lasting k visits c → (received visits).count c.row.messageID.text = 1

/-- Messages with ids of their own, which `uuid.Parse` reads from their texts. -/
structure Stored (S : Platform) (db : Store) : Prop where
  distinct : db.Distinct
  parsed : ∀ c ∈ Store.rows db.messages, c.row.messageID.text ≠ "" ∧
    S.parseUUID c.row.messageID.text = some c.row.messageID

variable {S : Platform} {r : Router} {conn : Conn} {channelID cursor : String} {limit : Int}
  {visit : Visit} {visits : List Visit} {db : Store} {c : Cell StoredMessage}

/-- The store is not written while the client pages. -/
def Unwritten (db : Store) (visits : List Visit) : Prop :=
  ∀ visit ∈ visits, visit.1.db.messages = db.messages

theorem Stored.congr {db' : Store} (stored : Stored S db) (same : db'.messages = db.messages) :
    Stored S db' where
  distinct := ⟨by rw [same]; exact stored.distinct.eq, by rw [same]; exact stored.distinct.nodup⟩
  parsed := by rw [same]; exact stored.parsed

theorem Stored.text_inj (stored : Stored S db) {c' : Cell StoredMessage}
    (hc : c ∈ Store.rows db.messages) (hc' : c' ∈ Store.rows db.messages)
    (same : c.row.messageID.text = c'.row.messageID.text) : c = c' := by
  have parsed := (stored.parsed c hc).2
  rw [same, (stored.parsed c' hc').2] at parsed
  exact (stored.distinct.eq c hc c' hc' (Option.some.inj parsed).symm)

/-! ## One page -/

/-- What `uuid.Parse` makes of the cursor. -/
def cursorID (S : Platform) (cursor : String) : Option UUID :=
  if cursor ≠ "" then S.parseUUID cursor else none

/-- The rows behind the cursor that the server is asked for. -/
def rowsBefore (S : Platform) (k : String) (limit : Int) (cursor : String) (s : Server) :
    List (Cell StoredMessage) :=
  s.db.page s.clock k (S.formatBucket s.clock) limit (cursorID S cursor)

theorem Serves.ids (answers : Serves S r conn channelID limit cursor visit)
    (positive : 1 ≤ limit) : visit.2.map HistoryMessageDTO.serverID =
      (rowsBefore S (getConversationID conn.userID channelID) limit cursor visit.1).map
        fun c => c.row.messageID.text := by
  obtain ⟨data, frame, trace, res, t, ch, c, parsed, rfl, rfl, rfl, run, sent⟩ := answers
  obtain ⟨events, page, -⟩ := executes_handleFetchHistory parsed run sent
  have limit : ¬ frame.limit ≤ 0 := by omega
  simp only [page, historyRows, if_neg limit, Store.selectMessages_eq, List.map_map]
  refine List.map_congr_left fun c _ => ?_
  exact overlay_serverID events _

section Page
variable {k : String} {s : Server}

theorem rowsBefore_stored (hc : c ∈ rowsBefore S k limit cursor s) :
    c ∈ Store.rows s.db.messages := (Store.mem_page hc).1.1

/-- The oldest row of a page is the cursor for the next one. -/
theorem Serves.oldest (answers : Serves S r conn channelID limit cursor visit)
    (positive : 1 ≤ limit) (stored : Stored S visit.1.db) {oldest : HistoryMessageDTO}
    (found : visit.2.getLast? = some oldest) :
    ∃ last, (rowsBefore S (getConversationID conn.userID channelID) limit cursor visit.1).getLast? =
      some last ∧ cursorID S oldest.serverID = some last.row.messageID := by
  have ids := congrArg List.getLast? (answers.ids positive)
  rw [List.getLast?_map, List.getLast?_map, found] at ids
  obtain ⟨last, hlast, text⟩ := Option.map_eq_some_iff.mp ids.symm
  refine ⟨last, hlast, ?_⟩
  obtain ⟨nonempty, parsed⟩ := stored.parsed last (rowsBefore_stored (List.mem_of_getLast? hlast))
  rw [cursorID, ← text, if_pos nonempty, parsed]

/-- Texts stand on a page once. -/
theorem Serves.nodup (answers : Serves S r conn channelID limit cursor visit)
    (positive : 1 ≤ limit) (stored : Stored S visit.1.db) :
    (visit.2.map HistoryMessageDTO.serverID).Nodup := by
  rw [answers.ids positive]
  refine List.Nodup.map_on ?_ (Store.page_sorted stored.distinct).nodup
  intro c hc c' hc' same
  exact stored.text_inj (rowsBefore_stored hc) (rowsBefore_stored hc') same

/-- What is behind the oldest row of a page is behind its cursor, and not on the page. -/
theorem behind_last {last : Cell StoredMessage} (stored : Stored S s.db)
    (found : (rowsBefore S k limit cursor s).getLast? = some last)
    (older : Store.behind (some last.row.messageID) c) :
    Store.behind (cursorID S cursor) c ∧ c ∉ rowsBefore S k limit cursor s := by
  have newer : Cell.Newer last c := older _ rfl
  refine ⟨fun id cursor => ?_, fun mem => ?_⟩
  · exact UUID.before_trans newer ((Store.mem_page (List.mem_of_getLast? found)).2.2 id cursor)
  · obtain ⟨first, page⟩ := List.getLast?_eq_some_iff.mp found
    have sorted : (rowsBefore S k limit cursor s).Pairwise Cell.Newer :=
      Store.page_sorted stored.distinct
    rw [page] at sorted mem
    rcases List.mem_append.mp mem with early | same
    · have above := (List.pairwise_append.mp sorted).2.2 c early last (List.mem_singleton_self _)
      exact irrefl_of Cell.Newer c (trans_of Cell.Newer above newer)
    · rw [List.mem_singleton.mp same] at newer
      exact irrefl_of Cell.Newer last newer

end Page

/-! ## All pages -/

/-- A message on one of the pages is a stored row behind the cursor, of the month of its page. -/
theorem Paging.sound (paging : Paging S r conn channelID limit cursor visits)
    (positive : 1 ≤ limit) (stored : Stored S db) (unwritten : Unwritten db visits) :
    ∀ text ∈ received visits, ∃ c ∈ Store.rows db.messages, c.row.messageID.text = text ∧
      Store.behind (cursorID S cursor) c ∧
      ∃ visit ∈ visits, c.row.bucket = S.formatBucket visit.1.clock := by
  have here {cursor : String} {visit : Visit} {later : List Visit} {text : String}
      (answers : Serves S r conn channelID limit cursor visit)
      (same : visit.1.db.messages = db.messages)
      (mem : text ∈ visit.2.map HistoryMessageDTO.serverID) :
      ∃ c ∈ Store.rows db.messages, c.row.messageID.text = text ∧
        Store.behind (cursorID S cursor) c ∧
        ∃ v ∈ visit :: later, c.row.bucket = S.formatBucket v.1.clock := by
    rw [answers.ids positive] at mem
    obtain ⟨c, hc, rfl⟩ := List.mem_map.mp mem
    obtain ⟨unexpired, month, behind⟩ := Store.mem_page hc
    exact ⟨c, same ▸ unexpired.1, rfl, behind, visit, List.mem_cons_self, month⟩
  induction paging with
  | last answers empty =>
    rintro text mem
    refine here answers (unwritten _ List.mem_cons_self) ?_
    simpa [received] using mem
  | next answers found rest ih =>
    rintro text mem
    rw [received, List.flatMap_cons] at mem
    rcases List.mem_append.mp mem with page | later
    · exact here answers (unwritten _ List.mem_cons_self) page
    · have same := unwritten _ List.mem_cons_self
      obtain ⟨c, row, rfl, behind, v, hv, month⟩ :=
        ih (fun v hv => unwritten v (List.mem_cons_of_mem _ hv)) text later
      obtain ⟨last, hlast, next⟩ := answers.oldest positive (stored.congr same) found
      rw [next] at behind
      exact ⟨c, row, rfl, (behind_last (stored.congr same) hlast behind).1, v,
        List.mem_cons_of_mem _ hv, month⟩

theorem Paging.nodup (paging : Paging S r conn channelID limit cursor visits)
    (positive : 1 ≤ limit) (stored : Stored S db) (unwritten : Unwritten db visits) :
    (received visits).Nodup := by
  induction paging with
  | last answers empty =>
    simp [received, empty]
  | next answers found rest ih =>
    have same := unwritten _ List.mem_cons_self
    have later := fun v hv => unwritten v (List.mem_cons_of_mem _ hv)
    have stored' := stored.congr same
    rw [received, List.flatMap_cons]
    refine (answers.nodup positive stored').append (ih later) ?_
    rintro text page again
    -- What comes later is behind the oldest row of this page.
    obtain ⟨c, row, rfl, behind, -⟩ := rest.sound positive stored later text again
    obtain ⟨last, hlast, next⟩ := answers.oldest positive stored' found
    rw [next] at behind
    rw [answers.ids positive] at page
    obtain ⟨c', hc', text⟩ := List.mem_map.mp page
    have one : c' = c := stored.text_inj (same ▸ rowsBefore_stored hc') row text
    exact (behind_last stored' hlast behind).2 (one ▸ hc')

/-- A lasting message of the month of every request is on one of the pages. -/
theorem Paging.complete (paging : Paging S r conn channelID limit cursor visits)
    (positive : 1 ≤ limit) (stored : Stored S db) (unwritten : Unwritten db visits)
    (lasting : Lasting (getConversationID conn.userID channelID) visits c)
    (month : ∀ visit ∈ visits, c.row.bucket = S.formatBucket visit.1.clock)
    (behind : Store.behind (cursorID S cursor) c) :
    c.row.messageID.text ∈ received visits := by
  have step {cursor : String} {visit : Visit} {later : List Visit}
      (answers : Serves S r conn channelID limit cursor visit)
      (unwritten : Unwritten db (visit :: later))
      (lasting : Lasting (getConversationID conn.userID channelID) (visit :: later) c)
      (month : ∀ v ∈ visit :: later, c.row.bucket = S.formatBucket v.1.clock)
      (behind : Store.behind (cursorID S cursor) c)
      (absent : c.row.messageID.text ∉ visit.2.map HistoryMessageDTO.serverID) :
      ∃ last, (rowsBefore S (getConversationID conn.userID channelID) limit cursor
        visit.1).getLast? = some last ∧ Cell.Newer last c := by
    refine Store.older_of_not_mem_page (stored.congr (unwritten _ List.mem_cons_self)).distinct
      positive (lasting _ List.mem_cons_self) (month _ List.mem_cons_self) behind fun mem => ?_
    rw [answers.ids positive] at absent
    exact absent (List.mem_map_of_mem mem)
  induction paging with
  | last answers empty =>
    by_contra missed
    obtain ⟨last, hlast, -⟩ := step answers unwritten lasting month behind (by simp [empty])
    have ids := answers.ids positive
    rw [empty, List.map_nil, eq_comm, List.map_eq_nil_iff] at ids
    rw [ids] at hlast
    cases hlast
  | @next _ visit oldest later answers found rest ih =>
    rw [received, List.flatMap_cons, List.mem_append]
    by_cases page : c.row.messageID.text ∈ visit.2.map HistoryMessageDTO.serverID
    · exact .inl page
    · refine .inr (ih (fun v hv => unwritten v (List.mem_cons_of_mem _ hv))
        (fun v hv => lasting v (List.mem_cons_of_mem _ hv))
        (fun v hv => month v (List.mem_cons_of_mem _ hv)) ?_)
      obtain ⟨last, hlast, older⟩ := step answers unwritten lasting month behind page
      obtain ⟨last', hlast', next⟩ := answers.oldest positive
        (stored.congr (unwritten _ List.mem_cons_self)) found
      rw [hlast] at hlast'
      cases hlast'
      rw [next]
      rintro _ ⟨⟩
      exact older

/-- A client that pages from the start gets every lasting message once, if all of them are of the
month in which the pages are asked for. Within one month that is also necessary. -/
theorem history_received_once (paging : Paging S r conn channelID limit "" visits)
    (positive : 1 ≤ limit) (stored : Stored S db) (unwritten : Unwritten db visits) :
    let k := getConversationID conn.userID channelID
    ((∀ c, Lasting k visits c → ∀ v ∈ visits, c.row.bucket = S.formatBucket v.1.clock) →
      ReceivedOnce k visits) ∧
    ∀ month, (∀ v ∈ visits, S.formatBucket v.1.clock = month) →
      (ReceivedOnce k visits ↔ ∀ c, Lasting k visits c → c.row.bucket = month) := by
  intro k
  have once (h : ∀ c, Lasting k visits c → ∀ v ∈ visits, c.row.bucket = S.formatBucket v.1.clock) :
      ReceivedOnce k visits := fun c lasting =>
    List.count_eq_one_of_mem (paging.nodup positive stored unwritten)
      (paging.complete positive stored unwritten lasting (h c lasting) nofun)
  refine ⟨once, fun month same => ⟨fun received c lasting => ?_, fun h => ?_⟩⟩
  · have mem := List.count_pos_iff.mp (received c lasting ▸ Nat.one_pos)
    obtain ⟨c', row', text, -, v, hv, bucket⟩ := paging.sound positive stored unwritten _ mem
    have row := (lasting v hv).1
    rw [unwritten v hv] at row
    rw [← stored.text_inj row' row text, bucket, same v hv]
  · exact once fun c lasting v hv => (h c lasting).trans (same v hv).symm

/-! ## Samples -/

def juneClock : Nat := 1717200000 * second

/-- The sample platform, with months that turn. -/
def monthlyPlatform : Platform :=
  { samplePlatform with formatBucket now := if now < juneClock then "2024-05" else "2024-06" }

/-- Two messages of Alice in May. -/
def mayStore : Store :=
  (Store.empty.insertRow sampleClock sampleRow).insertRow sampleClock
    { sampleRow with
      messageID := ⟨139338432010000000, "cf841680-0790-11ef-8000-00155d000002"⟩
      sequenceNum := 2 }

/-- What Bob asks for, one message a page. -/
def pageRequest (cursor : String) : FetchHistoryFrame := ⟨"fetch_history", "alice", 1, cursor⟩

def pageRequestData (cursor : String) : Json :=
  .object [("action", .string "fetch_history"), ("channel_id", .string "alice"),
    ("limit", .number (some 1)), ("before_server_id", .string cursor)]

/-- The page he gets at a time. -/
def pageAt (now : Nat) (cursor : String) : Visit :=
  let s := { Server.empty now with db := mayStore }
  (s, (historyRows monthlyPlatform ⟨"bob", .json⟩ (pageRequest cursor) s).map (Router.overlay []))

/-- The run of the handler, in which all calls answer. -/
def pageTrace (now : Nat) (cursor : String) : List (Op × Choice) := [
  (.now, .ok),
  (.rpcRequest .fetchMessages, .answer true),
  (.selectMessages "dm:alice:bob" (monthlyPlatform.formatBucket now) 1
    (cursorID monthlyPlatform cursor), .ok),
  (.rpcReply .fetchMessages, .answer true),
  (.rpcRequest .fetchMessageEvents, .answer true),
  (.selectEvents "dm:alice:bob" "", .ok),
  (.rpcReply .fetchMessageEvents, .answer true),
  (.sendToUser "bob" (.history "alice" (pageAt now cursor).2), .ok)]

theorem pageAt_answers {now : Nat} {cursor : String}
    (parsed : FetchHistoryFrame.unmarshal (pageRequestData cursor) = some (pageRequest cursor))
    (run : play (S := system monthlyPlatform)
      (sampleRouter.handleFetchHistory monthlyPlatform ⟨"bob", .json⟩ (pageRequestData cursor))
      (pageAt now cursor).1 ((pageTrace now cursor).map Prod.snd) =
        some (pageTrace now cursor, .ok (), (pageAt now cursor).1)) :
    Serves monthlyPlatform sampleRouter ⟨"bob", .json⟩ "alice" 1 cursor (pageAt now cursor) :=
  ⟨pageRequestData cursor, pageRequest cursor, pageTrace now cursor, _, _, "alice", .ok, parsed,
    rfl, rfl, rfl, .of_play _ run, List.mem_of_getLast? rfl⟩

theorem mayStore_stored : Stored monthlyPlatform mayStore where
  distinct := ⟨by decide, by decide⟩
  parsed := by decide

/-- In May Bob gets both messages. -/
def mayVisits : List Visit :=
  [pageAt sampleClock "", pageAt sampleClock "cf841680-0790-11ef-8000-00155d000002",
    pageAt sampleClock "ceeb8000-0790-11ef-8000-00155d000001"]

theorem mayVisits_paging :
    Paging monthlyPlatform sampleRouter ⟨"bob", .json⟩ "alice" 1 "" mayVisits := by
  refine .next (pageAt_answers rfl rfl) rfl ?_
  refine .next (pageAt_answers rfl rfl) rfl ?_
  exact .last (pageAt_answers rfl rfl) rfl

theorem history_received_once_sample : ReceivedOnce "dm:alice:bob" mayVisits := by
  refine (history_received_once mayVisits_paging (by decide) mayStore_stored ?_).1 ?_
  · simp [Unwritten, mayVisits, pageAt]
  · intro c lasting v hv
    have may : ∀ v ∈ mayVisits, monthlyPlatform.formatBucket v.1.clock = "2024-05" := by
      simp only [mayVisits, List.forall_mem_cons]
      decide
    have rows : ∀ c ∈ Store.rows mayStore.messages, c.row.bucket = "2024-05" := by decide
    rw [may v hv, rows c (lasting _ List.mem_cons_self).1]

/-- In June he gets none. -/
def juneVisits : List Visit := [pageAt juneClock ""]

theorem history_missed : Stored monthlyPlatform mayStore ∧ Unwritten mayStore juneVisits ∧
    Paging monthlyPlatform sampleRouter ⟨"bob", .json⟩ "alice" 1 "" juneVisits ∧
    ¬ ReceivedOnce "dm:alice:bob" juneVisits := by
  refine ⟨mayStore_stored, ?_, .last (pageAt_answers rfl rfl) rfl, fun received => ?_⟩
  · simp [Unwritten, juneVisits, pageAt]
  · have once := received ⟨sampleRow, none⟩ (List.forall_mem_singleton.mpr
      ⟨by decide, rfl, rfl⟩)
    revert once
    decide

end GenChat.Gateway
