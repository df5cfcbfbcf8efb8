import GenChat.Gateway.History
import GenChat.Ledger.ExactlyOnce
import GenChat.Ledger.Partition

/-!
# History in the order of the sequence

A call that stores a message draws its sequence number from Redis first and its id from the clock
of its process later. Where the ids of a conversation are drawn in the order of the numbers, each
later than those before, the history of the conversation goes down in sequence numbers.
-/
namespace GenChat.Ledger
open Library Gateway LedgerHandler

variable {S : Platform} {s s' : Server} {k : String}

/-- What `FetchMessages` answers, for any month, limit and cursor, goes down in sequence numbers. -/
def InSequence (S : Platform) (k : String) (s : Server) : Prop :=
  ∀ bucket limit before trace resps t,
    Executes (system S) (fetchMessages S k bucket limit before) s trace (.ok resps) t →
      resps.Pairwise fun newer older => older.sequenceNum < newer.sequenceNum

/-- An id of the conversation is drawn later than the ids drawn before, for a larger number. -/
def DrawsInTurn (k : String) (s : Server) (op : Op) (choice : Choice) : Prop :=
  ∀ draft id, op = .newUUID draft → choice = .uuid id → draft.conversationID = k →
    ∀ text m, s.issued.lookup text = some m → m.conversationID = k →
      m.messageID.before id = true ∧ m.sequenceNum < draft.sequenceNum

def DrawnInTurn (k : String) (p : Pool (storing S)) : PoolLabel (storing S) → Prop
  | .run i choice => ∀ req op, p.next i = some (req, op) → DrawsInTurn k p.shared op choice
  | _ => True

/-! ## The invariant -/

/-- Ids of the conversation are ordered like its sequence numbers. -/
def IdsInTurn (k : String) (s : Server) : Prop :=
  ∀ text text' m m', s.issued.lookup text = some m → s.issued.lookup text' = some m' →
    m.conversationID = k → m'.conversationID = k → m.messageID.before m'.messageID = true →
      m.sequenceNum < m'.sequenceNum

/-- Only `uuid.NewUUID` hands out ids. -/
theorem issued_cases {op : Op} {choice : Choice} {r : Ret op}
    (hr : s.exec S op choice = some (r, s')) : s'.issued = s.issued ∨
      ∃ draft id, op = .newUUID draft ∧ choice = .uuid id ∧
        s'.issued = s.issued.insert id.text { draft with messageID := id } := by
  cases op with
  | newUUID draft =>
    cases choice with
    | uuid id =>
      simp only [Server.exec] at hr
      split at hr <;> cases hr
      exact .inr ⟨draft, _, rfl, rfl, rfl⟩
    | _ => cases hr
  | _ =>
    rcases Server.exec_cases hr with rfl | rfl | ⟨_, -, rfl⟩ | ⟨_, _, ⟨⟩, -⟩ <;> exact .inl rfl

theorem IdsInTurn.exec {op : Op} {choice : Choice} {r : Ret op} (h : IdsInTurn k s)
    (turn : DrawsInTurn k s op choice) (hr : s.exec S op choice = some (r, s')) :
    IdsInTurn k s' := by
  rcases issued_cases hr with same | ⟨draft, id, rfl, rfl, issued⟩
  · rwa [IdsInTurn, same]
  · have drawn := turn draft id rfl rfl
    intro text text' m m' found found' hk hk' before
    rw [issued] at found found'
    rcases lookup_insert_cases found with old | ⟨-, rfl⟩
    · rcases lookup_insert_cases found' with old' | ⟨-, rfl⟩
      · exact h text text' m m' old old' hk hk' before
      · exact (drawn hk' text m old hk).2
    · rcases lookup_insert_cases found' with old' | ⟨-, rfl⟩
      · rw [UUID.before_asymm (drawn hk text' m' old' hk').1] at before
        cases before
      · rw [UUID.before_irrefl] at before
        cases before

theorem InSequence.of_inTurn (recorded : s.Recorded) (h : IdsInTurn k s) :
    InSequence S k s := by
  intro bucket limit before trace resps t run
  obtain ⟨rfl, rfl⟩ := executes_fetchMessages run
  rw [Store.selectMessages_eq, List.map_map, List.pairwise_map]
  refine (Store.page_sorted (.of_recorded recorded)).imp_of_mem ?_
  intro newer older hn ho sorted
  obtain ⟨⟨mem, hk, -⟩, -⟩ := Store.mem_page hn
  obtain ⟨⟨mem', hk', -⟩, -⟩ := Store.mem_page ho
  obtain ⟨key, found⟩ := Store.mem_rows.mp mem
  obtain ⟨key', found'⟩ := Store.mem_rows.mp mem'
  exact h _ _ _ _ (recorded key' older found').2 (recorded key newer found).2 hk' hk sorted

/-! ## Runs -/

/-- Where ids are drawn in turn, the history of the conversation goes down in numbers. -/
theorem history_in_sequence {p : Pool (storing S)}
    (hp : (Pool.machine (storing S)).Reach (DrawnInTurn k) p) : InSequence S k p.shared := by
  have reach : ∃ phases, Pool.Phased callTypestate CallPhase.returns p phases ∧
      Drafted p.shared phases ∧ IdsInTurn k p.shared := by
    refine Pool.phased (T := callTypestate) (Q := CallPhase.returns)
      (I := fun s phases => Drafted s phases ∧ IdsInTurn k s) ?_ ?_ ?_ ?_ ?_ hp
    · exact fun _ _ _ => storeMessage_follows
    · rintro _ ⟨clock, rfl⟩
      exact ⟨⟨Server.recorded_empty clock, nofun⟩, nofun⟩
    · intro p phases req _ h
      exact ⟨h.1.spawn, h.2⟩
    · intro p phases i choice req op rest φ r s phased ok thread now allowed hr h
      exact ⟨h.1.exec now allowed hr, h.2.exec (ok req op (Pool.next_call thread)) hr⟩
    · intro p phases e s _ _ step h
      refine ⟨h.1.change step, ?_⟩
      rw [IdsInTurn, Server.change_issued step]
      exact h.2
  obtain ⟨phases, -, drafted, turn⟩ := reach
  exact .of_inTurn drafted.recorded turn

/-! ## Samples -/

/-- An id is drawn later than all ids before, by a call with a larger number than theirs. -/
def laterIds (p : Pool (storing S)) : PoolLabel (storing S) → Bool
  | .run i (.uuid id) => p.shared.issued.entries.all fun e => e.2.messageID.before id &&
    (p.next i).all fun x => match x.2 with
      | .newUUID draft => e.2.sequenceNum < draft.sequenceNum
      | _ => true
  | _ => true

theorem laterIds_drawn {p : Pool (storing S)} {l : PoolLabel (storing S)} (h : laterIds p l) :
    DrawnInTurn k p l := by
  cases l with
  | spawn req => trivial
  | env e => trivial
  | run i choice =>
    rintro req op next draft id rfl rfl - text m found -
    have all := List.all_eq_true.mp h ⟨text, m⟩ (AList.mem_lookup_iff.mp found)
    simpa [next] using all

/-- Alice's second message to Bob. -/
def secondRequest : StoreMessageRequest := { sampleRequest with clientMsgId := "c2" }

/-- A call of Alice up to its sequence number. -/
def countLabels (i : Nat) : List (PoolLabel (storing samplePlatform)) :=
  [.run i (.answer true), .run i .ok, .run i .ok, .run i .ok]

/-- The rest of the call. -/
def insertLabels (i : Nat) (id : UUID) : List (PoolLabel (storing samplePlatform)) :=
  [.run i (.uuid id), .run i .ok, .run i .ok, .run i .ok, .run i .ok, .run i (.answer true)]

/-- Alice sends two messages, one after the other. -/
def twoMessages : Option (Pool (storing samplePlatform)) :=
  storingFrom samplePlatform laterIds sampleClock ([.spawn sampleRequest, .spawn secondRequest] ++
    countLabels 0 ++ insertLabels 0 sampleRow.messageID ++
    countLabels 1 ++ insertLabels 1 laterRow.messageID)

theorem twoMessages_isSome : twoMessages.isSome := by rfl

theorem history_in_sequence_sample :
    InSequence samplePlatform "dm:alice:bob" (twoMessages.get twoMessages_isSome).shared :=
  history_in_sequence ((storingFrom_reach (Option.some_get twoMessages_isSome).symm).mono
    fun _ _ => laterIds_drawn)

/-- She sends both at once, and the second message gets its id first. -/
def overtaken : Option (Pool (storing samplePlatform)) :=
  storingFrom samplePlatform (fun _ _ => true) sampleClock (
    [.spawn sampleRequest, .spawn secondRequest] ++ countLabels 0 ++ countLabels 1 ++
    insertLabels 1 sampleRow.messageID ++ insertLabels 0 laterRow.messageID)

theorem overtaken_isSome : overtaken.isSome := by rfl

/-- What `FetchMessages` answers then. -/
def overtakenHistory : List StoredMessageResponse :=
  (((overtaken.get overtaken_isSome).shared.db.selectMessages sampleClock "dm:alice:bob" "2024-05"
    50 none)).map StoredMessage.response

theorem history_out_of_sequence : ∃ p, (Pool.machine (storing samplePlatform)).Reachable p ∧
    ¬ InSequence samplePlatform "dm:alice:bob" p.shared := by
  refine ⟨overtaken.get overtaken_isSome,
    (storingFrom_reach (Option.some_get overtaken_isSome).symm).reachable, ?_⟩
  intro sorted
  have clock : (overtaken.get overtaken_isSome).shared.clock = sampleClock := by rfl
  have run : Executes (system samplePlatform)
      (fetchMessages samplePlatform "dm:alice:bob" "2024-05" 50 "")
      (overtaken.get overtaken_isSome).shared
      [(.selectMessages "dm:alice:bob" "2024-05" 50 none, Choice.ok)]
      (.ok overtakenHistory) (overtaken.get overtaken_isSome).shared := by
    refine .call (S := system samplePlatform) (c := Choice.ok) rfl ?_
    rw [clock]
    exact .pure _ _
  have numbers : overtakenHistory.map StoredMessageResponse.sequenceNum = [1, 2] := by
    rfl
  have down : (overtakenHistory.map StoredMessageResponse.sequenceNum).Pairwise
      fun newer older => older < newer := List.pairwise_map.mpr (sorted _ _ _ _ _ _ run)
  rw [numbers] at down
  revert down
  decide

end GenChat.Ledger
