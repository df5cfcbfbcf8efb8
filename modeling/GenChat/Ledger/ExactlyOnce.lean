import GenChat.Ledger.Storing
import GenChat.Library.Phases

/-!
# Storing a message once

Any number of `StoreMessage` calls, interleaved step by step. Between the look into `client_dedup`
and the insert there, a call holds a claim on its client message id that no other call can see.
Where no two calls hold a claim on one id, every claim ends with a record, and no record expires
before the last call, one row is stored and every answer names it.
-/
namespace GenChat.Ledger
open Library Gateway LedgerHandler

/-- The ledger as a service of `StoreMessage` calls. -/
abbrev storing (S : Platform) :
    Service Op Ret (Except Status StoreMessageResult) StoreMessageRequest Change where
  system := system S
  init s := ∃ clock, s = Server.empty clock
  env := Server.change
  body req := LedgerClient.storeMessage S req

/-! ## The phases of a call -/

inductive CallPhase where
  | unchecked
  /-- No record was found. -/
  | claimed
  | drafted (row : StoredMessage)
  | stored (row : StoredMessage)
  /-- The answer is known. -/
  | answers (messageID : UUID) (sequenceNum : Int)
  | failed

/-- The call has a claim on its client message id. -/
def CallPhase.holds : CallPhase → Prop
  | claimed | drafted _ | stored _ => True
  | _ => False

/-- What a call may do in a phase. -/
def CallPhase.allows (req : StoreMessageRequest) : CallPhase → Op → Prop
  | unchecked, .rpcRequest _ => True
  | unchecked, .queryDedup msg | unchecked, .queryDedupLegacy msg => msg = message req
  | claimed, .incrSeq _ | claimed, .now => True
  | claimed, .newUUID draft =>
    draft.conversationID = req.conversationId ∧ draft.clientMsgID = req.clientMsgId
  | drafted _, .recordAuthor _ _ _ => True
  | drafted row, .insertRow row' =>
    row' = row ∧ row.conversationID = req.conversationId ∧ row.clientMsgID = req.clientMsgId
  | stored row, .insertDedup k clientMsgID messageID n ttlSec => k = req.conversationId ∧
    clientMsgID = req.clientMsgId ∧ messageID = row.messageID ∧ n = row.sequenceNum ∧
    ttlSec = row.ephemeralTTLSec
  | answers _ _, .rpcReply _ | failed, .rpcReply _ => True
  | _, _ => False

def CallPhase.next : CallPhase → (op : Op) → Ret op → CallPhase
  | unchecked, .queryDedup _, .ok none => claimed
  | unchecked, .queryDedup _, .ok (some record) => answers record.messageID record.sequenceNum
  | unchecked, .queryDedupLegacy _, .ok none => claimed
  | unchecked, .queryDedupLegacy _, .ok (some record) =>
    answers record.messageID record.sequenceNum
  | unchecked, .queryDedupLegacy _, .error _ => failed
  | claimed, .incrSeq _, .error _ => failed
  | claimed, .newUUID draft, id => drafted { draft with messageID := id }
  | drafted row, .insertRow _, .ok _ => stored row
  | drafted _, .insertRow _, .error _ => failed
  | stored row, .insertDedup _ _ _ _ _, _ => answers row.messageID row.sequenceNum
  | φ, _, _ => φ

def callTypestate : Typestate StoreMessageRequest Op Ret where
  Phase := CallPhase
  start _ := .unchecked
  allows := CallPhase.allows
  next := CallPhase.next

/-- A call that succeeds gives the ids of its phase, and no call ends with a claim. -/
def CallPhase.returns (_ : StoreMessageRequest) (a : Except Status StoreMessageResult)
    (φ : CallPhase) : Prop :=
  ¬ φ.holds ∧ ∀ stored, a = .ok stored →
    ∃ id n, φ = answers id n ∧ stored.messageID = id.text ∧ stored.sequenceNum = n

section Follows
variable {S : Platform} {req : StoreMessageRequest}

theorem insertMessage_follows {row : StoredMessage} (hk : row.conversationID = req.conversationId)
    (hc : row.clientMsgID = req.clientMsgId) :
    Follows callTypestate req (fun a φ => match a with
      | .ok () => φ = .stored row
      | .error _ => φ = .failed) (insertMessage row) (.drafted row) := by
  have insert : Follows callTypestate req (fun a φ => match a with
      | .ok () => φ = .stored row
      | .error _ => φ = .failed) (Gateway.insertRow row) (.drafted row) :=
    ⟨⟨rfl, hk, hc⟩, fun inserted => by cases inserted <;> rfl⟩
  unfold insertMessage
  split
  · exact ⟨trivial, fun _ => ⟨trivial, fun _ => insert⟩⟩
  · exact ⟨trivial, fun _ => insert⟩

theorem storeMessageDirect_follows :
    Follows callTypestate req (fun a φ => match a with
      | .ok m => φ = .answers m.messageID m.sequenceNum
      | .error err => err.code ≠ .alreadyExists ∧ φ = .failed)
      (storeMessageDirect S (message req)) .unchecked := by
  have new (row : StoredMessage) (hk : row.conversationID = req.conversationId)
      (hc : row.clientMsgID = req.clientMsgId) :
      Follows callTypestate req (fun a φ => match a with
        | .ok m => φ = .answers m.messageID m.sequenceNum
        | .error err => err.code ≠ .alreadyExists ∧ φ = .failed) (storeNew row) (.drafted row) := by
    refine (insertMessage_follows hk hc).bind fun inserted φ h => ?_
    cases inserted with
    | error err =>
      cases h
      exact ⟨nofun, rfl⟩
    | ok =>
      cases h
      exact ⟨⟨hk, hc, rfl, rfl, rfl⟩, fun _ => rfl⟩
  have checked : Follows callTypestate req (fun found φ => match found with
      | .ok none => φ = .claimed
      | .ok (some record) => φ = .answers record.messageID record.sequenceNum
      | .error _ => φ = .failed) (getDedup (message req)) .unchecked := by
    refine ⟨rfl, fun found => ?_⟩
    rcases found with err | _ | record
    · refine ⟨rfl, fun found => ?_⟩
      rcases found with err | _ | record <;> rfl
    · rfl
    · rfl
  refine checked.bind fun found φ h => ?_
  rcases found with err | _ | record
  · cases h
    exact ⟨nofun, rfl⟩
  · cases h
    refine ⟨trivial, fun counted => ?_⟩
    cases counted with
    | error err => exact ⟨nofun, rfl⟩
    | ok seq => exact ⟨trivial, fun now => ⟨⟨rfl, rfl⟩, fun id => new _ rfl rfl⟩⟩
  · exact h

theorem storeMessage_follows : Follows callTypestate req (CallPhase.returns req)
    (LedgerClient.storeMessage S req) .unchecked := by
  have handled : Follows callTypestate req (fun a φ => match a with
      | .ok resp => ∃ id n, φ = .answers id n ∧ resp.message.messageId = id.text ∧
        resp.message.sequenceNum = n
      | .error err => err.code ≠ .alreadyExists ∧ φ = .failed)
      (LedgerHandler.storeMessage S req) .unchecked := by
    refine storeMessageDirect_follows.bind fun a φ h => ?_
    cases a with
    | error err => exact h
    | ok m => exact ⟨_, _, h, rfl, rfl⟩
  have called : Follows callTypestate req (fun a φ => ¬ φ.holds ∧ match a with
      | .ok resp => ∃ id n, φ = .answers id n ∧ resp.message.messageId = id.text ∧
        resp.message.sequenceNum = n
      | .error err => err.code ≠ .alreadyExists)
      (rpc .storeMessage (LedgerHandler.storeMessage S req)) .unchecked := by
    refine ⟨trivial, fun reached => ?_⟩
    cases reached with
    | false => exact ⟨id, nofun⟩
    | true =>
      refine handled.bind fun a φ h => ?_
      cases a with
      | error err =>
        obtain ⟨code, rfl⟩ := h
        refine ⟨trivial, fun arrived => ?_⟩
        cases arrived with
        | false => exact ⟨id, nofun⟩
        | true => exact ⟨id, code⟩
      | ok resp =>
        obtain ⟨mid, n, rfl, ids⟩ := h
        refine ⟨trivial, fun arrived => ?_⟩
        cases arrived with
        | false => exact ⟨id, nofun⟩
        | true => exact ⟨id, mid, n, rfl, ids⟩
  refine called.bind fun a φ h => ?_
  cases a with
  | error err =>
    dsimp only
    rw [if_neg h.2]
    exact ⟨h.1, nofun⟩
  | ok resp =>
    obtain ⟨none, mid, n, now, ids⟩ := h
    exact ⟨none, fun stored same => by cases same; exact ⟨mid, n, now, ids⟩⟩

end Follows

/-! ## Runs in question -/

/-- The call is for the conversation `k` and the client message id `c`. -/
def StoreMessageRequest.For (k c : String) (req : StoreMessageRequest) : Prop :=
  req.conversationId = k ∧ req.clientMsgId = c

def Op.checks : Op → Prop
  | .queryDedup _ | .queryDedupLegacy _ => True
  | _ => False

/-- The operations of a call that has a claim. -/
def Op.claims : Op → Prop
  | .incrSeq _ | .now | .newUUID _ | .recordAuthor _ _ _ | .insertRow _ | .insertDedup _ _ _ _ _ =>
    True
  | _ => False

section Runs
variable {S : Platform} (k c : String)

/-- What is asked of a step of thread `i`, which is a call for `k` and `c`. -/
structure Orderly (p : Pool (storing S)) (i : Nat) (op : Op) (choice : Choice) : Prop where
  /-- No other call has a claim when one looks for a record. -/
  alone : Op.checks op → choice = .ok → ∀ j req op', j ≠ i → p.next j = some (req, op') →
    req.For k c → ¬ Op.claims op'
  /-- The record has not expired by then. -/
  live : Op.checks op → choice = .ok → ∀ cell,
    p.shared.db.clientDedup.lookup (k, c) = some cell → cell.live p.shared.clock
  /-- The fallback query, which knows no sequence number, finds nothing. -/
  legacy : ∀ msg, op = .queryDedupLegacy msg → choice = .ok →
    p.shared.db.selectDedup p.shared.clock k c = none
  /-- A row insert that reports a failure did not take effect. -/
  row : ∀ m, op = .insertRow m → choice ≠ .failApplied
  /-- The record is written. -/
  dedup : ∀ k' c' id n ttlSec, op = .insertDedup k' c' id n ttlSec → choice ≠ .fail

def KeepsOnce (p : Pool (storing S)) : PoolLabel (storing S) → Prop
  | .run i choice => ∀ req op, p.next i = some (req, op) → req.For k c → Orderly k c p i op choice
  | _ => True

/-- A row of the conversation with the client message id. -/
def Row (s : Server) (m : StoredMessage) : Prop :=
  s.db.Holds m ∧ m.conversationID = k ∧ m.clientMsgID = c

/-- There is at most one row, and all successful answers are the same. -/
structure StoredOnce (p : Pool (storing S)) : Prop where
  row : ∀ m m', Row k c p.shared m → Row k c p.shared m' → m = m'
  answer : ∀ req req' stored stored', (req, .pure (.ok stored)) ∈ p.threads →
    (req', .pure (.ok stored')) ∈ p.threads → req.For k c → req'.For k c →
      stored.messageID = stored'.messageID ∧ stored.sequenceNum = stored'.sequenceNum

end Runs

/-! ## The invariant -/

/-- A row that a call is about to insert has an id of its own. -/
structure Drafted (s : Server) (phases : List (StoreMessageRequest × CallPhase)) : Prop where
  recorded : s.Recorded
  drafted : ∀ req row, (req, .drafted row) ∈ phases →
    s.issued.lookup row.messageID.text = some row

section Drafted
variable {S : Platform} {s s' : Server} {phases : List (StoreMessageRequest × CallPhase)} {i : Nat}
  {req : StoreMessageRequest} {φ : CallPhase} {op : Op} {r : Ret op} {choice : Choice}

theorem CallPhase.next_drafted {row : StoredMessage} (h : φ.next op r = .drafted row) :
    φ = .drafted row ∨ ∃ draft id, op = .newUUID draft ∧ HEq r id ∧
      row = { draft with messageID := id } := by
  unfold CallPhase.next at h
  split at h <;> first | cases h; done | skip
  · cases h
    exact .inr ⟨_, _, rfl, .rfl, rfl⟩
  · exact .inl h

theorem Drafted.row (h : Drafted s phases) (now : phases[i]? = some (req, φ))
    (allowed : φ.allows req op) : ∀ m, op = .insertRow m →
      s.issued.lookup m.messageID.text = some m := by
  rintro m rfl
  cases φ <;> first | exact allowed.elim | skip
  obtain ⟨rfl, -⟩ := allowed
  exact h.drafted req m (List.mem_of_getElem? now)

theorem Drafted.exec (h : Drafted s phases) (now : phases[i]? = some (req, φ))
    (allowed : φ.allows req op) (hr : s.exec S op choice = some (r, s')) :
    Drafted s' (phases.set i (req, φ.next op r)) where
  recorded := h.recorded.exec hr (h.row now allowed)
  drafted req' row mem := by
    rcases List.mem_or_eq_of_mem_set mem with old | new
    · exact Server.exec_issued hr (h.drafted req' row old)
    · cases new' : φ.next op r with
      | drafted row' =>
        rw [new'] at new
        cases new
        rcases CallPhase.next_drafted new' with rfl | ⟨draft, id, rfl, same, rfl⟩
        · exact Server.exec_issued hr (h.drafted req row (List.mem_of_getElem? now))
        · cases same
          obtain ⟨-, rfl⟩ := Server.newUUID_cases hr
          exact AList.lookup_insert _
      | _ =>
        rw [new'] at new
        cases new

theorem Drafted.spawn (h : Drafted s phases) : Drafted s (phases ++ [(req, .unchecked)]) where
  recorded := h.recorded
  drafted req' row mem := by
    rcases List.mem_append.mp mem with old | new
    · exact h.drafted req' row old
    · cases List.mem_singleton.mp new

theorem Drafted.change (h : Drafted s phases) {e : Change} (step : s.change e = some s') :
    Drafted s' phases where
  recorded := h.recorded.change step
  drafted := by
    rw [Server.change_issued step]
    exact h.drafted

end Drafted

section Once
variable (k c : String)

def Claims (x : StoreMessageRequest × CallPhase) : Prop := x.1.For k c ∧ x.2.holds

/-- At most one call has a claim, and none while there is a record. A row has a record, or its call
is about to insert it. -/
structure Once (s : Server) (phases : List (StoreMessageRequest × CallPhase)) : Prop where
  alone : ∀ (i j : Nat) (x y : StoreMessageRequest × CallPhase), phases[i]? = some x →
    phases[j]? = some y → Claims k c x → Claims k c y → i = j
  unrecorded : ∀ x ∈ phases, Claims k c x → s.db.clientDedup.lookup (k, c) = none
  record : ∀ cell, s.db.clientDedup.lookup (k, c) = some cell → ∃ m, Row k c s m ∧
    m.messageID = cell.row.messageID ∧ m.sequenceNum = cell.row.sequenceNum
  row : ∀ m, Row k c s m → s.db.clientDedup.lookup (k, c) ≠ none ∨
    ∃ req, req.For k c ∧ (req, .stored m) ∈ phases
  unique : ∀ m m', Row k c s m → Row k c s m' → m = m'
  stored : ∀ req m, (req, .stored m) ∈ phases → req.For k c →
    Row k c s m ∧ Server.acceptsTTL m.ephemeralTTLSec
  answered : ∀ req id n, (req, .answers id n) ∈ phases → req.For k c →
    ∃ m, Row k c s m ∧ m.messageID = id ∧ m.sequenceNum = n

variable {k c} {s s' : Server} {phases : List (StoreMessageRequest × CallPhase)} {i : Nat}
  {req : StoreMessageRequest} {φ φ' : CallPhase}

/-- While a call is before its row insert, there is no row. -/
theorem Once.no_row (h : Once k c s phases) (now : phases[i]? = some (req, φ)) (mine : req.For k c)
    (claim : φ.holds) (early : ∀ m, φ ≠ .stored m) (m : StoredMessage) : ¬ Row k c s m := by
  intro hm
  rcases h.row m hm with record | ⟨req', mine', mem⟩
  · exact record (h.unrecorded _ (List.mem_of_getElem? now) ⟨mine, claim⟩)
  · obtain ⟨j, there⟩ := List.getElem?_of_mem mem
    have same := h.alone i j _ _ now there ⟨mine, claim⟩ ⟨mine', trivial⟩
    subst same
    rw [now] at there
    cases there
    exact early m rfl

/-- A step of a call that takes no claim keeps claims apart. -/
theorem Once.alone_set (h : Once k c s phases) (now : phases[i]? = some (req, φ))
    (claims : req.For k c → φ'.holds → φ.holds) (j j' : Nat)
    (x y : StoreMessageRequest × CallPhase) (hx : (phases.set i (req, φ'))[j]? = some x)
    (hy : (phases.set i (req, φ'))[j']? = some y) (cx : Claims k c x) (cy : Claims k c y) :
    j = j' := by
  have before (j : Nat) (x : StoreMessageRequest × CallPhase)
      (hx : (phases.set i (req, φ'))[j]? = some x) (cx : Claims k c x) :
      ∃ y, phases[j]? = some y ∧ Claims k c y := by
    by_cases same : i = j
    · subst same
      rw [List.getElem?_set_self (List.getElem?_eq_some_iff.mp now).1] at hx
      cases hx
      exact ⟨_, now, cx.1, claims cx.1 cx.2⟩
    · rw [List.getElem?_set_ne same] at hx
      exact ⟨x, hx, cx⟩
  obtain ⟨x', old, cx'⟩ := before j x hx cx
  obtain ⟨y', old', cy'⟩ := before j' y hy cy
  exact h.alone j j' x' y' old old' cx' cy'

/-- A step that leaves the rows and the record alone and takes no claim. -/
theorem Once.quiet (h : Once k c s phases) (now : phases[i]? = some (req, φ))
    (rows : ∀ m, Row k c s' m ↔ Row k c s m)
    (record : s'.db.clientDedup.lookup (k, c) = s.db.clientDedup.lookup (k, c))
    (claims : req.For k c → φ'.holds → φ.holds)
    (stored : req.For k c → ∀ m, φ' = .stored m ↔ φ = .stored m)
    (answered : req.For k c → ∀ id n, φ' = .answers id n →
      ∃ m, Row k c s m ∧ m.messageID = id ∧ m.sequenceNum = n) :
    Once k c s' (phases.set i (req, φ')) where
  alone := h.alone_set now claims
  unrecorded x mem cx := by
    rw [record]
    rcases List.mem_or_eq_of_mem_set mem with old | rfl
    · exact h.unrecorded x old cx
    · exact h.unrecorded _ (List.mem_of_getElem? now) ⟨cx.1, claims cx.1 cx.2⟩
  record cell found := by
    simp only [rows]
    exact h.record cell (record ▸ found)
  row m hm := by
    rw [record]
    refine (h.row m ((rows m).mp hm)).imp id ?_
    rintro ⟨req', mine, mem⟩
    obtain ⟨j, there⟩ := List.getElem?_of_mem mem
    by_cases same : i = j
    · subst same
      rw [now] at there
      cases there
      rw [(stored mine m).mpr rfl]
      exact ⟨req, mine, List.mem_set (List.getElem?_eq_some_iff.mp now).1 _⟩
    · exact ⟨req', mine, List.mem_of_getElem? ((List.getElem?_set_ne same).trans there)⟩
  unique m m' hm hm' := h.unique m m' ((rows m).mp hm) ((rows m').mp hm')
  stored req' m mem mine := by
    rw [rows]
    rcases List.mem_or_eq_of_mem_set mem with old | new
    · exact h.stored req' m old mine
    · cases new
      exact h.stored req m ((stored mine m).mp rfl ▸ List.mem_of_getElem? now) mine
  answered req' id n mem mine := by
    simp only [rows]
    rcases List.mem_or_eq_of_mem_set mem with old | new
    · exact h.answered req' id n old mine
    · cases new
      exact answered mine id n rfl

/-- The call looks for a record, finds none, and is the only one with a claim. -/
theorem Once.claim (h : Once k c s phases) (now : phases[i]? = some (req, .unchecked))
    (none : s.db.clientDedup.lookup (k, c) = none)
    (others : ∀ (j : Nat) (x : StoreMessageRequest × CallPhase), j ≠ i → phases[j]? = some x →
      ¬ Claims k c x) :
    Once k c s (phases.set i (req, .claimed)) where
  alone j j' x y hx hy cx cy := by
    have only (j : Nat) (x : StoreMessageRequest × CallPhase)
        (hx : (phases.set i (req, .claimed))[j]? = some x) (cx : Claims k c x) : i = j := by
      by_contra other
      rw [List.getElem?_set_ne other] at hx
      exact others j x (Ne.symm other) hx cx
    exact (only j x hx cx).symm.trans (only j' y hy cy)
  unrecorded _ _ _ := none
  record := h.record
  row m hm := by
    rcases h.row m hm with record | ⟨req', mine, mem⟩
    · exact absurd none record
    · obtain ⟨j, there⟩ := List.getElem?_of_mem mem
      by_cases same : j = i
      · subst same
        rw [now] at there
        cases there
      · exact absurd ⟨mine, trivial⟩ (others j _ same there)
  unique := h.unique
  stored req' m mem mine := by
    rcases List.mem_or_eq_of_mem_set mem with old | new
    · exact h.stored req' m old mine
    · cases new
  answered req' id n mem mine := by
    rcases List.mem_or_eq_of_mem_set mem with old | new
    · exact h.answered req' id n old mine
    · cases new

/-- The call that has the claim inserts its row. -/
theorem Once.insert {m : StoredMessage} (h : Once k c s phases)
    (now : phases[i]? = some (req, .drafted m)) (mine : req.For k c)
    (rows : ∀ m', Row k c s' m' ↔ Row k c s m' ∨ m' = m)
    (record : s'.db.clientDedup.lookup (k, c) = s.db.clientDedup.lookup (k, c))
    (ttl : Server.acceptsTTL m.ephemeralTTLSec) :
    Once k c s' (phases.set i (req, .stored m)) := by
  have only (m' : StoredMessage) : Row k c s' m' ↔ m' = m := by
    rw [rows, or_iff_right (h.no_row now mine trivial nofun m')]
  have new : (req, .stored m) ∈ phases.set i (req, .stored m) :=
    List.mem_set (List.getElem?_eq_some_iff.mp now).1 _
  refine
    { alone := h.alone_set now fun _ _ => trivial
      unrecorded := ?_
      record := ?_
      row := fun m' hm => .inr ⟨req, mine, (only m').mp hm ▸ new⟩
      unique := fun m₁ m₂ h₁ h₂ => ((only m₁).mp h₁).trans ((only m₂).mp h₂).symm
      stored := ?_
      answered := ?_ }
  · intro x _ _
    rw [record]
    exact h.unrecorded _ (List.mem_of_getElem? now) ⟨mine, trivial⟩
  · intro cell found
    obtain ⟨m', hm, ids⟩ := h.record cell (record ▸ found)
    exact ⟨m', (rows m').mpr (.inl hm), ids⟩
  · intro req' m' mem mine'
    rcases List.mem_or_eq_of_mem_set mem with old | same
    · obtain ⟨hm, ttl'⟩ := h.stored req' m' old mine'
      exact ⟨(rows m').mpr (.inl hm), ttl'⟩
    · cases same
      exact ⟨(only m).mpr rfl, ttl⟩
  · intro req' id n mem mine'
    rcases List.mem_or_eq_of_mem_set mem with old | same
    · obtain ⟨m', hm, ids⟩ := h.answered req' id n old mine'
      exact ⟨m', (rows m').mpr (.inl hm), ids⟩
    · cases same

/-- The call that has the claim gives it up for the record of its row. -/
theorem Once.give_up {m : StoredMessage} {cell : Cell DedupRecord} (h : Once k c s phases)
    (now : phases[i]? = some (req, .stored m)) (mine : req.For k c)
    (rows : ∀ m', Row k c s' m' ↔ Row k c s m')
    (record : s'.db.clientDedup.lookup (k, c) = some cell)
    (ids : m.messageID = cell.row.messageID ∧ m.sequenceNum = cell.row.sequenceNum) :
    Once k c s' (phases.set i (req, .answers m.messageID m.sequenceNum)) := by
  obtain ⟨hm, -⟩ := h.stored req m (List.mem_of_getElem? now) mine
  have calm : req.For k c → CallPhase.holds (.answers m.messageID m.sequenceNum) →
      CallPhase.holds (.stored m) := nofun
  have left (x : StoreMessageRequest × CallPhase)
      (mem : x ∈ phases.set i (req, .answers m.messageID m.sequenceNum)) : ¬ Claims k c x := by
    intro cx
    obtain ⟨j, there⟩ := List.getElem?_of_mem mem
    by_cases same : i = j
    · subst same
      rw [List.getElem?_set_self (List.getElem?_eq_some_iff.mp now).1] at there
      cases there
      exact cx.2
    · rw [List.getElem?_set_ne same] at there
      exact same (h.alone i j _ _ now there ⟨mine, trivial⟩ cx)
  refine
    { alone := h.alone_set now calm
      unrecorded := fun x mem cx => absurd cx (left x mem)
      record := ?_
      row := fun m' hm => .inl (by rw [record]; exact nofun)
      unique := fun m₁ m₂ h₁ h₂ => h.unique m₁ m₂ ((rows m₁).mp h₁) ((rows m₂).mp h₂)
      stored := fun req' m' mem mine' => absurd ⟨mine', trivial⟩ (left _ mem)
      answered := ?_ }
  · intro cell' found
    rw [record] at found
    cases found
    exact ⟨m, (rows m).mpr hm, ids⟩
  · intro req' id n mem mine'
    rcases List.mem_or_eq_of_mem_set mem with old | same
    · obtain ⟨m', hm, ids⟩ := h.answered req' id n old mine'
      exact ⟨m', (rows m').mpr hm, ids⟩
    · cases same
      exact ⟨m, (rows m).mpr hm, rfl, rfl⟩

theorem Once.spawn (h : Once k c s phases) : Once k c s (phases ++ [(req, .unchecked)]) where
  alone i j x y hx hy cx cy := by
    have old (j : Nat) (x : StoreMessageRequest × CallPhase)
        (hx : (phases ++ [(req, CallPhase.unchecked)])[j]? = some x) (cx : Claims k c x) :
        phases[j]? = some x := by
      rcases Nat.lt_or_ge j phases.length with lt | ge
      · rwa [List.getElem?_append_left lt] at hx
      · rw [List.getElem?_append_right ge] at hx
        rw [List.mem_singleton.mp (List.mem_of_getElem? hx)] at cx
        exact cx.2.elim
    exact h.alone i j x y (old i x hx cx) (old j y hy cy) cx cy
  unrecorded x mem cx := by
    rcases List.mem_append.mp mem with old | new
    · exact h.unrecorded x old cx
    · rw [List.mem_singleton.mp new] at cx
      exact cx.2.elim
  record := h.record
  row m hm := (h.row m hm).imp id fun ⟨req', mine, mem⟩ =>
    ⟨req', mine, List.mem_append_left _ mem⟩
  unique := h.unique
  stored req' m mem := by
    refine h.stored req' m ?_
    simpa using mem
  answered req' id n mem := by
    refine h.answered req' id n ?_
    simpa using mem

end Once

/-! ## Steps -/

section Steps
variable {S : Platform} {k c : String} {s s' : Server} {op : Op} {choice : Choice} {r : Ret op}
  {phases : List (StoreMessageRequest × CallPhase)} {i : Nat} {req : StoreMessageRequest}
  {φ : CallPhase}

theorem Drafted.rows (d : Drafted s phases) (now : phases[i]? = some (req, φ))
    (allowed : φ.allows req op) (hr : s.exec S op choice = some (r, s'))
    (other : ∀ m, op = .insertRow m → ¬ (m.conversationID = k ∧ m.clientMsgID = c))
    (m : StoredMessage) : Row k c s' m ↔ Row k c s m := by
  constructor
  · rintro ⟨hm, fits⟩
    rcases Server.exec_holds hr hm with old | rfl
    · exact ⟨old, fits⟩
    · exact absurd fits (other m rfl)
  · rintro ⟨hm, fits⟩
    exact ⟨d.recorded.keeps hr (d.row now allowed) hm, fits⟩

theorem record_exec (hr : s.exec S op choice = some (r, s'))
    (other : ∀ k' c' id n ttlSec, op = .insertDedup k' c' id n ttlSec → ¬ (k' = k ∧ c' = c)) :
    s'.db.clientDedup.lookup (k, c) = s.db.clientDedup.lookup (k, c) := by
  rcases Server.exec_db hr with same | applied
  · rw [same]
  · rw [applied]
    cases op with
    | insertDedup k' c' id n ttlSec =>
      refine AList.lookup_insert_ne fun same => other k' c' id n ttlSec rfl ?_
      cases same
      exact ⟨rfl, rfl⟩
    | _ => rfl

/-- A call with a claim issues an operation of one. -/
theorem CallPhase.holds.claims (h : φ.holds) (allowed : φ.allows req op) : Op.claims op := by
  cases φ <;> first | exact h.elim | skip
  all_goals cases op <;> first | exact allowed.elim | trivial

theorem no_claims {p : Pool (storing S)}
    (phased : Pool.Phased callTypestate CallPhase.returns p phases)
    (alone : ∀ j req op', j ≠ i → p.next j = some (req, op') → req.For k c → ¬ Op.claims op')
    (j : Nat) (x : StoreMessageRequest × CallPhase) (other : j ≠ i)
    (there : phases[j]? = some x) : ¬ Claims k c x := by
  rintro ⟨mine, holds⟩
  obtain ⟨program, thread, follows⟩ := phased.thread there
  cases program with
  | pure a => exact follows.1 holds
  | call op' rest =>
    exact alone j _ op' other (Pool.next_call thread) mine (holds.claims follows.1)

/-- The answers to a look for a record. -/
theorem Once.found {record : DedupRecord} (h : Once k c s phases)
    (now : phases[i]? = some (req, .unchecked))
    (found : s.db.selectDedup s.clock k c = some record) :
    Once k c s (phases.set i (req, .answers record.messageID record.sequenceNum)) := by
  refine h.quiet now (fun m => .rfl) rfl (fun _ => id) (fun _ m => ⟨nofun, nofun⟩)
    fun _ id n same => ?_
  cases same
  obtain ⟨cell, there, rfl⟩ := Option.map_eq_some_iff.mp found
  exact h.record cell (Option.filter_eq_some_iff.mp there).1

theorem no_record (live : ∀ cell, s.db.clientDedup.lookup (k, c) = some cell → cell.live s.clock)
    (found : s.db.selectDedup s.clock k c = none) :
    s.db.clientDedup.lookup (k, c) = none := by
  cases there : s.db.clientDedup.lookup (k, c) with
  | none => rfl
  | some cell =>
    rw [Store.selectDedup, there, Option.filter_some_pos (live cell there)] at found
    cases found

theorem Once.exec {p : Pool (storing S)} (h : Once k c p.shared phases)
    (d : Drafted p.shared phases)
    (phased : Pool.Phased callTypestate CallPhase.returns p phases)
    (keeps : req.For k c → Orderly k c p i op choice) (now : phases[i]? = some (req, φ))
    (allowed : φ.allows req op) (hr : p.shared.exec S op choice = some (r, s')) :
    Once k c s' (phases.set i (req, φ.next op r)) := by
  by_cases mine : req.For k c
  case neg =>
    refine h.quiet now (d.rows now allowed hr ?_) (record_exec hr ?_)
      (fun it => absurd it mine) (fun it => absurd it mine) (fun it => absurd it mine)
    · rintro m rfl ⟨rfl, rfl⟩
      cases φ <;> first | exact allowed.elim | skip
      obtain ⟨rfl, hk, hc⟩ := allowed
      exact mine ⟨hk.symm, hc.symm⟩
    · rintro k' c' id n ttlSec rfl ⟨rfl, rfl⟩
      cases φ <;> first | exact allowed.elim | skip
      exact mine ⟨allowed.1.symm, allowed.2.1.symm⟩
  obtain ⟨alone, live, legacy, row, dedup⟩ := keeps mine
  obtain ⟨rfl, rfl⟩ := mine
  have mine : req.For req.conversationId req.clientMsgId := ⟨rfl, rfl⟩
  have stays (same : φ.next op r = φ) (rows : ∀ m, op ≠ .insertRow m)
      (record : ∀ k' c' id n ttlSec, op ≠ .insertDedup k' c' id n ttlSec) :
      Once req.conversationId req.clientMsgId s' (phases.set i (req, φ.next op r)) := by
    rw [same]
    refine h.quiet now (d.rows now allowed hr fun m it => absurd it (rows m))
      (record_exec hr fun k' c' id n ttlSec it => absurd it (record k' c' id n ttlSec))
      (fun _ => id) (fun _ _ => .rfl) fun _ id n it => ?_
    exact h.answered req id n (it ▸ List.mem_of_getElem? now) mine
  -- A step of a call with a claim that leaves tables alone.
  have moves (φ' : CallPhase) (holds : φ'.holds → φ.holds) (later : ∀ m, φ' ≠ .stored m)
      (early : ∀ m, φ ≠ .stored m) (silent : ∀ id n, φ' ≠ .answers id n)
      (rows : ∀ m, op = .insertRow m → s' = p.shared)
      (record : ∀ k' c' id n ttlSec, op ≠ .insertDedup k' c' id n ttlSec) :
      Once req.conversationId req.clientMsgId s' (phases.set i (req, φ')) := by
    refine h.quiet now (fun m => ?_)
      (record_exec hr fun k' c' id n ttlSec it => absurd it (record k' c' id n ttlSec))
      (fun _ => holds) (fun _ m => ⟨fun it => absurd it (later m), fun it => absurd it (early m)⟩)
      fun _ id n it => absurd it (silent id n)
    by_cases inserts : ∃ m, op = .insertRow m
    · obtain ⟨m', it⟩ := inserts
      rw [rows m' it]
    · exact d.rows now allowed hr (fun m it => absurd ⟨m, it⟩ inserts) m
  cases op with
  | rpcRequest => cases φ <;> first | exact allowed.elim | exact stays rfl (by simp) (by simp)
  | rpcReply => cases φ <;> first | exact allowed.elim | exact stays rfl (by simp) (by simp)
  | recordAuthor => cases φ <;> first | exact allowed.elim | exact stays rfl (by simp) (by simp)
  | now => cases φ <;> first | exact allowed.elim | exact stays rfl (by simp) (by simp)
  | queryDedup msg =>
    cases φ <;> first | exact allowed.elim | skip
    cases (allowed : msg = message req)
    obtain ⟨rfl, ⟨rfl, rfl⟩ | ⟨rfl, rfl⟩⟩ := Server.query_eq_some.mp hr
    · change Once _ _ _ (phases.set i (req, CallPhase.next .unchecked (.queryDedup (message req))
        (.ok (p.shared.db.selectDedup p.shared.clock req.conversationId req.clientMsgId))))
      cases found : p.shared.db.selectDedup p.shared.clock req.conversationId req.clientMsgId with
      | none =>
        exact h.claim now (no_record (live trivial rfl) found)
          (no_claims phased (alone trivial rfl))
      | some record => exact h.found now found
    · exact stays rfl (by simp) (by simp)
  | queryDedupLegacy msg =>
    cases φ <;> first | exact allowed.elim | skip
    cases (allowed : msg = message req)
    obtain ⟨rfl, ⟨rfl, rfl⟩ | ⟨rfl, rfl⟩⟩ := Server.query_eq_some.mp hr
    · have found := legacy _ rfl rfl
      have answer : CallPhase.next .unchecked (.queryDedupLegacy (message req))
          (.ok ((p.shared.db.selectDedup p.shared.clock req.conversationId
            req.clientMsgId).map fun r => { r with sequenceNum := 0 })) = .claimed := by
        rw [found]
        rfl
      exact answer ▸ h.claim now (no_record (live trivial rfl) found)
        (no_claims phased (alone trivial rfl))
    · exact moves .failed (by rintro ⟨⟩) (by simp) (by simp) (by simp) (by simp) (by simp)
  | incrSeq =>
    cases φ <;> first | exact allowed.elim | skip
    cases r with
    | ok => exact stays rfl (by simp) (by simp)
    | error => exact moves .failed (by rintro ⟨⟩) (by simp) (by simp) (by simp) (by simp) (by simp)
  | newUUID draft =>
    cases φ <;> first | exact allowed.elim | skip
    exact moves _ id (by rintro _ ⟨⟩) (by simp) (by rintro _ _ ⟨⟩) (by simp) (by simp)
  | insertRow m =>
    cases φ <;> first | exact allowed.elim | skip
    obtain ⟨rfl, hk, hc⟩ := allowed
    have rows (m' : StoredMessage) := Server.exec_holds hr (m := m')
    have kept (m' : StoredMessage) := d.recorded.keeps hr (d.row now ⟨rfl, hk, hc⟩) (m := m')
    simp only [Server.exec] at hr
    split at hr
    · rename_i accepted
      rcases Server.write_eq_some.mp hr with ⟨-, rfl, rfl⟩ | ⟨-, rfl, rfl⟩ | ⟨failed, -, -⟩
      · refine h.insert now mine (fun m' => ⟨?_, ?_⟩) rfl ?_
        · rintro ⟨hm, fits⟩
          rcases rows m' hm with old | new
          · exact .inl ⟨old, fits⟩
          · cases new
            exact .inr rfl
        · rintro (⟨hm, fits⟩ | rfl)
          · exact ⟨kept m' hm, fits⟩
          · exact ⟨⟨_, AList.lookup_insert _, rfl⟩, hk, hc⟩
        · exact (Bool.and_eq_true_iff.mp accepted).2
      · exact moves .failed (by rintro ⟨⟩) (by simp) (by simp) (by simp) (fun _ _ => rfl) (by simp)
      · exact absurd failed (row m rfl)
    · cases hr
      exact moves .failed (by rintro ⟨⟩) (by simp) (by simp) (by simp) (fun _ _ => rfl) (by simp)
  | insertDedup k c id n ttlSec =>
    have rows := d.rows (k := req.conversationId) (c := req.clientMsgId) now allowed hr (by simp)
    cases φ <;> first | exact allowed.elim | skip
    rename_i m
    have accepted := (h.stored req m (List.mem_of_getElem? now) mine).2
    obtain ⟨rfl, rfl, rfl, rfl, rfl⟩ := allowed
    simp only [Server.exec, if_pos accepted] at hr
    rcases Server.write_eq_some.mp hr with ⟨-, -, rfl⟩ | ⟨failed, -, -⟩ | ⟨-, -, rfl⟩
    · exact h.give_up now mine rows (AList.lookup_insert _) ⟨rfl, rfl⟩
    · exact absurd failed (dedup _ _ _ _ _ rfl)
    · exact h.give_up now mine rows (AList.lookup_insert _) ⟨rfl, rfl⟩
  | _ => cases φ <;> exact allowed.elim

theorem Once.change (h : Once k c s phases) {e : Change} (step : s.change e = some s') :
    Once k c s' phases := by
  cases e <;> cases step <;> exact ⟨h.1, h.2, h.3, h.4, h.5, h.6, h.7⟩

end Steps

section Main
variable (S : Platform) (k c : String)

theorem once_empty (clock : Nat) : Once k c (Server.empty clock) [] where
  alone _ _ _ _ h := by cases h
  unrecorded _ h := by cases h
  record _ h := by cases h
  row := by
    rintro _ ⟨⟨_, h, -⟩, -⟩
    cases h
  unique := by
    rintro _ _ ⟨⟨_, h, -⟩, -⟩
    cases h
  stored _ _ h := by cases h
  answered _ _ _ h := by cases h

theorem once_reach {p : Pool (storing S)}
    (hp : (Pool.machine (storing S)).Reach (KeepsOnce k c) p) :
    ∃ phases, Pool.Phased callTypestate CallPhase.returns p phases ∧
      Drafted p.shared phases ∧ Once k c p.shared phases := by
  refine Pool.phased (T := callTypestate) (Q := CallPhase.returns)
    (I := fun s phases => Drafted s phases ∧ Once k c s phases) ?_ ?_ ?_ ?_ ?_ hp
  · exact fun _ _ _ => storeMessage_follows
  · rintro _ ⟨clock, rfl⟩
    exact ⟨⟨Server.recorded_empty clock, nofun⟩, once_empty k c clock⟩
  · exact fun p phases req _ h => ⟨h.1.spawn, h.2.spawn⟩
  · intro p phases i choice req op rest φ r s phased ok thread now allowed hr h
    exact ⟨h.1.exec now allowed hr,
      h.2.exec h.1 phased (ok req op (Pool.next_call thread)) now allowed hr⟩
  · exact fun p phases e s _ _ step h => ⟨h.1.change step, h.2.change step⟩

/-- Where claims are held alone and every record is written and lives, a message is stored once. -/
theorem stored_once {p : Pool (storing S)}
    (hp : (Pool.machine (storing S)).Reach (KeepsOnce k c) p) : StoredOnce k c p := by
  obtain ⟨phases, phased, -, h⟩ := once_reach S k c hp
  have named (req : StoreMessageRequest) (stored : StoreMessageResult)
      (mem : (req, .pure (.ok stored)) ∈ p.threads) (mine : req.For k c) :
      ∃ m, Row k c p.shared m ∧ stored.messageID = m.messageID.text ∧
        stored.sequenceNum = m.sequenceNum := by
    obtain ⟨i, thread⟩ := List.getElem?_of_mem mem
    obtain ⟨φ, now, -, answer⟩ := phased.follows i _ _ thread
    obtain ⟨id, n, rfl, text, seq⟩ := answer stored rfl
    obtain ⟨m, hm, rfl, rfl⟩ := h.answered req id n (List.mem_of_getElem? now) mine
    exact ⟨m, hm, text, seq⟩
  refine ⟨h.unique, fun req req' stored stored' mem mem' mine mine' => ?_⟩
  obtain ⟨m, hm, text, seq⟩ := named req stored mem mine
  obtain ⟨m', hm', text', seq'⟩ := named req' stored' mem' mine'
  cases h.unique m m' hm hm'
  exact ⟨text.trans text'.symm, seq.trans seq'.symm⟩

end Main

/-! ## Samples -/

/-- The run of the given labels from an empty ledger. -/
def storingFrom (S : Platform) (ok : Pool (storing S) → PoolLabel (storing S) → Bool) (clock : Nat)
    (labels : List (PoolLabel (storing S))) : Option (Pool (storing S)) :=
  (Pool.machine (storing S)).follow (fun p l => ok p l) (Pool.start _ (Server.empty clock)) labels

theorem storingFrom_reach {S : Platform} {ok : Pool (storing S) → PoolLabel (storing S) → Bool}
    {clock : Nat} {labels : List (PoolLabel (storing S))} {p : Pool (storing S)}
    (h : storingFrom S ok clock labels = some p) :
    (Pool.machine (storing S)).Reach (fun p l => ok p l) p := by
  have start : (Pool.machine (storing S)).Reach (fun p l => ok p l)
      (Pool.start _ (Server.empty clock)) := .start ⟨_, ⟨clock, rfl⟩, rfl⟩
  exact start.follow h

/-- One call at a time, without failures, and no record runs out. -/
def oneAtATime {S : Platform} (p : Pool (storing S)) : PoolLabel (storing S) → Bool
  | .run i choice => choice ≠ .fail ∧ choice ≠ .failApplied ∧
    (∀ j < p.threads.length, j ≠ i → (p.next j).isNone) ∧
    (p.next i).all (fun x => match x.2 with | .queryDedupLegacy _ => false | _ => true) ∧
    ∀ cell ∈ p.shared.db.clientDedup.entries, cell.2.live p.shared.clock
  | _ => true

theorem oneAtATime_keepsOnce {S : Platform} {k c : String} {p : Pool (storing S)}
    {l : PoolLabel (storing S)} (h : oneAtATime p l) : KeepsOnce k c p l := by
  cases l with
  | spawn req => trivial
  | env e => trivial
  | run i choice =>
    obtain ⟨ok, applied, alone, legacy, live⟩ := of_decide_eq_true h
    intro req op next mine
    refine ⟨fun _ _ j req' op' other next' => ?_, fun _ _ cell found => ?_, ?_,
      fun _ _ => applied, fun _ _ _ _ _ _ => ok⟩
    · obtain ⟨rest, thread⟩ := Pool.call_of_next next'
      have none := alone j (List.getElem?_eq_some_iff.mp thread).1 other
      rw [next'] at none
      cases none
    · exact live _ (AList.mem_lookup_iff.mp found)
    · rintro msg rfl
      rw [next] at legacy
      cases legacy

def sampleRequest : StoreMessageRequest := ⟨"dm:alice:bob", "alice", "c1", [1, 2, 3], [], 0, 0⟩

/-- Alice's call stores the message, and she calls again. -/
def retryRun : Option (Pool (storing samplePlatform)) :=
  storingFrom samplePlatform oneAtATime sampleClock [
    .spawn sampleRequest, .run 0 (.answer true), .run 0 .ok, .run 0 .ok, .run 0 .ok,
    .run 0 (.uuid sampleRow.messageID), .run 0 .ok, .run 0 .ok, .run 0 .ok, .run 0 .ok,
    .run 0 (.answer true), .env (.tick second), .spawn sampleRequest, .run 1 (.answer true),
    .run 1 .ok, .run 1 (.answer true)]

theorem retryRun_isSome : retryRun.isSome := by rfl

theorem stored_once_sample : StoredOnce "dm:alice:bob" "c1" (retryRun.get retryRun_isSome) :=
  stored_once samplePlatform "dm:alice:bob" "c1"
    ((storingFrom_reach (Option.some_get retryRun_isSome).symm).mono fun _ _ =>
      oneAtATime_keepsOnce)

/-- The row of the second call, if it stores one. -/
def laterRow : StoredMessage :=
  { sampleRow with
    messageID := ⟨139338432010000000, "cf841680-0790-11ef-8000-00155d000002"⟩, sequenceNum := 2 }

/-- The steps of a call that has found no record. -/
def storeLabels (i : Nat) (id : UUID) : List (PoolLabel (storing samplePlatform)) :=
  [.run i .ok, .run i .ok, .run i (.uuid id), .run i .ok, .run i .ok, .run i .ok, .run i .ok,
    .run i (.answer true)]

/-- Alice calls twice at once, and both calls look for a record before one is written. -/
def raceRun : Option (Pool (storing samplePlatform)) :=
  storingFrom samplePlatform (fun _ _ => true) sampleClock ([
    .spawn sampleRequest, .spawn sampleRequest, .run 0 (.answer true), .run 1 (.answer true),
    .run 0 .ok, .run 1 .ok] ++ storeLabels 0 sampleRow.messageID ++
    storeLabels 1 laterRow.messageID)

theorem raceRun_isSome : raceRun.isSome := by rfl

theorem stored_twice : ∃ p, (Pool.machine (storing samplePlatform)).Reachable p ∧
    (∀ x ∈ p.threads, x.1.senderId = "alice") ∧ ¬ StoredOnce "dm:alice:bob" "c1" p := by
  refine ⟨_, (storingFrom_reach (Option.some_get raceRun_isSome).symm).reachable, ?_, ?_⟩
  · have all : (raceRun.get raceRun_isSome).threads.all (fun x => x.1.senderId = "alice") := by
      rfl
    exact fun x hx => of_decide_eq_true (List.all_eq_true.mp all x hx)
  · intro once
    have first : (raceRun.get raceRun_isSome).shared.db.messages.lookup sampleRow.key =
        some ⟨sampleRow, none⟩ := by rfl
    have second : (raceRun.get raceRun_isSome).shared.db.messages.lookup laterRow.key =
        some ⟨laterRow, none⟩ := by rfl
    have same := once.row sampleRow laterRow ⟨⟨_, first, rfl⟩, rfl, rfl⟩
      ⟨⟨_, second, rfl⟩, rfl, rfl⟩
    exact absurd same (by decide)

end GenChat.Ledger
