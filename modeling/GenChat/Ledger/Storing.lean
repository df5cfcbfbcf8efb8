import GenChat.Gateway.Runs

/-!
# Storing a message among other threads

Rules for calls of the ledger under a contract, so that the proof of a caller need not follow the
steps of the call again.
-/
namespace GenChat.Ledger
open Library Gateway LedgerHandler

variable {S : Platform} {C : Contract (system S)} {s : Server}

/-- The postcondition of a call: `Q` of what it returns, unless it fails. -/
def Succeeds {ε α : Type} (Q : α → Server → Prop) : Except ε α → Server → Prop
  | .ok a, s => Q a s
  | .error _, _ => True

theorem meets_rpc {α : Type} {Q : α → Server → Prop} {method : RpcMethod}
    {handler : Proc (Except Status α)}
    (request : ∀ s, C.req s (.rpcRequest method)) (reply : ∀ s, C.req s (.rpcReply method))
    (stable : ∀ a s t, Q a s → C.rely s t → Q a t)
    (h : Meets C (Succeeds Q) handler s) : Meets C (Succeeds Q) (rpc method handler) s := by
  refine fun t ht _ => ⟨request t, fun c reached u _ hr => ?_⟩
  obtain ⟨rfl, rfl⟩ := Server.ask_eq_some.mp hr
  cases reached with
  | false => exact Meets.pure fun _ _ _ => trivial
  | true =>
    change Meets C _ (Prog.bind handler _) _
    refine Meets.bind ((h.stable ht).mono fun answer v hq => ?_)
    refine fun w hw _ => ⟨reply w, fun c arrived x _ hr => ?_⟩
    obtain ⟨rfl, rfl⟩ := Server.ask_eq_some.mp hr
    cases arrived with
    | false => exact Meets.pure fun _ _ _ => trivial
    | true =>
      refine Meets.pure fun y hy _ => ?_
      cases answer with
      | error err => trivial
      | ok a => exact stable a v y hq (C.rely_trans hw hy)

/-! ## `StoreMessage` -/

/-- The ledger never answers `ALREADY_EXISTS`. -/
theorem storeMessage_returns (req : StoreMessageRequest) :
    (rpc .storeMessage (LedgerHandler.storeMessage S req)).Returns
      fun answer => ∀ err, answer = .error err → err.code ≠ .alreadyExists := by
  have new (row : StoredMessage) : (storeNew row).Returns
      fun answer => ∀ err, answer = .error err → err.code ≠ .alreadyExists := by
    refine (Prog.returns_true _).bind fun stored _ => ?_
    cases stored with
    | error err => exact fun _ h => by cases h; exact nofun
    | ok => exact fun _ _ => nofun
  have direct (msg : Message) : (storeMessageDirect S msg).Returns
      fun answer => ∀ err, answer = .error err → err.code ≠ .alreadyExists := by
    refine (Prog.returns_true _).bind fun found _ => ?_
    rcases found with err | _ | record
    · exact fun _ h => by cases h; exact nofun
    · intro counted
      cases counted with
      | error err => exact fun _ h => by cases h; exact nofun
      | ok seq => exact fun _ _ => new _
    · exact nofun
  have store : (LedgerHandler.storeMessage S req).Returns
      fun answer => ∀ err, answer = .error err → err.code ≠ .alreadyExists := by
    refine (direct _).bind fun answer known => ?_
    cases answer with
    | error err => exact fun _ h => by cases h; exact known err rfl
    | ok m => exact nofun
  intro reached
  cases reached with
  | false => exact fun _ h => by cases h; exact nofun
  | true =>
    refine store.bind fun answer known arrived => ?_
    cases arrived with
    | false => exact fun _ h => by cases h; exact nofun
    | true => exact known

/-- The operations of storing a message up to its row. -/
def Op.prepares : Op → Prop
  | .queryDedup _ | .queryDedupLegacy _ | .incrSeq _ | .now | .newUUID _ => True
  | .rpcRequest .storeMessage | .rpcReply .storeMessage => True
  | _ => False

section Store
variable {req : StoreMessageRequest} {Q : StoreMessageResult → Server → Prop}
  (free : ∀ op, Op.prepares op → ∀ s, C.req s op)
  (stable : ∀ a s t, Q a s → C.rely s t → Q a t)
include free

theorem meets_getDedup {P : DedupRecord → Server → Prop}
    (stable : ∀ record s t, P record s → C.rely s t → P record t)
    (hit : ∀ s c record, C.inv s → C.admits s (.queryDedup (message req)) c →
      s.exec S (.queryDedup (message req)) c = some (.ok (some record), s) → P record s)
    (legacy : ∀ s c record, C.inv s → C.admits s (.queryDedupLegacy (message req)) c →
      s.exec S (.queryDedupLegacy (message req)) c = some (.ok (some record), s) → P record s) :
    Meets C (fun found s => ∀ record, found = .ok (some record) → P record s)
      (getDedup (message req)) s := by
  refine fun t _ ht => ⟨free _ (by trivial) t, fun c found u admits hr => ?_⟩
  obtain ⟨rfl, -⟩ := Server.query_eq_some.mp hr
  cases found with
  | ok found =>
    refine Meets.pure fun v hv _ record h => stable record u v ?_ hv
    cases h
    exact hit u c record ht admits hr
  | error err =>
    refine fun v _ hv => ⟨free _ (by trivial) v, fun c found w admits hr => ?_⟩
    obtain ⟨rfl, -⟩ := Server.query_eq_some.mp hr
    cases found with
    | ok found =>
      refine Meets.pure fun x hx _ record h => stable record w x ?_ hx
      cases h
      exact legacy w c record hv admits hr
    | error err => exact Meets.pure fun _ _ _ _ => nofun

include stable

/-- A message that was not stored before gets a fresh id and goes to `storeNew`. -/
theorem meets_storeMessage
    (hit : ∀ s c record, C.inv s → C.admits s (.queryDedup (message req)) c →
      s.exec S (.queryDedup (message req)) c = some (.ok (some record), s) →
      Q ⟨record.messageID.text, record.sequenceNum, true⟩ s)
    (legacy : ∀ s c record, C.inv s → C.admits s (.queryDedupLegacy (message req)) c →
      s.exec S (.queryDedupLegacy (message req)) c = some (.ok (some record), s) →
      Q ⟨record.messageID.text, record.sequenceNum, true⟩ s)
    (new : ∀ s seq now id,
      let row := { draft S (message req) seq now with messageID := id }
      s.issued.lookup id.text = some row →
      Meets C (Succeeds fun m => Q ⟨m.messageID.text, m.sequenceNum, m.deduplicated⟩)
        (storeNew row) s) :
    Meets C (Succeeds Q) (LedgerClient.storeMessage S req) s := by
  have direct : Meets C (Succeeds fun m => Q ⟨m.messageID.text, m.sequenceNum, m.deduplicated⟩)
      (storeMessageDirect S (message req)) s := by
    refine Meets.bind ((meets_getDedup free (fun _ => stable _) hit legacy).mono
      fun found t known => ?_)
    rcases found with err | _ | record
    · exact Meets.pure fun _ _ _ => trivial
    · refine fun u _ _ => ⟨free _ (by trivial) u, fun c counted v _ _ => ?_⟩
      cases counted with
      | error err => exact Meets.pure fun _ _ _ => trivial
      | ok seq =>
        refine fun w _ _ => ⟨free _ (by trivial) w, fun c now x _ _ => ?_⟩
        refine fun y _ _ => ⟨free _ (by trivial) y, fun c id z _ hr => new z seq now id ?_⟩
        obtain ⟨-, rfl⟩ := @Server.newUUID_cases S _ _ _ _ _ hr
        exact AList.lookup_insert _
    · exact Meets.pure fun u hu _ => stable _ t u (known record rfl) hu
  have store : Meets C (Succeeds fun resp =>
      Q ⟨resp.message.messageId, resp.message.sequenceNum, resp.deduplicated⟩)
      (LedgerHandler.storeMessage S req) s := by
    refine Meets.bind (direct.mono fun answer t known => ?_)
    cases answer with
    | error err => exact Meets.pure fun _ _ _ => trivial
    | ok m => exact Meets.pure fun u hu _ => stable _ t u known hu
  have call := meets_rpc (free (.rpcRequest .storeMessage) trivial)
    (free (.rpcReply .storeMessage) trivial) (fun _ => stable _) store
  refine Meets.bind ((call.returns (storeMessage_returns req)).mono fun answer t known => ?_)
  cases answer with
  | error err =>
    simp only [if_neg (known.2 err rfl)]
    exact Meets.pure fun _ _ _ => trivial
  | ok resp => exact Meets.pure fun u hu _ => stable _ t u known.1 hu

end Store

/-! ## `FetchMessages` -/

theorem mem_selectMessages {db : Store} {now : Nat} {k bucket : String} {limit : Int}
    {before : Option UUID} {m : StoredMessage}
    (h : m ∈ db.selectMessages now k bucket limit before) :
    ∃ key cell, db.messages.lookup key = some cell ∧ cell.row.conversationID = k ∧
      m = { cell.row with ephemeralTTLSec := Store.remaining now cell } := by
  obtain ⟨cell, taken, rfl⟩ := List.mem_map.mp h
  obtain ⟨row, known⟩ := List.mem_filter.mp
    ((List.mem_insertionSort _).mp (List.mem_of_mem_take taken))
  obtain ⟨⟨key, cell⟩, entry, rfl⟩ := List.mem_map.mp row
  simp only [decide_eq_true_eq] at known
  exact ⟨key, cell, AList.mem_lookup_iff.mpr entry, known.1, rfl⟩

theorem meets_fetchMessages {k bucket before : String} {limit : Int}
    {P : LedgerMessage → Server → Prop} (free : ∀ op, Router.Op.fetches op → ∀ s, C.req s op)
    (stable : ∀ m s t, P m s → C.rely s t → P m t)
    (selected : ∀ s key cell, C.inv s → s.db.messages.lookup key = some cell →
      cell.row.conversationID = k → ∀ ttlSec,
        P ({ cell.row with ephemeralTTLSec := ttlSec } : StoredMessage).response.ledgerMessage s) :
    Meets C (Succeeds fun msgs s => ∀ m ∈ msgs, P m s)
      (LedgerClient.fetchMessages S k bucket limit before) s := by
  have handler {bucket : String} {limit : Int} (s : Server) : Meets C (Succeeds fun resps s =>
      ∀ m ∈ resps, P m.ledgerMessage s)
      (LedgerHandler.fetchMessages S k bucket limit before) s := by
    refine fun t _ ht => ⟨free _ (by trivial) t, fun c found u _ hr => ?_⟩
    obtain ⟨rfl, ⟨-, rfl⟩ | ⟨-, rfl⟩⟩ := Server.query_eq_some.mp hr
    · refine Meets.pure fun v hv _ resp mem => stable _ u v ?_ hv
      obtain ⟨m, hm, rfl⟩ := List.mem_map.mp mem
      obtain ⟨key, cell, found, hk, rfl⟩ := mem_selectMessages hm
      exact selected u key cell ht found hk _
    · exact Meets.pure fun _ _ _ => trivial
  have call {bucket : String} {limit : Int} (s : Server) :
      Meets C (Succeeds fun msgs s => ∀ m ∈ msgs, P m s) (Prog.bind (rpc .fetchMessages
        (LedgerHandler.fetchMessages S k bucket limit before)) Router.ledgerMessages) s := by
    have reply := meets_rpc (free (.rpcRequest .fetchMessages) trivial)
      (free (.rpcReply .fetchMessages) trivial)
      (fun resps s t h rely m mem => stable _ s t (h m mem) rely)
      (handler s : Meets C _ (LedgerHandler.fetchMessages S k bucket limit before) s)
    refine Meets.bind (reply.mono fun answer t known => ?_)
    cases answer with
    | error err => exact Meets.pure fun _ _ _ => trivial
    | ok resps =>
      refine Meets.pure fun u hu _ m mem => ?_
      obtain ⟨resp, hresp, rfl⟩ := List.mem_map.mp mem
      exact stable _ t u (known resp hresp) hu
  rw [LedgerClient.fetchMessages]
  split
  · exact fun t _ _ => ⟨free _ (by trivial) t, fun c now u _ _ => call u⟩
  · exact call s

end GenChat.Ledger
