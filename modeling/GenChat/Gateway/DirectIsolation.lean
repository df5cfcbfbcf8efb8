import GenChat.Gateway.History
import GenChat.Ledger.Storing

/-!
# One-to-one conversations

JSON frames reach the ledger only through `getConversationID`, so the conversation of two users is
closed to everybody else on that path: its rows, receipts and events stem from frames of the two,
and nobody else is shown a row of it. `handleProtoSendMessage` stores under the conversation id
the client sends. As long as no other user names the conversation there, it stays closed.
-/
namespace GenChat.Gateway
open Library Ledger Router

/-! ## Conversation keys -/

theorem toList_hasPrefix {s pre : String} (h : hasPrefix s pre = true) :
    ∃ rest, s.toList = pre.toList ++ rest := by
  obtain ⟨rest, hrest⟩ := List.isPrefixOf_iff_prefix.mp h
  exact ⟨rest, hrest.symm⟩

/-- The key of a direct conversation is that of its two users. -/
theorem getConversationID_direct {u v : String} (hv : hasPrefix v "chan_" = false) :
    ∃ x y, (x = u ∧ y = v ∨ x = v ∧ y = u) ∧
      (getConversationID u v).toList = "dm:".toList ++ x.toList ++ ':' :: y.toList := by
  unfold getConversationID
  rw [if_neg (by simp [hv])]
  split
  · exact ⟨u, v, .inl ⟨rfl, rfl⟩, by simp⟩
  · exact ⟨v, u, .inr ⟨rfl, rfl⟩, by simp⟩

/-- Only the two users of a direct conversation can derive its key. -/
theorem user_of_getConversationID {a b u ch : String} (ha : ':' ∉ a.toList) (hb : ':' ∉ b.toList)
    (direct : hasPrefix b "chan_" = false)
    (h : getConversationID u ch = getConversationID a b) : u ∈ [a, b] := by
  obtain ⟨x, y, names, key⟩ := getConversationID_direct (u := a) direct
  have hx : ':' ∉ x.toList := by rcases names with ⟨rfl, -⟩ | ⟨rfl, -⟩ <;> assumption
  have hy : ':' ∉ y.toList := by rcases names with ⟨-, rfl⟩ | ⟨-, rfl⟩ <;> assumption
  rw [← h] at key
  cases channel : hasPrefix ch "chan_" with
  | true =>
    obtain ⟨rest, hrest⟩ := toList_hasPrefix channel
    rw [getConversationID, if_pos channel, hrest] at key
    simp at key
  | false =>
    obtain ⟨x', y', names', key'⟩ := getConversationID_direct (u := u) channel
    rw [key', List.append_assoc, List.append_assoc, List.append_cancel_left_eq] at key
    obtain ⟨left, -, right⟩ := (List.append_cons_inj_of_notMem hx hy).mp key.symm
    have hx' : x = x' := String.toList_inj.mp left
    have hy' : y = y' := String.toList_inj.mp right
    rcases names' with ⟨rfl, -⟩ | ⟨-, rfl⟩ <;> rcases names with ⟨rfl, rfl⟩ | ⟨rfl, rfl⟩ <;>
      simp [hx', hy']

/-- Ids of users name no channel, and no pair of users. -/
structure UserID (id : String) : Prop where
  single : ':' ∉ id.toList
  direct : hasPrefix id "chan_" = false

theorem getConversationID_comm {a b : String} (ha : hasPrefix a "chan_" = false)
    (hb : hasPrefix b "chan_" = false) : getConversationID a b = getConversationID b a := by
  have sorted {u v : String} (hv : hasPrefix v "chan_" = false) : getConversationID u v =
      if u < v then "dm:" ++ u ++ ":" ++ v else "dm:" ++ v ++ ":" ++ u := by
    rw [getConversationID, if_neg (by simp [hv])]
  rw [sorted hb, sorted ha]
  by_cases less : a < b
  · rw [if_pos less, if_neg (String.lt_asymm less)]
  · by_cases greater : b < a
    · rw [if_neg less, if_pos greater]
    · have same : a = b := String.le_antisymm (String.not_lt.mp greater) (String.not_lt.mp less)
      rw [same]

/-- The key of a direct conversation tells its two users. -/
theorem users_of_getConversationID {a b c d : String} (ha : UserID a) (hb : UserID b)
    (hd : UserID d) (h : getConversationID a b = getConversationID c d) :
    a = c ∧ b = d ∨ a = d ∧ b = c := by
  obtain ⟨x, y, names, key⟩ := getConversationID_direct (u := a) hb.direct
  obtain ⟨x', y', names', key'⟩ := getConversationID_direct (u := c) hd.direct
  have hx : ':' ∉ x.toList := by rcases names with ⟨rfl, -⟩ | ⟨rfl, -⟩ <;> exact UserID.single ‹_›
  have hy : ':' ∉ y.toList := by rcases names with ⟨-, rfl⟩ | ⟨-, rfl⟩ <;> exact UserID.single ‹_›
  rw [h, key', List.append_assoc, List.append_assoc, List.append_cancel_left_eq] at key
  obtain ⟨left, -, right⟩ := (List.append_cons_inj_of_notMem hx hy).mp key.symm
  obtain rfl : x = x' := String.toList_inj.mp left
  obtain rfl : y = y' := String.toList_inj.mp right
  rcases names with ⟨rfl, rfl⟩ | ⟨rfl, rfl⟩ <;> rcases names' with ⟨rfl, rfl⟩ | ⟨rfl, rfl⟩ <;> simp

/-- The key of a channel is no key of a direct conversation. -/
theorem getConversationID_ne_channel {a b t : String} (hb : hasPrefix b "chan_" = false)
    (channel : hasPrefix t "chan_" = true) (e : String) :
    getConversationID a b ≠ getConversationID e t := by
  intro same
  obtain ⟨x, y, -, key⟩ := getConversationID_direct (u := a) hb
  obtain ⟨rest, hrest⟩ := toList_hasPrefix channel
  rw [same, getConversationID, if_pos channel, hrest] at key
  simp at key

/-- The conversation whose rows or events the operation reads. -/
def Op.readsFrom : Op → Option String
  | .selectMessages k _ _ _ | .selectAuthor k _ | .selectEvents k _ => some k
  | .queryDedup msg | .queryDedupLegacy msg => some msg.conversationID
  | _ => none

/-- The operation reads no conversation but `k`. -/
def Op.ReadsOnly (k : String) (op : Op) : Prop := ∀ k' ∈ op.readsFrom, k' = k

theorem fetchMessages_reads {S : Platform} (k bucket before : String) (limit : Int) :
    (LedgerClient.fetchMessages S k bucket limit before).All (Op.ReadsOnly k) := by
  have select {bucket : String} {limit : Int} {cursor : Option UUID} :
      (Op.selectMessages k bucket limit cursor).ReadsOnly k := fun _ same => (Option.some.inj same).symm
  have fetch {bucket : String} {limit : Int} :
      (rpc .fetchMessages (LedgerHandler.fetchMessages S k bucket limit before)).All
        (Op.ReadsOnly k) :=
    all_rpc (by rintro _ ⟨⟩) (by rintro _ ⟨⟩) ⟨select, fun found => by cases found <;> trivial⟩
  rw [LedgerClient.fetchMessages]
  split
  · exact ⟨by rintro _ ⟨⟩, fun time => fetch.bind fun answer => by cases answer <;> trivial⟩
  · exact fetch.bind fun answer => by cases answer <;> trivial

theorem fetchMessageEvents_reads (k mid : String) :
    (LedgerClient.fetchMessageEvents k mid).All (Op.ReadsOnly k) := by
  refine all_rpc nofun nofun ?_
  unfold LedgerHandler.fetchMessageEvents
  split
  · trivial
  · exact ⟨fun _ same => (Option.some.inj same).symm, fun found => by cases found <;> trivial⟩

/-- `handleFetchHistory` reads the conversation of its user and its target, and no other. -/
theorem handleFetchHistory_reads {S : Platform} {r : Router} {conn : Conn} {data : Json}
    {frame : FetchHistoryFrame} (read : FetchHistoryFrame.unmarshal data = some frame) :
    (r.handleFetchHistory S conn data).All
      (Op.ReadsOnly (getConversationID conn.userID frame.channelID)) := by
  have refuse (code msg : String) : (sendError conn code msg).All
      (Op.ReadsOnly (getConversationID conn.userID frame.channelID)) := ⟨by rintro _ ⟨⟩, fun _ => trivial⟩
  have respond : (respondHistory S conn frame).All
      (Op.ReadsOnly (getConversationID conn.userID frame.channelID)) := by
    refine ⟨by rintro _ ⟨⟩, fun time => (fetchMessages_reads _ _ _ _).bind fun answer => ?_⟩
    cases answer with
    | error err => exact refuse _ _
    | ok msgs =>
      exact (fetchMessageEvents_reads _ _).bind fun events => ⟨by rintro _ ⟨⟩, fun _ => trivial⟩
  rw [handleFetchHistory, read]
  dsimp only
  split
  · exact refuse _ _
  split
  · exact refuse _ _
  split
  · refine ⟨by rintro _ ⟨⟩, fun found => ?_⟩
    cases found with
    | error err => exact refuse _ _
    | ok memberIDs =>
      dsimp only [Prog.pure_bind]
      split
      · exact refuse _ _
      · exact respond
  · exact respond

/-- Both users of a direct conversation, and nobody else, derive its key, which is the one their
histories are read under and no key of another pair or of a channel. -/
theorem conversation_symmetric_injective {a b c d : String} (ha : UserID a) (hb : UserID b)
    (hd : UserID d) :
    getConversationID a b = getConversationID b a ∧
    (getConversationID a b = getConversationID c d → a = c ∧ b = d ∨ a = d ∧ b = c) ∧
    (∀ e t, hasPrefix t "chan_" = true → getConversationID a b ≠ getConversationID e t) ∧
    (∀ u ch, getConversationID u ch = getConversationID a b → u ∈ [a, b]) ∧
    ∀ (S : Platform) (r : Router) (conn : Conn) (data : Json) (frame : FetchHistoryFrame),
      FetchHistoryFrame.unmarshal data = some frame → (r.handleFetchHistory S conn data).All
        (Op.ReadsOnly (getConversationID conn.userID frame.channelID)) := by
  refine ⟨getConversationID_comm ha.direct hb.direct, users_of_getConversationID ha hb hd,
    fun e t channel => getConversationID_ne_channel hb.direct channel e,
    fun u ch => user_of_getConversationID ha.single hb.single hb.direct, ?_⟩
  intro S r conn data frame read
  exact handleFetchHistory_reads read

theorem conversation_symmetric_injective_sample :
    getConversationID "alice" "al" = getConversationID "al" "alice" ∧
    (getConversationID "alice" "al" = getConversationID "bob" "bob" →
      "alice" = "bob" ∧ "al" = "bob" ∨ "alice" = "bob" ∧ "al" = "bob") ∧
    (∀ e t, hasPrefix t "chan_" = true →
      getConversationID "alice" "al" ≠ getConversationID e t) ∧
    (∀ u ch, getConversationID u ch = getConversationID "alice" "al" → u ∈ ["alice", "al"]) ∧
    ∀ (S : Platform) (r : Router) (conn : Conn) (data : Json) (frame : FetchHistoryFrame),
      FetchHistoryFrame.unmarshal data = some frame → (r.handleFetchHistory S conn data).All
        (Op.ReadsOnly (getConversationID conn.userID frame.channelID)) :=
  conversation_symmetric_injective ⟨by decide, by decide⟩ ⟨by decide, by decide⟩
    ⟨by decide, by decide⟩

/-! ## Contents of a conversation -/

inductive Entry where
  | row (m : StoredMessage)
  | receipt (conversationID userID : String) (receipt : Receipt)
  | event (key : EventKey) (columns : EventColumns)

namespace Entry

def conversationID : Entry → String
  | row m => m.conversationID
  | receipt k _ _ => k
  | event key _ => key.conversationID

/-- The ledger holds the entry. -/
def In (db : Store) : Entry → Prop
  | row m => db.Holds m
  | receipt k u r => db.receipts.lookup (k, u) = some r
  | event key columns => db.events.lookup key = some columns

/-- The operation writes the entry. -/
def WrittenBy : Entry → Op → Prop
  | row m, .insertRow new => m = new
  | receipt k u _, .updateDelivered k' u' _ _ | receipt k u _, .updateRead k' u' _ _ =>
    (k, u) = (k', u')
  | event key columns, .insertEvent k mid type actor ct =>
    key = ⟨k, mid, type⟩ ∧ columns.actorID = actor ∧ columns.newCiphertext = ct
  | _, _ => False

theorem written {S : Platform} {s s' : Server} {op : Op} {c : Choice} {r : Ret op} {e : Entry}
    (h : s.exec S op c = some (r, s')) (he : e.In s'.db) : e.In s.db ∨ e.WrittenBy op := by
  rcases Server.exec_db h with same | applied
  · exact .inl (by rwa [same] at he)
  · cases e with
    | row m => exact (Server.exec_holds h he).imp id fun written => by subst written; rfl
    | receipt k u rcpt =>
      rw [applied] at he
      cases op with
      | updateDelivered | updateRead =>
        exact (lookup_insert_cases he).imp id And.left
      | _ => exact .inl he
    | event key columns =>
      rw [applied] at he
      cases op with
      | insertEvent =>
        refine (lookup_insert_cases he).imp id fun same => ?_
        obtain ⟨rfl, rfl⟩ := same
        exact ⟨rfl, rfl, rfl⟩
      | _ => exact .inl he

end Entry

/-- The conversation whose rows, receipts or events the operation writes. -/
def Op.writesTo : Op → Option String
  | .insertRow row => some row.conversationID
  | .updateDelivered k _ _ _ | .updateRead k _ _ _ | .insertEvent k _ _ _ _ => some k
  | _ => none

theorem Entry.WrittenBy.writesTo {e : Entry} {op : Op} (h : e.WrittenBy op) :
    op.writesTo = some e.conversationID := by
  cases e <;> cases op <;> first | exact h.elim | skip
  case row.insertRow =>
    cases (show _ = _ from h)
    rfl
  case receipt.updateDelivered | receipt.updateRead =>
    cases (show (_, _) = (_, _) from h)
    rfl
  case event.insertEvent =>
    cases h.1
    rfl

/-! ## Isolation -/

/-- The frame is a protobuf `send_message`. -/
def Inbound.ProtoSends (S : Platform) (t : Inbound) (act : SendMessageAction) : Prop :=
  (t.conn.wireFormat = .protobuf ∨ isProtobufPayload t.data) ∧ ∃ packet action,
    decodePacket S t.data = some packet ∧ packet.payload = .clientAction action ∧
      action.action = .sendMessage act

/-- The frame is a protobuf `send_message` that gets as far as the ledger, under the key `k`. -/
def Inbound.ProtoStores (S : Platform) (r : Router) (t : Inbound) (k : String) : Prop :=
  ∃ act, t.ProtoSends S act ∧ act.conversationId = k ∧ act.conversationId ≠ "" ∧
    act.clientMsgId ≠ "" ∧ act.encryptedPayload ≠ [] ∧ r.ledger = true

section Isolation
variable (S : Platform) (r : Router) (a b : String)

/-- Nobody but `a` and `b` names their conversation in a protobuf `send_message`. -/
def KeepsOut (_ : Pool (gateway S r)) : PoolLabel (gateway S r) → Prop
  | .spawn t => t.ProtoStores S r (getConversationID a b) → t.conn.userID ∈ [a, b]
  | _ => True

structure DirectIsolated (p : Pool (gateway S r)) : Prop where
  /-- What the conversation holds was written for a frame of one of the two. -/
  written : ∀ e : Entry, e.In p.shared.db → e.conversationID = getConversationID a b →
    ∃ x ∈ p.log, e.WrittenBy x.2 ∧ x.1.conn.userID ∈ [a, b]
  /-- Nobody else got a history response with a row of it. -/
  hidden : ∀ x ∈ p.log, ∀ u ch messages, x.2 = .sendToUser u (.history ch messages) →
    u ∉ [a, b] → ∀ m, p.shared.db.Holds m → m.conversationID = getConversationID a b →
      m.messageID.text ∉ messages.map HistoryMessageDTO.serverID

/-- The operation writes only to conversations that `u` derives, or to `keys`. -/
def Writes (u : String) (keys : String → Prop) (op : Op) : Prop :=
  ∀ k ∈ op.writesTo, (∃ ch, k = getConversationID u ch) ∨ keys k

variable {S r a b}

theorem Writes.of_annotates {u : String} {keys : String → Prop} {op : Op} (h : Annotates u op) :
    Writes u keys op := by
  cases op <;> rintro k ⟨⟩
  case insertRow => exact h.elim
  case updateDelivered | updateRead | insertEvent =>
    obtain ⟨-, ch, -, rfl⟩ := h
    exact .inl ⟨ch, rfl⟩

theorem Writes.of_silent {u : String} {keys : String → Prop} {op : Op} (h : op.silent) :
    Writes u keys op := by
  cases op <;> first | exact h.elim | exact nofun

theorem Writes.of_stores {u : String} {keys : String → Prop} {req : StoreMessageRequest}
    (key : (∃ ch, req.conversationId = getConversationID u ch) ∨ keys req.conversationId) {op : Op}
    (h : Stores (S := S) req op) : Writes u keys op := by
  cases op <;> rintro k ⟨⟩ <;> try exact h.elim
  obtain ⟨seq, now, id, rfl⟩ := h
  exact key

/-- Every handler writes under keys that its user derives, or under the key that a protobuf send
names. -/
theorem handle_writes (t : Inbound) :
    (r.Handle S t.conn t.data).All (Writes t.conn.userID (t.ProtoStores S r)) := by
  have silent (p : Handled) (h : p.All Op.plain) :
      p.All (Writes t.conn.userID (t.ProtoStores S r)) :=
    h.mono fun _ plain => Writes.of_silent plain.silent
  refine handle_cases _ (fun p h => h.mono fun _ routine => Writes.of_annotates routine.annotates)
    (fun j _ _ => ?send) (fun j => (handleDeleteMessage_all j).mono fun _ => Writes.of_annotates)
    (fun j => (handleEditMessage_all j).mono fun _ => Writes.of_annotates)
    (fun j => (handleFetchHistory_all j).mono fun _ h => Writes.of_silent (Shows.silent h))
    fun packet action act binary decoded payload sends => ?protoSend
  case send =>
    refine handleSendMessage_cases j (fun _ _ => silent _ (sendError_all _ _))
      fun frame payload _ hch _ _ _ _ => ?_
    refine ((storeMessage_all _).mono fun _ => Writes.of_stores (.inl ⟨_, rfl⟩)).bind
      fun answer => ?_
    cases answer with
    | error err => exact silent _ (sendError_all _ _)
    | ok stored =>
      exact acknowledge_all (Writes.of_silent trivial) fun _ plain => Writes.of_silent plain.silent
  case protoSend =>
    refine handleProtoSendMessage_cases _ _ act (fun _ _ => silent _ (sendProtoError_all _ _ _))
      (fun hk hc hp ledger => ?_) fun _ _ _ _ => ?_
    · have names : t.ProtoStores S r act.conversationId :=
        ⟨act, ⟨binary, packet, action, decoded, payload, sends⟩, rfl, hk, hc, hp, ledger⟩
      refine ((storeMessage_all _).mono fun _ => Writes.of_stores (.inr names)).bind
        fun answer => ?_
      cases answer with
      | error err => exact silent _ (sendProtoError_all _ _ _)
      | ok stored =>
        exact protoAcknowledge_all (fun _ => Writes.of_silent trivial)
          fun _ plain => Writes.of_silent plain.silent
    · exact ⟨Writes.of_silent trivial, fun time => protoAcknowledge_all
        (fun _ => Writes.of_silent trivial) fun _ plain => Writes.of_silent plain.silent⟩

/-! ## Shown rows -/

/-- Rows carry the ids they were given, and a history response shows rows of a conversation of its
user. -/
def shownContract (S : Platform) (t : Inbound) : Contract (system S) where
  inv := Server.Recorded
  rely s s' := ∀ id m, s.issued.lookup id = some m → s'.issued.lookup id = some m
  rely_refl _ _ _ h := h
  rely_trans h h' _ _ issued := h' _ _ (h _ _ issued)
  admits _ _ _ := True
  req s
    | .insertRow row => s.issued.lookup row.messageID.text = some row
    | .sendToUser u (.history _ messages) => u = t.conn.userID ∧ ∀ dto ∈ messages, ∃ m ch,
      s.issued.lookup dto.serverID = some m ∧ m.conversationID = getConversationID u ch
    | _ => True

theorem shown_of_annotates {t : Inbound} {op : Op} (h : Annotates t.conn.userID op) (s : Server) :
    (shownContract S t).req s op := by
  cases op with
  | sendToUser u frame => cases frame <;> first | exact h.elim | trivial
  | insertRow => exact h.elim
  | _ => trivial

theorem meets_shown {t : Inbound} {p : Handled} (h : p.All (Annotates t.conn.userID)) (s : Server) :
    Meets (shownContract S t) (fun _ _ => True) p s :=
  Meets.of_free (h.mono fun _ => shown_of_annotates)

theorem storeMessage_shown (t : Inbound) (req : StoreMessageRequest) (s : Server) :
    Meets (shownContract S t) (Succeeds fun _ _ => True) (LedgerClient.storeMessage S req) s := by
  refine meets_storeMessage (fun op h s => ?_) (fun _ _ _ _ _ => trivial)
    (fun _ _ _ _ _ _ => trivial) (fun _ _ _ _ _ _ => trivial) fun s seq now id => ?_
  · cases op <;> first | exact h.elim | trivial
  · intro row issued
    -- The fresh id stays with the row while others run, so the row may be inserted.
    have all : (LedgerHandler.storeNew row).All fun op =>
        op = .insertRow row ∨ ∀ s, (shownContract S t).req s op :=
      storeNew_all (fun _ => .inr fun _ => trivial) (.inl rfl) (.inr fun _ => trivial)
    have kept : Meets (shownContract S t) (fun _ s => s.issued.lookup id.text = some row)
        (LedgerHandler.storeNew row) s := by
      refine Meets.of_all (fun _ _ h rely => rely _ _ h)
        (fun _ _ _ _ _ h _ _ hr => @Server.exec_issued S _ _ _ _ _ hr _ _ h)
        (fun s op _ h free => ?_) issued all
      rcases free with rfl | free
      · exact h
      · exact free s
    exact kept.mono fun answer s _ => by cases answer <;> trivial

theorem handleFetchHistory_shown (t : Inbound) (j : Json) (s : Server) :
    Meets (shownContract S t) (fun _ _ => True) (r.handleFetchHistory S t.conn j) s := by
  have refuse (code msg : String) (s : Server) :
      Meets (shownContract S t) (fun _ _ => True) (sendError t.conn code msg) s :=
    meets_shown ((sendError_all _ _).mono fun _ => Op.plain.annotates) s
  have respond (frame : FetchHistoryFrame) (s : Server) :
      Meets (shownContract S t) (fun _ _ => True) (respondHistory S t.conn frame) s := by
    let Shown (m : LedgerMessage) (s : Server) : Prop := ∃ row ch,
      s.issued.lookup m.messageID = some row ∧
        row.conversationID = getConversationID t.conn.userID ch
    have stable (m : LedgerMessage) (s s' : Server) (h : Shown m s)
        (rely : (shownContract S t).rely s s') : Shown m s' := by
      obtain ⟨row, ch, issued, hk⟩ := h
      exact ⟨row, ch, rely _ _ issued, hk⟩
    refine fun u _ _ => ⟨trivial, fun c time v _ _ => ?_⟩
    change Meets _ _ (Prog.bind (LedgerClient.fetchMessages S _ _ _ _) _) v
    have fetched (bucket before : String) (limit : Int) : Meets (shownContract S t)
        (Succeeds fun msgs s => ∀ m ∈ msgs, Shown m s) (LedgerClient.fetchMessages S
          (getConversationID t.conn.userID frame.channelID) bucket limit before) v :=
      meets_fetchMessages (fun op h s => by cases op <;> first | exact h.elim | trivial) stable
        fun s key cell inv found hk _ => ⟨cell.row, _, (inv key cell found).2, hk⟩
    refine Meets.bind ((fetched _ _ _).mono fun answer w known => ?_)
    cases answer with
    | error err => exact refuse _ _ w
    | ok msgs =>
      have looked (k : String) : Meets (shownContract S t) (fun _ s => ∀ m ∈ msgs, Shown m s)
          (LedgerClient.fetchMessageEvents k "") w :=
        Meets.of_all (fun s s' h rely m mem => stable m s s' (h m mem) rely)
          (fun _ _ _ _ _ h plain _ hr => by
            rwa [@Server.exec_silent S _ _ _ _ _ (Op.plain.silent plain) hr])
          (fun s _ _ _ plain => shown_of_annotates (Op.plain.annotates plain) s) known
          (fetchMessageEvents_all _ _)
      refine Meets.bind ((looked _).mono fun events x known => ?_)
      refine fun y hy _ =>
        ⟨⟨rfl, fun dto mem => ?_⟩, fun _ _ _ _ _ => Meets.pure fun _ _ _ => trivial⟩
      obtain ⟨m, hm, rfl⟩ := List.mem_map.mp mem
      obtain ⟨row, ch, issued, hk⟩ := stable m x y (known m hm) hy
      exact ⟨row, ch, by rw [overlay_serverID]; exact issued, hk⟩
  unfold handleFetchHistory
  split
  · exact refuse _ _ s
  · dsimp only
    split
    · exact refuse _ _ s
    · split
      · exact refuse _ _ s
      · split
        · refine fun u _ _ => ⟨trivial, fun c found v _ _ => ?_⟩
          cases found with
          | error err => exact refuse _ _ v
          | ok memberIDs =>
            dsimp only [Prog.pure_bind]
            split
            · exact refuse _ _ v
            · exact respond _ v
        · exact respond _ s

theorem handle_shown (t : Inbound) (s : Server) :
    Meets (shownContract S t) (fun _ _ => True) (r.Handle S t.conn t.data) s := by
  revert s
  have plain (p : Handled) (h : p.All Op.plain) (s : Server) :
      Meets (shownContract S t) (fun _ _ => True) p s :=
    meets_shown (h.mono fun _ => Op.plain.annotates) s
  refine handle_cases _ (fun p h => meets_shown (h.mono fun _ => Routine.annotates))
    (fun j _ _ => ?send) (fun j => meets_shown (handleDeleteMessage_all j))
    (fun j => meets_shown (handleEditMessage_all j)) (fun j => ?history)
    fun packet action act binary decoded payload sends => ?protoSend
  case send =>
    refine handleSendMessage_cases
      (P := fun p => ∀ s, Meets (shownContract S t) (fun _ _ => True) p s) j
      (fun _ _ => plain _ (sendError_all _ _)) fun frame payload _ _ _ _ _ _ s => ?_
    refine Meets.bind ((storeMessage_shown t _ s).mono fun answer s _ => ?_)
    cases answer with
    | error err => exact plain _ (sendError_all _ _) s
    | ok stored =>
      exact Meets.of_free (acknowledge_all (fun _ => trivial) fun _ h =>
        shown_of_annotates h.annotates)
  case history => exact handleFetchHistory_shown t j
  case protoSend =>
    refine handleProtoSendMessage_cases
      (P := fun p => ∀ s, Meets (shownContract S t) (fun _ _ => True) p s)
      _ _ act (fun _ _ => plain _ (sendProtoError_all _ _ _))
      (fun _ _ _ _ s => ?_) fun _ _ _ _ s => ?_
    · refine Meets.bind ((storeMessage_shown t _ s).mono fun answer s _ => ?_)
      cases answer with
      | error err => exact plain _ (sendProtoError_all _ _ _) s
      | ok stored =>
        exact Meets.of_free (protoAcknowledge_all (fun _ _ => trivial) fun _ h =>
          shown_of_annotates h.annotates)
    · exact Meets.of_free ⟨fun _ => trivial, fun time => protoAcknowledge_all
        (fun _ _ => trivial) fun _ h => shown_of_annotates h.annotates⟩

def shownProtocol (S : Platform) (r : Router) (ok) : Pool.Protocol (gateway S r) ok where
  contract := shownContract S
  inv := Server.Recorded
  rely := (shownContract S ⟨⟨"", .json⟩, []⟩).rely
  contract_inv _ := rfl
  contract_rely _ := rfl
  admitted _ _ _ _ _ _ _ _ := trivial
  init s hs := by
    obtain ⟨clock, rfl⟩ := hs
    exact Server.recorded_empty clock
  exec t s op c r s' inv req _ hr :=
    ⟨inv.exec hr fun m h => by subst h; exact req, fun _ _ => Server.exec_issued hr⟩
  env p e s' _ inv he :=
    ⟨inv.change he, fun _ _ h => by rwa [Server.change_issued he]⟩
  body p t _ _ := handle_shown t p.shared

/-! ## The two parts -/

variable {p : Pool (gateway S r)} (hp : (Pool.machine (gateway S r)).Reach (KeepsOut S r a b) p)
include hp

theorem written_by_peer (ha : ':' ∉ a.toList) (hb : ':' ∉ b.toList)
    (direct : hasPrefix b "chan_" = false) {e : Entry} (he : e.In p.shared.db)
    (hk : e.conversationID = getConversationID a b) :
    ∃ x ∈ p.log, e.WrittenBy x.2 ∧ x.1.conn.userID ∈ [a, b] := by
  have peers : ∀ x ∈ p.log, getConversationID a b ∈ x.2.writesTo → x.1.conn.userID ∈ [a, b] := by
    refine Pool.log_all (fun t op => getConversationID a b ∈ op.writesTo → t.conn.userID ∈ [a, b])
      (fun p t ok => (handle_writes t).mono fun op writes mem => ?_) hp
    rcases writes _ mem with ⟨ch, derived⟩ | named
    · exact user_of_getConversationID ha hb direct derived.symm
    · exact ok named
  have empty (s : Server) (e : Entry) (hs : (gateway S r).init s) : ¬ e.In s.db := by
    obtain ⟨clock, rfl⟩ := hs
    cases e with
    | row m =>
      rintro ⟨cell, found, -⟩
      cases found
    | receipt | event => exact nofun
  obtain ⟨x, hx, w⟩ := Pool.written (fun (s : Server) e => Entry.In s.db e)
    (fun op e => e.WrittenBy op) empty (fun _ _ _ _ _ _ hr he => Entry.written hr he)
    (fun _ _ _ _ hc he => by rwa [Server.change_db hc] at he) hp he
  exact ⟨x, hx, w, peers x hx (by rw [← hk]; exact w.writesTo)⟩

theorem history_hidden (ha : ':' ∉ a.toList) (hb : ':' ∉ b.toList)
    (direct : hasPrefix b "chan_" = false) {x : Inbound × Op} (hx : x ∈ p.log) {u ch : String}
    {messages : List HistoryMessageDTO} (sent : x.2 = .sendToUser u (.history ch messages))
    (stranger : u ∉ [a, b]) {m : StoredMessage} (hm : p.shared.db.Holds m)
    (hk : m.conversationID = getConversationID a b) :
    m.messageID.text ∉ messages.map HistoryMessageDTO.serverID := by
  let π := shownProtocol S r (KeepsOut S r a b)
  have recorded := (Pool.safe π hp).1
  have noted := Pool.safe_log π (fun _ op s => ∀ u ch messages,
    op = .sendToUser u (.history ch messages) → ∀ dto ∈ messages, ∃ m ch,
      s.issued.lookup dto.serverID = some m ∧ m.conversationID = getConversationID u ch)
    (fun t s op c r s' _ req _ hr u ch messages h dto mem => ?_)
    (fun t op s s' h rely u ch messages sent dto mem => ?_) hp x hx u ch messages sent
  · rintro mem
    obtain ⟨dto, hdto, same⟩ := List.mem_map.mp mem
    obtain ⟨row, ch, issued, hrow⟩ := noted dto hdto
    rw [same, Server.Recorded.holds recorded hm] at issued
    cases issued
    exact stranger (user_of_getConversationID ha hb direct (hrow.symm.trans hk))
  · have grown (id : String) (m : StoredMessage) (issued : s.issued.lookup id = some m) :
        s'.issued.lookup id = some m := Server.exec_issued hr issued
    subst h
    obtain ⟨-, shown⟩ := req
    obtain ⟨row, ch, issued, hrow⟩ := shown dto mem
    exact ⟨row, ch, grown _ _ issued, hrow⟩
  · obtain ⟨row, ch, issued, hrow⟩ := h u ch messages sent dto mem
    exact ⟨row, ch, rely _ _ issued, hrow⟩

/-- As long as no stranger names the conversation of `a` and `b` in a protobuf send, it belongs to
the two of them in every reachable state. -/
theorem direct_isolation (ha : ':' ∉ a.toList) (hb : ':' ∉ b.toList)
    (direct : hasPrefix b "chan_" = false) : DirectIsolated S r a b p where
  written _ he hk := written_by_peer hp ha hb direct he hk
  hidden _ hx _ _ _ sent stranger _ hm hk := history_hidden hp ha hb direct hx sent stranger hm hk

end Isolation

/-! ## Samples -/

/-- Only these users send frames. -/
def spokenBy {S : Platform} {r : Router} (users : List String) (_ : Pool (gateway S r)) :
    PoolLabel (gateway S r) → Bool
  | .spawn t => t.conn.userID ∈ users
  | _ => true

/-- Alice writes to Bob. -/
def helloRun : Option (Pool (gateway samplePlatform sampleRouter)) :=
  runFrom samplePlatform sampleRouter (fun p l => spokenBy ["alice", "bob"] p l) sampleClock
    helloLabels

theorem helloRun_keepsOut : (Pool.machine (gateway samplePlatform sampleRouter)).Reach
    (KeepsOut samplePlatform sampleRouter "alice" "bob") (helloRun.get (by rfl)) := by
  refine (runFrom_reach (Option.some_get _).symm).mono fun p l spoken => ?_
  cases l with
  | spawn t => exact fun _ => of_decide_eq_true spoken
  | run | env => trivial

theorem direct_isolation_sample :
    (helloRun.get (by rfl)).shared.db.Holds sampleRow ∧
      DirectIsolated samplePlatform sampleRouter "alice" "bob" (helloRun.get (by rfl)) :=
  ⟨⟨⟨sampleRow, none⟩, by rfl, rfl⟩,
    direct_isolation helloRun_keepsOut (by decide) (by decide) (by decide)⟩

/-- `send_message_action` with request id `r1`, conversation id `dm:alice:bob`, client message id
`m1` and the payload `[9]`. -/
def strangerPacket : Bytes :=
  [0x52, 0x1b, 0x0a, 2, 0x72, 0x31, 0x52, 0x15, 0x0a, 12, 0x64, 0x6d, 0x3a, 0x61, 0x6c, 0x69, 0x63,
    0x65, 0x3a, 0x62, 0x6f, 0x62, 0x12, 2, 0x6d, 0x31, 0x1a, 1, 9]

def strangerAction : SendMessageAction := ⟨"dm:alice:bob", "m1", [9], [], 0, ""⟩

def packetPlatform : Platform where
  parseUUID := samplePlatform.parseUUID
  unmarshalPacket data :=
    if data = strangerPacket then some ⟨"", .clientAction ⟨"r1", .sendMessage strangerAction⟩⟩
    else none
  formatBucket := samplePlatform.formatBucket

def strangerRow : StoredMessage :=
  { sampleRow with
    senderID := "mallory", clientMsgID := "m1", encryptedPayload := [9], messageIndex := 1 }

/-- Mallory sends the packet, and it is stored. -/
def strangerRun : Option (Pool (gateway packetPlatform sampleRouter)) :=
  runFrom packetPlatform sampleRouter (fun _ _ => True) sampleClock [
    .spawn ⟨⟨"mallory", .json⟩, strangerPacket⟩, .run 0 (.answer true), .run 0 .ok, .run 0 .ok,
    .run 0 .ok, .run 0 (.uuid strangerRow.messageID), .run 0 .ok, .run 0 .ok, .run 0 .ok]

/-- A stranger writes into the conversation of Alice and Bob. -/
theorem stranger_breaks_in : ∃ p, (Pool.machine (gateway packetPlatform sampleRouter)).Reachable p ∧
    ¬ DirectIsolated packetPlatform sampleRouter "alice" "bob" p := by
  refine ⟨strangerRun.get (by decide), runFrom_reach (Option.some_get _).symm,
    fun isolated => ?_⟩
  obtain ⟨x, hx, -, peer⟩ := isolated.written (.row strangerRow)
    ⟨⟨strangerRow, none⟩, by decide, rfl⟩ (by decide)
  have mallory : ∀ x ∈ (strangerRun.get (by decide)).log, x.1.conn.userID = "mallory" := by decide
  rw [mallory x hx] at peer
  exact absurd peer (by decide)

end GenChat.Gateway
