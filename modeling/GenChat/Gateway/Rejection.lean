import GenChat.Gateway.Acknowledgement
import GenChat.Gateway.ChannelIsolation

/-!
# Rejected sends

`handleSendMessage` checks the fields of a frame before it stores anything, but asks who is in the
channel only after the message is stored and acknowledged; and the ledger records the author of a
message before its row. So an error may follow on traces of the message exactly where the frame
gets as far as being stored: in every such state if the ledger may fail, and otherwise where the
row or the sender is turned away.
-/
namespace GenChat.Gateway
open Library Ledger Router

/-! ## Rejections -/

def Op.rejects (u : String) : Op → Prop
  | .sendToUser v (.error _ _) => v = u
  | _ => False

/-- The ledger has got no message, author or dedup row. -/
structure Untouched (s t : Server) : Prop where
  messages : t.db.messages = s.db.messages
  authors : t.db.authors = s.db.authors
  clientDedup : t.db.clientDedup = s.db.clientDedup

/-- The operation does not fail. -/
def Calm : Op → Choice → Prop
  | .rpcRequest _, c | .rpcReply _, c => c = .answer true
  | _, c => c ≠ .fail ∧ c ≠ .failApplied

instance (op : Op) (c : Choice) : Decidable (Calm op c) := by
  cases op <;> first
    | exact (inferInstance : Decidable (c = .answer true))
    | exact (inferInstance : Decidable (c ≠ .fail ∧ c ≠ .failApplied))

section Rejection
variable (S : Platform) (r : Router) (s : Server) (conn : Conn)

/-- Wherever the operations are `calm` and the sender is sent an error, nothing is left behind. -/
def RejectedCleanly (calm : Op → Choice → Prop) (data : Json) : Prop :=
  ∀ trace res t, Executes (system S) (r.handleSendMessage S conn data) s trace res t →
    (∀ x ∈ trace, calm x.1 x.2) → (∃ x ∈ trace, Op.rejects conn.userID x.1) →
    Untouched s t ∧ ∀ x ∈ trace, ¬ x.1.acknowledges

/-- The frame is complete, and no message was stored for it before. -/
def InboundFrame.New (frame : InboundFrame) : Prop :=
  frame.channelID ≠ "" ∧ frame.Exposed r s conn

/-- ScyllaDB takes the row. -/
def StoreMessageRequest.Fits (req : StoreMessageRequest) : Prop :=
  req.messageIndex < 2 ^ 31 ∧ Server.acceptsTTL req.ephemeralTtlSec

instance : DecidablePred StoreMessageRequest.Fits := fun req =>
  inferInstanceAs (Decidable (req.messageIndex < 2 ^ 31 ∧ _))

/-- The members that the lookup in `handleSendMessage` finds if it does not fail. -/
def foundMembers (ch : String) : List String :=
  if r.channelClient then (s.members S (trimPrefix ch "chan_")).getD [] else []

/-- The request that the frame makes of the ledger. -/
def InboundFrame.request (frame : InboundFrame) : StoreMessageRequest :=
  storeRequest conn frame (Base64.decodeString frame.ciphertextB64).1

/-- The channel is not one for the sender. -/
def InboundFrame.Closed (frame : InboundFrame) : Prop :=
  hasPrefix frame.channelID "chan_" ∧
    if foundMembers S r s frame.channelID = [] then frame.channelID ≠ "chan_public"
    else conn.userID ∉ foundMembers S r s frame.channelID

/-- The row does not fit, or the channel is not one for the sender. -/
def InboundFrame.TurnedAway (frame : InboundFrame) : Prop :=
  ¬ StoreMessageRequest.Fits (frame.request conn) ∨ frame.Closed S r s conn

end Rejection

section Send
variable {S : Platform} {r : Router} {s t : Server} {conn : Conn} {data : Json}
  {calm : Op → Choice → Prop}

/-! ## Frames that are not stored -/

/-- The dedup query for the message finds a record. -/
def Op.Finds (msg : Message) : (op : Op) → Ret op → Prop
  | .queryDedup m, found => m = msg → found ≠ .ok none
  | .queryDedupLegacy m, found => m = msg → found ≠ .ok none
  | _, _ => True

theorem finds {msg : Message} {record : DedupRecord}
    (known : s.db.selectDedup s.clock msg.conversationID msg.clientMsgID = some record) {op : Op}
    {c : Choice} {answer : Ret op} (hr : s.exec S op c = some (answer, t)) :
    op.Finds msg answer := by
  cases op <;> try trivial
  case queryDedup msg =>
    rintro rfl rfl
    obtain ⟨-, ⟨-, found⟩ | ⟨-, ⟨⟩⟩⟩ := Server.query_eq_some.mp hr
    exact nomatch known.symm.trans (Except.ok.inj found).symm
  case queryDedupLegacy msg =>
    rintro rfl rfl
    obtain ⟨-, ⟨-, found⟩ | ⟨-, ⟨⟩⟩⟩ := Server.query_eq_some.mp hr
    exact nomatch known.symm.trans (Option.map_eq_none_iff.mp (Except.ok.inj found).symm)

section Known
variable (req : StoreMessageRequest) {φ : Op → Prop} (request : φ (.rpcRequest .storeMessage))
  (reply : φ (.rpcReply .storeMessage)) (query : φ (.queryDedup (LedgerHandler.message req)))
  (legacy : φ (.queryDedupLegacy (LedgerHandler.message req)))
include request reply query legacy

/-- A message with a dedup record is looked up, and nothing else. -/
theorem storeMessage_known : (LedgerClient.storeMessage S req).AllIf
    (Op.Finds (LedgerHandler.message req)) φ fun answer => ∀ stored, answer = .ok stored →
      stored.deduplicated = true :=
  (storeMessage_allIf request reply query legacy (fun found => absurd rfl (found rfl))
    (fun found => absurd rfl (found rfl)) (fun _ _ _ => not_false)
    fun miss => absurd trivial miss).mono (fun _ _ => id) (fun _ => id)
      fun _ known => known (.inl trivial)

end Known

/-- A send that was stored before changes nothing, and is acknowledged or rejected. -/
theorem executes_stored {frame : InboundFrame} {payload : Bytes} {record : DedupRecord}
    (known : s.db.selectDedup s.clock (getConversationID conn.userID frame.channelID)
      frame.clientMsgID = some record) {trace : List (Op × Choice)} {res : Except RelayError Unit}
    (run : Executes (system S) (r.storeAndAcknowledge S conn frame payload) s trace res t)
    (rejected : ∃ x ∈ trace, Op.rejects conn.userID x.1) :
    Untouched s t ∧ ∀ x ∈ trace, ¬ x.1.acknowledges := by
  let Quiet (op : Op) : Prop := op.silent ∧ ¬ op.rejects conn.userID ∧ ¬ op.acknowledges
  obtain ⟨first, answer, u, later, stores, acks, rfl⟩ := executes_bind.mp run
  have step (v : Server) (op : Op) (c : Choice) (answer : Ret op) (w : Server) (same : v = s)
      (quiet : Quiet op) (_ : True) (hr : (system S).exec v op c = some (answer, w)) :
      op.Finds (LedgerHandler.message (storeRequest conn frame payload)) answer ∧ w = s := by
    subst same
    exact ⟨finds known hr, @Server.exec_silent S v w op c answer quiet.1 hr⟩
  obtain ⟨quiet, dedup, rfl⟩ := stores.allIf (P := fun v => v = s)
    (storeMessage_known _ (φ := Quiet) ⟨trivial, id, id⟩ ⟨trivial, id, id⟩ ⟨trivial, id, id⟩
      ⟨trivial, id, id⟩) rfl (fun _ _ => trivial) step
  obtain ⟨x, hx, rejects⟩ := rejected
  cases answer with
  | error err =>
    obtain ⟨c, _, _, _, hr, done, rfl⟩ := executes_call.mp acks
    obtain ⟨rfl, -, rfl⟩ := executes_pure.mp done
    obtain ⟨-, rfl⟩ := Server.done_eq_some.mp hr
    refine ⟨⟨rfl, rfl, rfl⟩, fun y hy => ?_⟩
    rcases List.mem_append.mp hy with early | late
    · exact (quiet y early).2.2
    · rw [List.mem_singleton.mp late]
      exact id
  | ok stored =>
    obtain ⟨c, _, _, _, hr, done, rfl⟩ := executes_call.mp acks
    dsimp only [Prog.pure_bind] at done
    rw [if_pos (dedup stored rfl)] at done
    obtain ⟨rfl, -, rfl⟩ := executes_pure.mp done
    rcases List.mem_append.mp hx with early | late
    · exact absurd rejects (quiet x early).2.1
    · rw [List.mem_singleton.mp late] at rejects
      exact rejects.elim

/-- A frame that is not stored is rejected cleanly, whatever fails. -/
theorem clean_of_not_new
    (old : ¬ ∃ frame ∈ InboundFrame.unmarshal data, frame.New r s conn) :
    RejectedCleanly S r s conn calm data := by
  refine handleSendMessage_cases (P := fun p => ∀ trace res t, Executes (system S) p s trace res t →
    (∀ x ∈ trace, calm x.1 x.2) → (∃ x ∈ trace, Op.rejects conn.userID x.1) →
      Untouched s t ∧ ∀ x ∈ trace, ¬ x.1.acknowledges) data ?_ ?_
  · rintro code msg trace res t run - -
    obtain ⟨c, _, _, _, hr, done, rfl⟩ := executes_call.mp run
    obtain ⟨rfl, -, rfl⟩ := executes_pure.mp done
    obtain ⟨-, rfl⟩ := Server.done_eq_some.mp hr
    exact ⟨⟨rfl, rfl, rfl⟩, List.forall_mem_singleton.mpr id⟩
  · rintro frame payload read hch hc given decodes ledger trace res t run - rejected
    cases known : s.db.selectDedup s.clock (getConversationID conn.userID frame.channelID)
        frame.clientMsgID with
    | some record => exact executes_stored known run rejected
    | none =>
      exact absurd ⟨frame, read, hch, hc, given, by rw [decodes], ledger, known⟩ old

/-! ## Frames that are stored -/

/-- A fresh id whose author is not recorded either. -/
theorem exists_unrecorded (s : Server) (k : String) : ∃ id : UUID,
    s.issued.lookup id.text = none ∧ s.db.authors.lookup (k, id.text) = none := by
  obtain ⟨text, fresh⟩ := Infinite.exists_notMem_finset
    (s.issued.keys.toFinset ∪ (s.db.authors.keys.map Prod.snd).toFinset)
  refine ⟨⟨0, text⟩, AList.lookup_eq_none.mpr fun mem => fresh ?_,
    AList.lookup_eq_none.mpr fun mem => fresh ?_⟩
  · exact Finset.mem_union_left _ (List.mem_toFinset.mpr mem)
  · exact Finset.mem_union_right _
      (List.mem_toFinset.mpr (List.mem_map.mpr ⟨(k, text), mem, rfl⟩))

/-- Nothing fails, but for the insertion of the row. -/
def CalmBut (insert : Choice) (op : Op) (c : Choice) : Prop :=
  Calm op c ∨ (∃ row, op = .insertRow row) ∧ c = insert

theorem calmBut_ok {op : Op} {c : Choice} (h : CalmBut .ok op c) : Calm op c := by
  rcases h with calm | ⟨⟨row, rfl⟩, rfl⟩
  · exact calm
  · exact ⟨nofun, nofun⟩

/-- What a send leaves behind at least: the author under the id of the message. -/
structure Leaves (k : String) (id : UUID) (s t : Server) : Prop where
  author : t.db.authors.lookup (k, id.text) ≠ none
  members : t.channelMembers = s.channelMembers

theorem Leaves.not_untouched {k : String} {id : UUID} (h : Leaves k id s t)
    (unrecorded : s.db.authors.lookup (k, id.text) = none) : ¬ Untouched s t := by
  intro same
  rw [← same.authors] at unrecorded
  exact h.author unrecorded

section Store
variable {req : StoreMessageRequest} {id : UUID}

theorem acceptsRow_draft {seq : Int} {now : Nat} :
    Server.acceptsRow { LedgerHandler.draft S (LedgerHandler.message req) seq now with
      messageID := id } = true ↔ StoreMessageRequest.Fits req := by
  rw [Server.acceptsRow, Bool.and_eq_true_iff, decide_eq_true_iff]
  rfl

variable {insert : Choice} {row : StoredMessage} (chosen : insert = .ok ∨ insert = .fail)
include chosen

theorem can_storeNew :
    Can (system S) (CalmBut insert) (fun answer t =>
      Leaves row.conversationID row.messageID s t ∧ answer =
        if insert = .ok ∧ Server.acceptsRow row then .ok row
        else .error ⟨.internal, "failed to insert message"⟩)
      (LedgerHandler.storeNew row) s := by
  let Q (stored : Except StoreError Unit) (t : Server) : Prop :=
    Leaves row.conversationID row.messageID s t ∧
      stored = if insert = .ok ∧ Server.acceptsRow row then .ok () else .error .failed
  have inserts (u : Server) (left : Leaves row.conversationID row.messageID s u) :
      Can (system S) (CalmBut insert) Q (.call (.insertRow row) .pure) u := by
    have kept (v : Server) (authors : v.db.authors = u.db.authors)
        (members : v.channelMembers = u.channelMembers) :
        Leaves row.conversationID row.messageID s v :=
      ⟨by rw [authors]; exact left.author, members.trans left.members⟩
    by_cases fits : Server.acceptsRow row = true
    · rcases chosen with rfl | rfl
      · exact Can.call .ok (.ok ()) _ (.inr ⟨⟨row, rfl⟩, rfl⟩) (if_pos fits)
          ⟨kept _ rfl rfl, by simp [fits]⟩
      · exact Can.call .fail (.error .failed) _ (.inr ⟨⟨row, rfl⟩, rfl⟩) (if_pos fits)
          ⟨left, by simp⟩
    · exact Can.call insert (.error .failed) _ (.inr ⟨⟨row, rfl⟩, rfl⟩) (if_neg fits)
        ⟨left, by simp [fits]⟩
  have author (u : Server) (members : u.channelMembers = s.channelMembers) :
      Can (system S) (CalmBut insert) Q
        (.call (.recordAuthor row.conversationID row.messageID.text row.senderID)
          fun _ => .call (.insertRow row) .pure) u := by
    refine Can.call .ok (.ok ()) _ (.inl ⟨nofun, nofun⟩) rfl (inserts _ ⟨?_, members⟩)
    simp [Store.insertAuthor]
  have all : Can (system S) (CalmBut insert) Q (insertMessage row) s := by
    unfold insertMessage
    split
    · exact Can.call .ok (.ok ()) _ (.inl ⟨nofun, nofun⟩) rfl (author _ rfl)
    · exact author s rfl
  refine Can.bind (all.mono fun stored t ⟨left, known⟩ => ?_)
  subst known
  by_cases success : insert = .ok ∧ Server.acceptsRow row = true
  · simp only [if_pos success]
    by_cases fits : Server.acceptsTTL row.ephemeralTTLSec = true
    · exact Can.call .ok (.ok ()) _ (.inl ⟨nofun, nofun⟩) (if_pos fits)
        ⟨⟨left.author, left.members⟩, rfl⟩
    · exact Can.call .ok (.error .failed) _ (.inl ⟨nofun, nofun⟩) (if_neg fits)
        ⟨left, rfl⟩
  · simp only [if_neg success]
    exact ⟨left, rfl⟩

variable (req) in
/-- A new message is stored unless its row is not inserted. -/
theorem can_storeMessage
    (new : s.db.selectDedup s.clock req.conversationId req.clientMsgId = none)
    (fresh : s.issued.lookup id.text = none) :
    Can (system S) (CalmBut insert) (fun answer t => Leaves req.conversationId id s t ∧
      if insert = .ok ∧ StoreMessageRequest.Fits req
      then ∃ stored, answer = .ok stored ∧ stored.deduplicated = false
      else ∃ err, answer = .error err) (LedgerClient.storeMessage S req) s := by
  let Q (answer : Except Status StoredMessage) (t : Server) : Prop :=
    Leaves req.conversationId id s t ∧
      if insert = .ok ∧ StoreMessageRequest.Fits req
      then ∃ m, answer = .ok m ∧ m.deduplicated = false
      else answer = .error ⟨.internal, "failed to insert message"⟩
  have direct : Can (system S) (CalmBut insert) Q
      (LedgerHandler.storeMessageDirect S (LedgerHandler.message req)) s := by
    refine Can.call .ok (.ok none) s (.inl ⟨nofun, nofun⟩)
      (Server.query_eq_some.mpr ⟨rfl, .inl ⟨rfl, congrArg _ new.symm⟩⟩) ?_
    refine Can.call .ok (.ok ((s.seqs.lookup req.conversationId).getD 0 + 1)) _
      (.inl ⟨nofun, nofun⟩) rfl ?_
    refine Can.call .ok s.clock _ (.inl ⟨nofun, nofun⟩) rfl ?_
    refine Can.call (.uuid id) id _ (.inl ⟨nofun, nofun⟩) (if_pos fresh) ?_
    refine (can_storeNew chosen).mono fun answer t ⟨left, known⟩ => ?_
    refine ⟨⟨left.author, left.members⟩, ?_⟩
    by_cases fits : insert = .ok ∧ StoreMessageRequest.Fits req
    · rw [if_pos fits]
      exact ⟨_, known.trans (if_pos (fits.imp_right acceptsRow_draft.mpr)), rfl⟩
    · rw [if_neg fits]
      exact known.trans (if_neg fun h => fits (h.imp_right acceptsRow_draft.mp))
  refine Can.bind (Can.call (.answer true) true s (.inl rfl) rfl ?_)
  change Can _ _ _ (Prog.bind (LedgerHandler.storeMessage S req) _) _
  refine Can.bind (Can.bind (direct.mono fun answer t known => ?_))
  obtain ⟨left, known⟩ := known
  split at known
  · obtain ⟨m, rfl, hm⟩ := known
    refine Can.call (.answer true) true t (.inl rfl) rfl ⟨left, ?_⟩
    rw [if_pos ‹_›]
    exact ⟨_, rfl, hm⟩
  · subst known
    refine Can.call (.answer true) true t (.inl rfl) rfl ⟨left, ?_⟩
    rw [if_neg ‹_›]
    exact ⟨_, rfl⟩

end Store

/-! ## Channels -/

section Channel
variable {frame : InboundFrame} {n : Int} {push : Frame}

variable (r conn frame n push) in
/-- `pushToChannel` once the members are looked up. -/
def pushToFound (memberIDs : List String) : Handled :=
  if memberIDs ≠ [] then
    if conn.userID ∉ memberIDs then
      sendError conn "FORBIDDEN" "user is not a member of this channel"
    else (pushToMembers r conn frame.channelID n push memberIDs).bind fun _ => .pure (.ok ())
  else if frame.channelID = "chan_public" then
    .call (.broadcastAll conn.userID push) fun _ => .pure (.ok ())
  else sendError conn "CHANNEL_NOT_FOUND" "channel members could not be resolved"

theorem pushToChannel_eq : r.pushToChannel conn frame.channelID n push =
    if r.channelClient then
      .call (.getChannelMembers (trimPrefix frame.channelID "chan_")) fun found => match found with
        | .ok memberIDs => pushToFound r conn frame n push memberIDs
        | .error _ => pushToFound r conn frame n push []
    else pushToFound r conn frame n push [] := by
  unfold pushToChannel
  by_cases client : r.channelClient = true
  · simp only [client, if_true]
    refine congrArg _ (funext fun found => ?_)
    cases found <;> rfl
  · simp only [client]
    rfl

theorem pushToFound_closed (closed : frame.Closed S r s conn) : ∃ code msg,
    pushToFound r conn frame n push (foundMembers S r s frame.channelID) =
      sendError conn code msg := by
  obtain ⟨-, closed⟩ := closed
  unfold pushToFound
  split at closed
  · rename_i none
    exact ⟨_, _, by rw [if_neg (not_not_intro none), if_neg closed]⟩
  · rename_i some
    exact ⟨_, _, by rw [if_pos some, if_pos closed]⟩

/-- A push to a channel that is closed to the sender is rejected. -/
theorem executes_closed (closed : frame.Closed S r s conn) : ∃ trace res, Executes (system S)
      (r.pushToChannel conn frame.channelID n push) s trace res s ∧
      (∀ x ∈ trace, Calm x.1 x.2) ∧ ∃ x ∈ trace, Op.rejects conn.userID x.1 := by
  obtain ⟨code, msg, refused⟩ := @pushToFound_closed S r s conn frame n push closed
  have send : Executes (system S) (sendError conn code msg) s
      [(.sendToUser conn.userID (.error code msg), .ok)] (.error ⟨code, msg⟩) s :=
    .call rfl (.pure _ _)
  rw [← refused] at send
  have free (x : Op × Choice)
      (hx : x ∈ [(Op.sendToUser conn.userID (.error code msg), Choice.ok)]) : Calm x.1 x.2 := by
    rw [List.mem_singleton.mp hx]
    exact ⟨nofun, nofun⟩
  rw [pushToChannel_eq]
  by_cases client : r.channelClient = true
  · rw [if_pos client]
    rw [foundMembers, if_pos client] at send
    refine ⟨(.getChannelMembers (trimPrefix frame.channelID "chan_"), .ok) :: _,
      .error ⟨code, msg⟩, ?run,
      List.forall_mem_cons.mpr ⟨⟨nofun, nofun⟩, free⟩, _,
      List.mem_cons_of_mem _ (List.mem_singleton_self _), rfl⟩
    case run =>
      cases found : s.members S (trimPrefix frame.channelID "chan_") with
      | none =>
        rw [found] at send
        have hr : s.exec S (.getChannelMembers (trimPrefix frame.channelID "chan_")) .ok =
            some (.error .failed, s) := by simp [Server.exec, found, Server.query]
        exact .call hr send
      | some memberIDs =>
        rw [found] at send
        have hr : s.exec S (.getChannelMembers (trimPrefix frame.channelID "chan_")) .ok =
            some (.ok memberIDs, s) := by simp [Server.exec, found, Server.query]
        exact .call hr send
  · rw [if_neg client]
    rw [foundMembers, if_neg client] at send
    exact ⟨_, _, send, free, _, List.mem_singleton_self _, rfl⟩

end Channel

section New
variable {frame : InboundFrame} (read : InboundFrame.unmarshal data = some frame)
  (new : frame.New r s conn)
include read new

theorem handleSendMessage_new : r.handleSendMessage S conn data =
    r.storeAndAcknowledge S conn frame (Base64.decodeString frame.ciphertextB64).1 := by
  obtain ⟨hch, hc, hp, decodes, ledger, -⟩ := new
  simp [handleSendMessage, read, hch, hc, hp, decodes, ledger]

/-- A new frame whose row is not inserted is rejected, and its author stays. -/
theorem unclean_of_not_inserted {insert : Choice} (chosen : insert = .ok ∨ insert = .fail)
    (lost : ¬ (insert = .ok ∧ StoreMessageRequest.Fits (frame.request conn))) :
    ¬ RejectedCleanly S r s conn (CalmBut insert) data := by
  intro clean
  obtain ⟨id, fresh, unrecorded⟩ := exists_unrecorded s
    (getConversationID conn.userID frame.channelID)
  obtain ⟨trace, answer, t, run, calm, left, known⟩ := (can_storeMessage (S := S)
    (frame.request conn) chosen new.2.2.2.2.2 fresh).executes
  rw [if_neg lost] at known
  obtain ⟨err, rfl⟩ := known
  obtain ⟨last, res, send, sent⟩ : ∃ x res, Executes (system S)
      (sendError conn "PERSISTENCE_FAILED" "message could not be stored") t [x] res t ∧
      CalmBut insert x.1 x.2 ∧ Op.rejects conn.userID x.1 :=
    ⟨(_, .ok), _, .call rfl (.pure _ _), .inl ⟨nofun, nofun⟩, rfl⟩
  have whole : Executes (system S) (r.handleSendMessage S conn data) s (trace ++ [last]) res t := by
    rw [handleSendMessage_new read new]
    exact executes_bind.mpr ⟨trace, _, t, _, run, send, rfl⟩
  refine left.not_untouched unrecorded (clean _ _ _ whole ?_ ?_).1
  · intro x hx
    rcases List.mem_append.mp hx with early | late
    · exact calm x early
    · rw [List.mem_singleton.mp late]
      exact sent.1
  · exact ⟨last, List.mem_append_right _ (List.mem_singleton_self _), sent.2⟩

/-- A new frame for a channel that is closed to the sender is acknowledged before it is rejected. -/
theorem unclean_of_closed (fits : StoreMessageRequest.Fits (frame.request conn))
    (closed : frame.Closed S r s conn) : ¬ RejectedCleanly S r s conn Calm data := by
  intro clean
  obtain ⟨id, fresh, unrecorded⟩ := exists_unrecorded s
    (getConversationID conn.userID frame.channelID)
  obtain ⟨trace, answer, t, run, calm, left, known⟩ := (can_storeMessage (S := S)
    (frame.request conn) (.inl rfl) new.2.2.2.2.2 fresh).executes
  rw [if_pos ⟨rfl, fits⟩] at known
  obtain ⟨stored, rfl, hs⟩ := known
  have rejects : ∃ later res, Executes (system S) (r.acknowledge conn frame stored) t later res t ∧
      (∀ x ∈ later, Calm x.1 x.2) ∧ ∃ x ∈ later, Op.rejects conn.userID x.1 := by
    have kept : foundMembers S r t frame.channelID = foundMembers S r s frame.channelID := by
      rw [foundMembers, foundMembers, Server.members, Server.members, left.members]
    have closed' : frame.Closed S r t conn := by
      rw [InboundFrame.Closed, kept]
      exact closed
    obtain ⟨later, res, answered, calm', x, hx, rejected⟩ := @executes_closed S r t conn frame
      stored.sequenceNum (.push {
        channelID := frame.channelID
        senderID := conn.userID
        ciphertextB64 := frame.ciphertextB64
        messageType := frame.messageType
        serverID := stored.messageID
        serverTime := unix t.clock
        ephemeralTTLSec := frame.ephemeralTTLSec
        replyToMessageID := frame.replyToMessageID
        clientMsgID := frame.clientMsgID }) closed'
    refine ⟨(.sendToUser _ _, .ok) :: (.now, .ok) :: later, res, .call (r := ()) rfl ?_,
      List.forall_mem_cons.mpr ⟨⟨by rintro ⟨⟩, by rintro ⟨⟩⟩,
        List.forall_mem_cons.mpr ⟨⟨by rintro ⟨⟩, by rintro ⟨⟩⟩, calm'⟩⟩, x,
      List.mem_cons_of_mem _ (List.mem_cons_of_mem _ hx), rejected⟩
    dsimp only [Prog.pure_bind]
    rw [if_neg (by rw [hs]; rintro ⟨⟩)]
    refine .call (r := t.clock) rfl ?_
    dsimp only [Prog.pure_bind]
    rw [if_pos closed.1]
    exact answered
  obtain ⟨later, res, answered, calm', x, hx, rejected⟩ := rejects
  have whole : Executes (system S) (r.handleSendMessage S conn data) s (trace ++ later) res t := by
    rw [handleSendMessage_new read new]
    exact executes_bind.mpr ⟨trace, _, t, _, run, answered, rfl⟩
  refine left.not_untouched unrecorded (clean _ _ _ whole ?_ ?_).1
  · intro x hx
    rcases List.mem_append.mp hx with early | late
    · exact calmBut_ok (calm x early)
    · exact calm' x late
  · exact ⟨x, List.mem_append_right _ hx, rejected⟩

end New

/-! ## Frames that nobody turns away -/

variable (S s) in
/-- What an operation answers if it does not fail. -/
def Op.Works : (op : Op) → Ret op → Prop
  | .rpcRequest _, reached | .rpcReply _, reached => reached = true
  | .queryDedup _, found => ∃ record, found = .ok record
  | .incrSeq _, counted => ∃ seq, counted = .ok seq
  | .insertRow row, stored => Server.acceptsRow row → stored = .ok ()
  | .getChannelMembers id, found => found = (s.members S id).elim (.error .failed) .ok
  | _, _ => True

theorem works {u v : Server} {op : Op} {c : Choice} {answer : Ret op}
    (members : u.channelMembers = s.channelMembers) (calm : Calm op c)
    (hr : u.exec S op c = some (answer, v)) :
    op.Works S s answer ∧ v.channelMembers = s.channelMembers := by
  refine ⟨?_, ?_⟩
  · cases op with
    | rpcRequest | rpcReply =>
      obtain ⟨rfl, -⟩ := Server.ask_eq_some.mp hr
      exact Choice.answer.inj calm
    | queryDedup =>
      obtain ⟨-, ⟨-, rfl⟩ | ⟨rfl, -⟩⟩ := Server.query_eq_some.mp hr
      · exact ⟨_, rfl⟩
      · exact absurd rfl calm.1
    | incrSeq =>
      cases c with
      | ok => cases hr; exact ⟨_, rfl⟩
      | fail => exact absurd rfl calm.1
      | failApplied => exact absurd rfl calm.2
      | _ => cases hr
    | insertRow row =>
      intro fits
      rw [Server.exec, if_pos fits] at hr
      obtain ⟨-, rfl, -⟩ | ⟨rfl, -⟩ | ⟨rfl, -⟩ := Server.write_eq_some.mp hr
      · rfl
      · exact absurd rfl calm.1
      · exact absurd rfl calm.2
    | getChannelMembers id =>
      have same : u.members S id = s.members S id := by rw [Server.members, members, Server.members]
      rw [Server.exec, same] at hr
      cases found : s.members S id with
      | none =>
        rw [found] at hr
        cases hr
        rw [Op.Works, found]
        rfl
      | some memberIDs =>
        rw [found] at hr
        obtain ⟨-, ⟨-, rfl⟩ | ⟨rfl, -⟩⟩ := Server.query_eq_some.mp hr
        · rw [Op.Works, found]
          rfl
        · exact absurd rfl calm.1
    | _ => trivial
  · rw [← members]
    rcases Server.exec_cases hr with rfl | rfl | ⟨k, -, rfl⟩ | ⟨draft, id, -, -, rfl⟩ <;> rfl

theorem storeMessage_works {req : StoreMessageRequest} {φ : Op → Prop}
    (stores : ∀ op, Stores (S := S) req op → φ op) (fits : StoreMessageRequest.Fits req) :
    (LedgerClient.storeMessage S req).AllIf (Op.Works S s) φ
      fun answer => ∃ stored, answer = .ok stored := by
  have row (seq : Int) (now : Nat) (id : UUID) : (LedgerHandler.storeNew
      { LedgerHandler.draft S (LedgerHandler.message req) seq now with messageID := id }).AllIf
      (Op.Works S s) φ fun answer => ∃ m, answer = .ok m := by
    let row := { LedgerHandler.draft S (LedgerHandler.message req) seq now with messageID := id }
    have inserts : (insertMessage row).AllIf (Op.Works S s) φ fun stored => stored = .ok () := by
      have insert : (Prog.call (Op.insertRow row) .pure : Proc (Except StoreError Unit)).AllIf
          (Op.Works S s) φ fun stored => stored = .ok () :=
        ⟨stores _ ⟨seq, now, id, rfl⟩, fun stored hr => hr (acceptsRow_draft.mpr fits)⟩
      unfold insertMessage
      split
      · exact ⟨stores _ ⟨rfl, rfl⟩, fun _ _ => ⟨stores _ ⟨rfl, rfl⟩, fun _ _ => insert⟩⟩
      · exact ⟨stores _ ⟨rfl, rfl⟩, fun _ _ => insert⟩
    refine inserts.bind ?_
    rintro _ rfl
    exact ⟨stores _ ⟨rfl, rfl, rfl⟩, fun _ _ => ⟨_, rfl⟩⟩
  have direct : (LedgerHandler.storeMessageDirect S (LedgerHandler.message req)).AllIf
      (Op.Works S s) φ fun answer => ∃ m, answer = .ok m := by
    refine Prog.AllIf.bind (Q := fun found => ∃ record, found = .ok record)
      ⟨stores _ rfl, ?_⟩ ?_
    · rintro _ ⟨record, rfl⟩
      exact ⟨record, rfl⟩
    · rintro _ ⟨record, rfl⟩
      cases record with
      | some record => exact ⟨_, rfl⟩
      | none =>
        refine ⟨stores _ rfl, ?_⟩
        rintro _ ⟨seq, rfl⟩
        exact ⟨stores _ trivial, fun now _ => ⟨stores _ ⟨seq, now, rfl⟩, fun id _ => row _ _ _⟩⟩
  have store : (LedgerHandler.storeMessage S req).AllIf (Op.Works S s) φ
      fun answer => ∃ resp, answer = .ok resp := by
    refine direct.bind ?_
    rintro _ ⟨m, rfl⟩
    exact ⟨_, rfl⟩
  refine (allIf_rpc (stores (.rpcRequest .storeMessage) trivial)
    (stores (.rpcReply .storeMessage) trivial) nofun nofun store).bind ?_
  rintro _ ⟨resp, rfl⟩
  exact ⟨_, rfl⟩

section Push
variable {frame : InboundFrame} {n : Int} {push : PushFrame}

@[simp] theorem not_rejects_push {u v : String} : ¬ Op.rejects u (.sendToUser v (.push push)) := id

@[simp] theorem not_rejects_broadcastAll {u v : String} {frame : Frame} :
    ¬ Op.rejects u (.broadcastAll v frame) := id

@[simp] theorem not_rejects_isUserOnlineCluster {u v : String} :
    ¬ Op.rejects u (.isUserOnlineCluster v) := id

@[simp] theorem not_rejects_isBlocked {u v w : String} : ¬ Op.rejects u (.isBlocked v w) := id

@[simp] theorem not_rejects_notifyOffline {u v ch : String} {n : Nat} :
    ¬ Op.rejects u (.notifyOffline v ch n) := id

theorem pushToMembers_quiet (memberIDs : List String) :
    (pushToMembers r conn frame.channelID n (.push push) memberIDs).All
      fun op => ¬ op.rejects conn.userID := by
  induction memberIDs with
  | nil => trivial
  | cons uid rest ih => simp [pushToMembers, Prog.all_ite, ih]

theorem pushToPeer_quiet (u : String) : (r.pushToPeer conn u n (.push push)).All
    fun op => ¬ op.rejects conn.userID := by
  simp [pushToPeer, blocks, Prog.ite_bind, Prog.all_ite]

theorem pushToFound_quiet (admitted : ¬ frame.Closed S r s conn)
    (chan : hasPrefix frame.channelID "chan_" = true) :
    (pushToFound r conn frame n (.push push) (foundMembers S r s frame.channelID)).All
      fun op => ¬ op.rejects conn.userID := by
  unfold pushToFound
  split
  · rename_i some
    have member : ¬ conn.userID ∉ foundMembers S r s frame.channelID :=
      fun absent => admitted ⟨chan, by rwa [if_neg some]⟩
    rw [if_neg member]
    exact (pushToMembers_quiet _).bind fun _ => trivial
  · rename_i none
    have isPublic : frame.channelID = "chan_public" :=
      not_not.mp fun other => admitted ⟨chan, by rwa [if_pos (not_not.mp none)]⟩
    rw [if_pos isPublic]
    simp

theorem pushToChannel_works (admitted : ¬ frame.Closed S r s conn)
    (chan : hasPrefix frame.channelID "chan_" = true) :
    (r.pushToChannel conn frame.channelID n (.push push)).AllIf (Op.Works S s)
      (fun op => ¬ op.rejects conn.userID) fun _ => True := by
  have quiet : (pushToFound r conn frame n (.push push)
      (foundMembers S r s frame.channelID)).AllIf (Op.Works S s)
      (fun op => ¬ op.rejects conn.userID) fun _ => True := (pushToFound_quiet admitted chan).allIf
  rw [pushToChannel_eq]
  by_cases client : r.channelClient = true
  · rw [if_pos client]
    rw [foundMembers, if_pos client] at quiet
    refine ⟨id, ?_⟩
    rintro _ rfl
    cases found : s.members S (trimPrefix frame.channelID "chan_") with
    | none =>
      rw [found] at quiet
      exact quiet
    | some memberIDs =>
      rw [found] at quiet
      exact quiet
  · rw [if_neg client]
    rw [foundMembers, if_neg client] at quiet
    exact quiet

end Push

/-- A send that fits and that its channel admits is never rejected, if nothing fails. -/
theorem storeAndAcknowledge_works {frame : InboundFrame} {payload : Bytes}
    (fits : StoreMessageRequest.Fits (storeRequest conn frame payload))
    (admitted : ¬ frame.Closed S r s conn) :
    (r.storeAndAcknowledge S conn frame payload).AllIf (Op.Works S s)
      (fun op => ¬ op.rejects conn.userID) fun _ => True := by
  have free {op : Op} (h : Stores (S := S) (storeRequest conn frame payload) op) :
      ¬ op.rejects conn.userID := by
    cases op <;> first | exact id | exact h.elim
  refine (storeMessage_works (fun op => free) fits).bind ?_
  rintro _ ⟨stored, rfl⟩
  refine ⟨id, fun _ _ => ?_⟩
  dsimp only [Prog.pure_bind]
  split
  · trivial
  · refine ⟨id, fun time _ => ?_⟩
    dsimp only [Prog.pure_bind]
    split
    · exact pushToChannel_works admitted ‹_›
    · exact (pushToPeer_quiet _).allIf

/-- A new frame that nobody turns away is not rejected, if nothing fails. -/
theorem clean_of_admitted {frame : InboundFrame} (read : InboundFrame.unmarshal data = some frame)
    (new : frame.New r s conn) (fits : StoreMessageRequest.Fits (frame.request conn))
    (admitted : ¬ frame.Closed S r s conn) : RejectedCleanly S r s conn Calm data := by
  intro trace res t run calm ⟨x, hx, rejected⟩
  rw [handleSendMessage_new read new] at run
  have quiet := run.allIf (P := fun u : Server => u.channelMembers = s.channelMembers)
    (storeAndAcknowledge_works fits admitted) rfl calm fun u op c answer v members _ calm hr =>
      works members calm hr
  exact absurd rejected (quiet.1 x hx)

end Send

/-- Rejected sends leave no trace exactly where the frame is not stored as a new message, if
operations may fail, and else also where its row fits and its channel is not closed to the
sender. -/
theorem rejected_cleanly (S : Platform) (r : Router) (s : Server) (conn : Conn) (data : Json) :
    (RejectedCleanly S r s conn (fun _ _ => True) data ↔
      ¬ ∃ frame ∈ InboundFrame.unmarshal data, frame.New r s conn) ∧
    (RejectedCleanly S r s conn Calm data ↔
      ¬ ∃ frame ∈ InboundFrame.unmarshal data,
        frame.New r s conn ∧ frame.TurnedAway S r s conn) := by
  refine ⟨⟨?_, clean_of_not_new⟩, ?_, fun kept => ?_⟩
  · rintro clean ⟨frame, read, new⟩
    exact unclean_of_not_inserted read new (.inr rfl) (fun h => nomatch h.1)
      fun trace res t run _ => clean trace res t run fun _ _ => trivial
  · rintro clean ⟨frame, read, new, away⟩
    by_cases fits : StoreMessageRequest.Fits (frame.request conn)
    · exact unclean_of_closed read new fits (away.resolve_left (not_not_intro fits)) clean
    · exact unclean_of_not_inserted read new (.inl rfl) (fun h => fits h.2)
        fun trace res t run calm => clean trace res t run fun x hx => calmBut_ok (calm x hx)
  · by_cases new : ∃ frame ∈ InboundFrame.unmarshal data, frame.New r s conn
    · obtain ⟨frame, read, new⟩ := new
      have admitted : ¬ frame.TurnedAway S r s conn := fun away => kept ⟨frame, read, new, away⟩
      exact clean_of_admitted read new (not_not.mp fun h => admitted (.inl h))
        fun h => admitted (.inr h)
    · exact clean_of_not_new new

def outsiderSend : Json := .object [("action", .string "send_message"),
  ("channel_id", .string sampleChannel), ("client_msg_id", .string "c1"),
  ("ciphertext_base64", .string "AQID")]

def outsiderSendChoices : List Choice := [.answer true, .ok, .ok, .ok,
  .uuid sampleRow.messageID, .ok, .ok, .ok, .ok, .answer true, .ok, .ok, .ok, .ok]

def outsiderSendRun : Option (List (Op × Choice) × Except RelayError Unit × Server) :=
  play (system samplePlatform) (sampleRouter.handleSendMessage samplePlatform
    ⟨"mallory", .json⟩ outsiderSend) membersServer outsiderSendChoices

theorem outsiderSendRun_isSome : outsiderSendRun.isSome := by rfl

/-- Mallory's message to a channel of others is stored and acknowledged, then rejected. -/
theorem rejected_message_stored : ∃ p,
    (Pool.machine (gateway samplePlatform sampleRouter)).Reachable p ∧
    ¬ RejectedCleanly samplePlatform sampleRouter p.shared ⟨"mallory", .json⟩ Calm
      outsiderSend := by
  refine ⟨membersRun.get (by rfl), runFrom_reach (Option.some_get _).symm, fun clean => ?_⟩
  let out := outsiderSendRun.get outsiderSendRun_isSome
  have run : Executes (system samplePlatform) (sampleRouter.handleSendMessage samplePlatform
      ⟨"mallory", .json⟩ outsiderSend) membersServer out.1 out.2.1 out.2.2 :=
    Executes.of_play outsiderSendChoices (Option.some_get outsiderSendRun_isSome).symm
  have rejected : ∃ x ∈ out.1, Op.rejects "mallory" x.1 :=
    ⟨out.1.get ⟨13, by decide⟩, List.get_mem _ _, by rfl⟩
  have same := (clean _ _ _ run (by decide) rejected).1.messages
  exact absurd (congrArg (·.entries.length) same) (by decide)

end GenChat.Gateway
