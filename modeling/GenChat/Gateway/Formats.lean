import GenChat.Gateway.Footprint

/-!
# The format of what a handler sends

The handlers of JSON frames send JSON frames only, and through the hub; the handlers of packets send
packets only.
-/
namespace GenChat.Gateway
open Library Ledger

def Frame.format : Frame → WireFormat
  | .protoHeartbeat _ _ _ => .protobuf
  | .protoActionAck _ _ _ _ _ _ _ => .protobuf
  | .protoMessageDelivered _ _ _ _ => .protobuf
  | .protoTyping _ _ _ _ => .protobuf
  | .protoReceipt _ _ _ _ _ _ _ => .protobuf
  | _ => .json

/-- What the operation sends is in the format, and nothing but a packet goes past the hub. -/
def Op.sendsIn (format : WireFormat) : Op → Prop
  | .sendToUser _ frame => frame.format = format
  | .connSend frame => frame.format = format ∧ format = .protobuf
  | .broadcastAll _ frame => frame.format = format
  | _ => True

/-! ## Calls of the ledger -/

section Ledger
variable {S : Platform} {format : WireFormat}

theorem storeMessage_sends (req : StoreMessageRequest) :
    (LedgerClient.storeMessage S req).All (Op.sendsIn format) :=
  (storeMessage_all req).mono fun op stores => by
    cases op <;> trivial

theorem fetchMessages_sends (k bucket before : String) (limit : Int) :
    (LedgerClient.fetchMessages S k bucket limit before).All (Op.sendsIn format) :=
  (Router.fetchMessages_all k bucket before limit).mono fun op fetches => by
    cases op <;> trivial

theorem fetchMessageEvents_sends (k mid : String) :
    (LedgerClient.fetchMessageEvents k mid).All (Op.sendsIn format) := by
  refine all_rpc trivial trivial ?_
  unfold LedgerHandler.fetchMessageEvents
  split
  · trivial
  · exact ⟨trivial, fun found => by cases found <;> trivial⟩

theorem getMessageAuthor_sends (k mid : String) :
    (LedgerClient.getMessageAuthor k mid).All (Op.sendsIn format) := by
  refine all_rpc trivial trivial ?_
  unfold LedgerHandler.getMessageAuthor
  split
  · trivial
  · refine ⟨trivial, fun found => ?_⟩
    cases found with
    | error err => trivial
    | ok author =>
      dsimp only [Prog.pure_bind]
      split <;> trivial

theorem recordMessageEvent_sends (k mid type actor : String) (ct : Bytes) :
    (LedgerClient.recordMessageEvent k mid type actor ct).All (Op.sendsIn format) := by
  refine all_rpc trivial trivial ?_
  unfold LedgerHandler.recordMessageEvent
  split
  · trivial
  · exact ⟨trivial, fun found => by cases found <;> trivial⟩

theorem updateReceipt_sends (k u type mid : String) (n : Int) :
    (LedgerClient.updateReceipt S k u type mid n).All (Op.sendsIn format) := by
  refine all_rpc trivial trivial ?_
  unfold LedgerHandler.updateReceipt
  split
  · trivial
  · split
    · exact ⟨trivial, fun found => by cases found <;> trivial⟩
    · split
      · exact ⟨trivial, fun found => by cases found <;> trivial⟩
      · trivial

end Ledger

namespace Router
variable {S : Platform} {r : Router} {conn : Conn} {frame : Frame}

/-! ## JSON handlers -/

attribute [local simp] Prog.ite_bind Prog.all_ite Op.sendsIn

theorem sendError_sends (code msg : String) :
    (sendError conn code msg).All (Op.sendsIn .json) := ⟨rfl, fun _ => trivial⟩

attribute [local simp] sendError_sends

theorem relay_sends (json : frame.format = .json) (ch : String) :
    (r.relayAndEcho conn ch frame).All (Op.sendsIn .json) :=
  relayAndEcho_all (fun _ => trivial) (fun _ => json) (fun _ => json) ch

theorem relayToOthers_sends (json : frame.format = .json) (ch : String) :
    (r.relayToOthers conn ch frame).All (Op.sendsIn .json) :=
  relayToOthers_all (fun _ => trivial) (fun _ => json) (fun _ => json) ch

theorem pushToMembers_sends (json : frame.format = .json) (ch : String) (n : Int)
    (memberIDs : List String) :
    (pushToMembers r conn ch n frame memberIDs).All (Op.sendsIn .json) := by
  induction memberIDs with
  | nil => trivial
  | cons uid rest ih => simp [pushToMembers, json, ih]

theorem pushToChannel_sends (json : frame.format = .json) (ch : String) (n : Int) :
    (r.pushToChannel conn ch n frame).All (Op.sendsIn .json) := by
  have deliver (memberIDs : List String) :
      ((pushToMembers r conn ch n frame memberIDs).bind fun _ => .pure (.ok ()) : Handled).All
        (Op.sendsIn .json) := (pushToMembers_sends json _ _ _).bind fun _ => trivial
  simp [pushToChannel, deliver, json]

theorem pushToPeer_sends (json : frame.format = .json) (u : String) (n : Int) :
    (r.pushToPeer conn u n frame).All (Op.sendsIn .json) := by
  simp [pushToPeer, blocks, json]

theorem handleSendMessage_sends (data : Json) :
    (r.handleSendMessage S conn data).All (Op.sendsIn .json) := by
  refine handleSendMessage_cases data (fun _ _ => sendError_sends _ _) fun frame payload _ _ _ _ _ _
    => (storeMessage_sends _).bind fun answer => ?_
  cases answer with
  | error err => exact sendError_sends _ _
  | ok stored =>
    refine ⟨rfl, fun _ => ?_⟩
    dsimp only [Prog.pure_bind]
    split
    · trivial
    · refine ⟨trivial, fun time => ?_⟩
      dsimp only [Prog.pure_bind]
      split
      · exact pushToChannel_sends rfl _ _
      · exact pushToPeer_sends rfl _ _

theorem handleReaction_sends (data : Json) :
    (r.handleReaction conn data).All (Op.sendsIn .json) := by
  unfold handleReaction
  split
  · simp
  · have relay (ch target u emoji op : String) (time : Nat) :
        ((r.relayAndEcho conn ch (.reaction ch target u emoji op time)).bind
          fun _ => .pure (.ok ()) : Handled).All (Op.sendsIn .json) :=
      (relay_sends rfl ch).bind fun _ => trivial
    simp [blocks, relay]

theorem handleTyping_sends (data : Json) :
    (r.handleTyping conn data).All (Op.sendsIn .json) := by
  unfold handleTyping
  split
  · trivial
  · have relay (ch u : String) (isTyping : Bool) :
        ((r.relayToOthers conn ch (.typing ch u isTyping)).bind fun _ => .pure (.ok ()) :
          Handled).All (Op.sendsIn .json) := (relayToOthers_sends rfl ch).bind fun _ => trivial
    simp [blocks, Frame.format, relay]

theorem broadcastSignal_sends (json : frame.format = .json) (signal : CallSignalInboundFrame) :
    (r.broadcastSignal conn signal frame).All (Op.sendsIn .json) := by
  unfold broadcastSignal
  split
  · exact ⟨json, fun _ => trivial⟩
  · split
    · exact (lookupMembers_all (fun _ => trivial) _).bind fun memberIDs =>
        (sendAll_all (fun _ => json) _).bind fun _ => trivial
    · exact ⟨json, fun _ => trivial⟩

theorem handleCallSignal_sends (data : Json) :
    (r.handleCallSignal conn data).All (Op.sendsIn .json) := by
  unfold handleCallSignal
  split
  · simp
  · rename_i frame _
    have format (signal : CallSignalPushFrame) : (Frame.callSignal signal).format = .json := rfl
    have broadcast (signal : CallSignalPushFrame) :=
      @broadcastSignal_sends r conn (.callSignal signal) rfl frame
    simp [sendSignal, blocks, format, broadcast]

theorem handleEphemeralSetting_sends (data : Json) :
    (r.handleEphemeralSetting conn data).All (Op.sendsIn .json) := by
  unfold handleEphemeralSetting
  split
  · simp
  · have relay (ch u : String) (ttl : Int) (time : Nat) :
        ((r.relayAndEcho conn ch (.ephemeralSetting ch ttl u time)).bind
          fun _ => .pure (.ok ()) : Handled).All (Op.sendsIn .json) :=
      (relay_sends rfl ch).bind fun _ => trivial
    simp [relay]

theorem commitToMembers_sends (json : frame.format = .json) (memberIDs : List String) :
    (commitToMembers conn frame memberIDs).All (Op.sendsIn .json) := by
  induction memberIDs with
  | nil => trivial
  | cons uid rest ih => simp [commitToMembers, json, ih]

theorem handleGroupCommit_sends (data : Json) :
    (r.handleGroupCommit conn data).All (Op.sendsIn .json) := by
  unfold handleGroupCommit
  split
  · simp
  · rename_i frame _
    have commit (ch u d : String) (epoch : Int) (time : Nat) (memberIDs : List String) :
        ((commitToMembers conn (.groupCommit ch u epoch d time) memberIDs).bind
          fun _ => .pure (.ok ()) : Handled).All (Op.sendsIn .json) :=
      (commitToMembers_sends rfl _).bind fun _ => trivial
    have relay (commitBytes : Bytes) (memberIDs : List String) :
        (r.relayCommit conn frame commitBytes memberIDs).All (Op.sendsIn .json) := by
      simp [relayCommit, commit, Frame.format]
    simp only [Prog.all_ite, sendError_sends, implies_true, true_and]
    refine fun _ => (lookupMembers_all (fun _ => trivial) _).bind fun memberIDs => ?_
    split
    · simp
    · exact relay _ _

theorem handleReadReceipt_sends (data : Json) :
    (r.handleReadReceipt S conn data).All (Op.sendsIn .json) := by
  unfold handleReadReceipt
  split
  · trivial
  · rename_i frame _
    have push (msgID : String) (n : Int) (type : String) (time : Nat) :
        (if hasPrefix frame.channelID "chan_" then
          (r.relayToOthers conn frame.channelID (.receipt frame.channelID conn.userID msgID n
            type time)).bind fun _ => .pure (.ok ())
        else .call (.sendToUser frame.channelID (.receipt frame.channelID conn.userID msgID n
          type time)) fun _ => .pure (.ok ()) : Handled).All (Op.sendsIn .json) := by
      split
      · exact (relayToOthers_sends rfl _).bind fun _ => trivial
      · exact ⟨rfl, fun _ => trivial⟩
    dsimp only
    split
    · trivial
    · split
      · exact (updateReceipt_sends _ _ _ _ _).bind fun _ => ⟨trivial, fun time => push _ _ _ _⟩
      · exact ⟨trivial, fun time => push _ _ _ _⟩

theorem handlePinMessage_sends (data : Json) :
    (r.handlePinMessage conn data).All (Op.sendsIn .json) := by
  have record (frame : PinMessageInboundFrame) (messageID : String) :
      (r.pinVerified conn frame messageID).All (Op.sendsIn .json) := by
    unfold pinVerified
    split
    · simp
    · refine (getMessageAuthor_sends _ _).bind fun author => ?_
      cases author with
      | error err => exact sendError_sends _ _
      | ok authorID =>
        dsimp only
        split
        · simp
        · refine (recordMessageEvent_sends _ _ _ _ _).bind fun _ => ⟨trivial, fun time => ?_⟩
          exact (relay_sends rfl _).bind fun _ => ⟨rfl, fun _ => trivial⟩
  unfold handlePinMessage
  split
  · simp
  · dsimp only
    split
    · simp
    · split
      · refine ⟨trivial, fun found => ?_⟩
        cases found with
        | error err => exact sendError_sends _ _
        | ok memberIDs =>
          dsimp only [Prog.pure_bind]
          split
          · simp
          · exact record _ _
      · exact record _ _

theorem handleDeleteMessage_sends (data : Json) :
    (r.handleDeleteMessage conn data).All (Op.sendsIn .json) := by
  have ack (messageID channelID scope : String) :
      (sendToUser conn.userID (.ackDelete messageID channelID scope) : Proc Unit).All
        (Op.sendsIn .json) := ⟨rfl, fun _ => trivial⟩
  unfold handleDeleteMessage
  split
  · simp
  · dsimp only
    split
    · simp
    · split
      · split
        · simp
        · refine (getMessageAuthor_sends _ _).bind fun author => ?_
          cases author with
          | error err => exact sendError_sends _ _
          | ok authorID =>
            dsimp only
            split
            · simp
            · split
              · simp
              · refine Prog.All.bind ?_ fun _ => (ack _ _ _).bind fun _ => trivial
                exact (recordMessageEvent_sends _ _ _ _ _).bind fun _ => ⟨trivial, fun time =>
                  relay_sends rfl _⟩
      · exact (ack _ _ _).bind fun _ => trivial

theorem handleEditMessage_sends (data : Json) :
    (r.handleEditMessage conn data).All (Op.sendsIn .json) := by
  unfold handleEditMessage
  split
  · simp
  · dsimp only
    split
    · simp
    · split
      · simp
      · refine (getMessageAuthor_sends _ _).bind fun author => ?_
        cases author with
        | error err => exact sendError_sends _ _
        | ok authorID =>
          dsimp only
          split
          · simp
          · split
            · simp
            · refine (recordMessageEvent_sends _ _ _ _ _).bind fun _ => ⟨trivial, fun time => ?_⟩
              exact (relay_sends rfl _).bind fun _ => ⟨rfl, fun _ => trivial⟩

theorem handleFetchHistory_sends (data : Json) :
    (r.handleFetchHistory S conn data).All (Op.sendsIn .json) := by
  have respond (frame : FetchHistoryFrame) :
      (respondHistory S conn frame).All (Op.sendsIn .json) := by
    refine ⟨trivial, fun time => (fetchMessages_sends _ _ _ _).bind fun answer => ?_⟩
    cases answer with
    | error err => exact sendError_sends _ _
    | ok msgs =>
      exact (fetchMessageEvents_sends _ _).bind fun events => ⟨rfl, fun _ => trivial⟩
  unfold handleFetchHistory
  split
  · simp
  · dsimp only
    split
    · simp
    · split
      · simp
      · split
        · refine ⟨trivial, fun found => ?_⟩
          cases found with
          | error err => exact sendError_sends _ _
          | ok memberIDs =>
            dsimp only [Prog.pure_bind]
            split
            · simp
            · exact respond _
        · exact respond _

/-! ## Inbound frames -/

theorem handleJson_sends (data : Bytes) : (r.handleJson S conn data).All (Op.sendsIn .json) := by
  unfold handleJson
  split
  · exact sendError_sends _ _
  · unfold dispatch
    split
    · exact handleSendMessage_sends _
    · exact handleReaction_sends _
    · exact handleDeleteMessage_sends _
    · exact handleEditMessage_sends _
    · exact handlePinMessage_sends _
    · exact handleGroupCommit_sends _
    · exact handleGroupCommit_sends _
    · exact handleFetchHistory_sends _
    · exact handleTyping_sends _
    · exact handleReadReceipt_sends _
    · exact handleReadReceipt_sends _
    · exact handleCallSignal_sends _
    · exact handleEphemeralSetting_sends _
    · exact ⟨rfl, fun _ => trivial⟩
    · exact sendError_sends _ _

theorem sendProtoError_sends (reqID code msg : String) :
    (sendProtoError reqID code msg).All (Op.sendsIn .protobuf) :=
  ⟨trivial, fun _ => ⟨⟨rfl, rfl⟩, fun _ => trivial⟩⟩

theorem protoAcknowledge_sends (reqID traceID : String) (act : SendMessageAction)
    (stored : StoreMessageResult) :
    (protoAcknowledge conn reqID traceID act stored).All (Op.sendsIn .protobuf) := by
  refine ⟨trivial, fun time => ⟨rfl, fun _ => ?_⟩⟩
  dsimp only [Prog.pure_bind]
  split
  · trivial
  · exact ⟨trivial, fun time => ⟨rfl, fun _ => trivial⟩⟩

theorem handleProtobufPacket_sends (packet : Packet) :
    (r.handleProtobufPacket S conn packet).All (Op.sendsIn .protobuf) := by
  unfold handleProtobufPacket
  split
  · exact ⟨trivial, fun _ => ⟨⟨rfl, rfl⟩, fun _ => trivial⟩⟩
  · split
    · refine handleProtoSendMessage_cases _ _ _ (fun _ _ => sendProtoError_sends _ _ _) ?_ ?_
      · refine fun _ _ _ _ => (storeMessage_sends _).bind fun answer => ?_
        cases answer with
        | error err => exact sendProtoError_sends _ _ _
        | ok stored => exact protoAcknowledge_sends _ _ _ _
      · exact fun _ _ _ _ => ⟨trivial, fun time => protoAcknowledge_sends _ _ _ _⟩
    · exact ⟨trivial, fun _ => ⟨rfl, fun _ => trivial⟩⟩
    · exact ⟨trivial, fun _ => ⟨rfl, fun _ => trivial⟩⟩
    · exact sendProtoError_sends _ _ _
  · exact sendProtoError_sends _ _ _

/-- A packet is answered in packets, any other frame in JSON. -/
theorem Handle_sends (data : Bytes) : (r.Handle S conn data).All (Op.sendsIn
    (if (conn.wireFormat = .protobuf || isProtobufPayload data) && (decodePacket S data).isSome
      then .protobuf else .json)) := by
  unfold Handle
  by_cases binary : conn.wireFormat = .protobuf ∨ isProtobufPayload data = true
  · have tried : (decide (conn.wireFormat = .protobuf) || isProtobufPayload data) = true := by
      simpa using binary
    rw [if_pos binary, tried, Bool.true_and]
    cases decodePacket S data with
    | some packet => exact handleProtobufPacket_sends packet
    | none => exact handleJson_sends data
  · have untried : (decide (conn.wireFormat = .protobuf) || isProtobufPayload data) = false := by
      simpa using binary
    rw [if_neg binary, untried, Bool.false_and]
    exact handleJson_sends data

end Router
end GenChat.Gateway
