import GenChat.Auth.Service

/-!
# Channels

The handlers of `channel.go`, and the HTTP endpoints of the channel service that write the commit
log. The members and welcomes of a request are lists in the order in which Go happens to walk
through its maps.
-/
namespace GenChat.Auth
open Library
open Ledger (Bytes)

inductive ChannelType where
  | group
  | dm
  | broadcast
  deriving DecidableEq

def ChannelType.text : ChannelType → String
  | .group => "group"
  | .dm => "dm"
  | .broadcast => "broadcast"

structure CreateChannelRequest where
  name : String
  type : ChannelType
  memberUserIds : List String
  memberWelcomes : List (String × Bytes)
  initialCommit : Bytes

structure CreateChannelResponse where
  channelID : UUID
  name : String
  creatorID : UUID
  members : List (UUID × String)

structure CommitEpochRequest where
  channelId : String
  epoch : UInt64
  commitData : Bytes

variable (S : Platform)

/-- The loop over `MemberWelcomes`. -/
def saveWelcomes (channelID : UUID) : List (String × Bytes) → Proc Unit
  | [] => pure ()
  | (uid, welcome) :: rest => do
    match S.parseUUID uid with
    | some userID =>
      let _ ← if welcome ≠ [] then issue (.saveMlsWelcome channelID userID 0 welcome)
        else pure (.ok ())
    | none => pure ()
    saveWelcomes channelID rest

def createChannel (ctx : Context) (req : CreateChannelRequest) :
    Proc (Answer CreateChannelResponse) :=
  match getUserIDFromCtx S ctx with
  | .error err => pure (.error err)
  | .ok creatorID =>
    if req.name = "" then pure (.error ⟨.invalidArgument, "channel name is required"⟩)
    else
      let memberIDs := (creatorID :: req.memberUserIds.filterMap S.parseUUID).dedup
      if S.maxChannelMembers < memberIDs.length then
        pure (.error ⟨.invalidArgument, "channel member count exceeds maximum ceiling"⟩)
      else do
        let channelID ← issue .newUUID
        match ← issue (.createChannel channelID req.type.text req.name creatorID memberIDs) with
        | .error _ => pure (.error ⟨.internal, "failed to create channel"⟩)
        | .ok () =>
          match ← issue (.getChannelMembers channelID) with
          | .error _ => pure (.error ⟨.internal, "failed to load channel members"⟩)
          | .ok members =>
            saveWelcomes S channelID req.memberWelcomes
            let _ ← if req.initialCommit ≠ [] then
                issue (.saveMlsCommit channelID creatorID 0 req.initialCommit)
              else pure (.ok ())
            pure (.ok ⟨channelID, req.name, creatorID, members⟩)

/-- The welcome that `JoinChannel` returns with its success. -/
def joinChannel (ctx : Context) (channelId : String) : Proc (Answer (Option Bytes)) :=
  match getUserIDFromCtx S ctx with
  | .error err => pure (.error err)
  | .ok userID =>
    match S.parseUUID channelId with
    | none => pure (.error ⟨.invalidArgument, "invalid channel_id"⟩)
    | some channelID => do
      let existing ← issue (.getChannelMembers channelID)
      let full : Bool := match existing with
        | .ok members => S.maxChannelMembers ≤ members.length
        | .error _ => false
      if full then
        pure (.error ⟨.resourceExhausted, "channel has reached maximum capacity"⟩)
      else
        match ← issue (.joinChannel channelID userID) with
        | .error _ => pure (.error ⟨.internal, "failed to join channel"⟩)
        | .ok () =>
          match ← issue (.getMlsWelcome channelID userID) with
          | .ok welcome => pure (.ok welcome)
          | .error _ => pure (.ok none)

def leaveChannel (ctx : Context) (channelId : String) : Proc (Answer Unit) :=
  match getUserIDFromCtx S ctx with
  | .error err => pure (.error err)
  | .ok userID =>
    match S.parseUUID channelId with
    | none => pure (.error ⟨.invalidArgument, "invalid channel_id"⟩)
    | some channelID => do
      match ← issue (.leaveChannel channelID userID) with
      | .error _ => pure (.error ⟨.internal, "failed to leave channel"⟩)
      | .ok () => pure (.ok ())

def getChannelMembers (channelId : String) : Proc (Answer (List (UUID × String))) :=
  if channelId = "" then pure (.error ⟨.invalidArgument, "channel_id is required"⟩)
  else match S.parseUUID channelId with
    | none => pure (.error ⟨.invalidArgument, "invalid channel_id"⟩)
    | some channelID => do
      match ← issue (.getChannelMembers channelID) with
      | .error _ => pure (.error ⟨.internal, "failed to get channel members"⟩)
      | .ok members => pure (.ok members)

/-- The response repeats the epoch of the request. -/
def commitEpoch (ctx : Context) (req : CommitEpochRequest) : Proc (Answer UInt64) :=
  match getUserIDFromCtx S ctx with
  | .error err => pure (.error err)
  | .ok senderID =>
    if req.channelId = "" then pure (.error ⟨.invalidArgument, "channel_id is required"⟩)
    else match S.parseUUID req.channelId with
      | none => pure (.error ⟨.invalidArgument, "invalid channel_id"⟩)
      | some channelID =>
        if req.commitData = [] then
          pure (.error ⟨.invalidArgument, "commit_data is required"⟩)
        else do
          match ← issue (.isChannelMember channelID senderID) with
          | .ok true =>
            match ← issue (.saveMlsCommit channelID senderID req.epoch.toNat req.commitData) with
            | .error _ => pure (.error ⟨.internal, "failed to save mls commit"⟩)
            | .ok () => pure (.ok req.epoch)
          | _ => pure (.error ⟨.permissionDenied,
              "permission denied: caller is not a member of target channel"⟩)

/-! ## HTTP endpoints -/

/-- `decodeOrRaw` for `CreateChannel`, which takes text with a base64 error as it is. -/
def decodeWholeOrRaw (text : String) : Bytes :=
  let decoded := Base64.decodeString text
  if decoded.2 ∧ decoded.1 ≠ [] then decoded.1 else text.toUTF8.data.toList

structure CreateChannelBody where
  name : String
  memberUserIds : List String
  member_user_ids : List String
  type : ChannelType
  memberWelcomes : List (String × String)
  member_welcomes : List (String × String)
  initialCommit : String
  initial_commit : String

def CreateChannelBody.request (body : CreateChannelBody) : CreateChannelRequest where
  name := body.name
  type := body.type
  memberUserIds := if body.memberUserIds = [] then body.member_user_ids else body.memberUserIds
  memberWelcomes := (if body.memberWelcomes = [] then body.member_welcomes
    else body.memberWelcomes).map fun w => (w.1, decodeWholeOrRaw w.2)
  initialCommit :=
    let commitStr := orElse body.initialCommit body.initial_commit
    if commitStr = "" then [] else decodeWholeOrRaw commitStr

def httpCreateChannel (req : HttpRequest CreateChannelBody) :
    Proc (HttpAnswer CreateChannelResponse) :=
  authenticated [.post] req fun claims =>
    if req.decoded = false then pure (.error ⟨"invalid request payload", 400⟩)
    else do
      match ← createChannel S ⟨claims.sub, claims.deviceID⟩ req.body.request with
      | .error _ => pure (.error ⟨"failed to create channel", 500⟩)
      | .ok resp => pure (.ok resp)

structure ChannelBody where
  channel_id : String
  channelId : String

def httpJoinChannel (req : HttpRequest ChannelBody) : Proc (HttpAnswer (Option Bytes)) :=
  authenticated [.post] req fun claims => do
    match ← joinChannel S ⟨claims.sub, claims.deviceID⟩
        (orElse req.body.channel_id req.body.channelId) with
    | .error _ => pure (.error ⟨"failed to join channel", 500⟩)
    | .ok welcome => pure (.ok welcome)

def httpLeaveChannel (req : HttpRequest ChannelBody) : Proc (HttpAnswer Unit) :=
  authenticated [.post] req fun claims => do
    match ← leaveChannel S ⟨claims.sub, claims.deviceID⟩
        (orElse req.body.channel_id req.body.channelId) with
    | .error _ => pure (.error ⟨"failed to leave channel", 500⟩)
    | .ok () => pure (.ok ())

structure CommitEpochBody where
  channel_id : String
  channelId : String
  epoch : UInt64
  commit_data : String
  commit : String

def CommitEpochBody.request (body : CommitEpochBody) : CommitEpochRequest where
  channelId := orElse body.channel_id body.channelId
  epoch := body.epoch
  commitData := decodeOrRaw (orElse body.commit_data body.commit)

def httpCommitEpoch (req : HttpRequest CommitEpochBody) : Proc (HttpAnswer UInt64) :=
  authenticated [.post] req fun claims =>
    if req.decoded = false then pure (.error ⟨"invalid request payload", 400⟩)
    else do
      match ← commitEpoch S ⟨claims.sub, claims.deviceID⟩ req.body.request with
      | .error err =>
        if err.code = .permissionDenied then
          pure (.error ⟨"permission denied: caller is not a member of channel", 403⟩)
        else pure (.error ⟨"failed to commit epoch", 500⟩)
      | .ok epoch => pure (.ok epoch)

structure MemberBody where
  channel_id : String
  channelId : String
  user_id : String
  userId : String
  epoch : UInt64
  welcome_data : String
  commit_data : String

/-- The ids of an `AddMember`, `RemoveMember` or `SaveWelcome`: channel, target and caller. -/
def memberIDs (claims : JWTPayload) (body : MemberBody) : HttpAnswer (UUID × UUID × UUID) :=
  match S.parseUUID (trimPrefix (orElse body.channel_id body.channelId) "chan_") with
  | none => .error ⟨"invalid channel_id", 400⟩
  | some channelID =>
    match S.parseUUID (orElse body.user_id body.userId) with
    | none => .error ⟨"invalid user_id", 400⟩
    | some targetID =>
      match S.parseUUID claims.sub with
      | none => .error ⟨"invalid caller identity", 401⟩
      | some callerID => .ok (channelID, targetID, callerID)

/-- What these endpoints do alike before they act. The body may be anything: decoding errors are
ignored. -/
def asMember {α : Type} (req : HttpRequest MemberBody)
    (handler : UUID → UUID → UUID → Proc (HttpAnswer α)) : Proc (HttpAnswer α) :=
  authenticated [.post] req fun claims =>
    match memberIDs S claims req.body with
    | .error err => pure (.error err)
    | .ok (channelID, targetID, callerID) => do
      match ← issue (.isChannelMember channelID callerID) with
      | .ok true => handler channelID targetID callerID
      | _ => pure (.error ⟨"forbidden: caller is not a member of this channel", 403⟩)

/-- The commit that comes with a change of the members, if there is one; errors are ignored. -/
def saveCommit (channelID callerID : UUID) (body : MemberBody) : Proc Unit := do
  let _ ← if body.commit_data ≠ "" then
      issue (.saveMlsCommit channelID callerID body.epoch.toNat (decodeOrRaw body.commit_data))
    else pure (.ok ())
  pure ()

def httpAddMember (req : HttpRequest MemberBody) : Proc (HttpAnswer (UUID × UUID)) :=
  asMember S req fun channelID targetID callerID => do
    match ← issue (.joinChannel channelID targetID) with
    | .error _ => pure (.error ⟨"failed to add member", 500⟩)
    | .ok () =>
      let _ ← if req.body.welcome_data ≠ "" then
          issue (.saveMlsWelcome channelID targetID req.body.epoch.toNat
            (decodeOrRaw req.body.welcome_data))
        else pure (.ok ())
      saveCommit channelID callerID req.body
      pure (.ok (channelID, targetID))

def httpRemoveMember (req : HttpRequest MemberBody) : Proc (HttpAnswer (UUID × UUID)) :=
  asMember S req fun channelID targetID callerID => do
    match ← issue (.leaveChannel channelID targetID) with
    | .error _ => pure (.error ⟨"failed to remove member", 500⟩)
    | .ok () =>
      saveCommit channelID callerID req.body
      pure (.ok (channelID, targetID))

def httpSaveWelcome (req : HttpRequest MemberBody) : Proc (HttpAnswer Unit) :=
  asMember S req fun channelID targetID _ => do
    match ← issue (.saveMlsWelcome channelID targetID req.body.epoch.toNat
        (decodeOrRaw req.body.welcome_data)) with
    | .error _ => pure (.error ⟨"failed to save mls welcome", 500⟩)
    | .ok () => pure (.ok ())

end GenChat.Auth
