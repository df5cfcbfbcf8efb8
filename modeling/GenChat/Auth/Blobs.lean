import GenChat.Auth.CommitLog
import GenChat.Library.BrowserText
import GenChat.Library.Issues

/-!
# MLS blobs over HTTP

Five endpoints take welcomes or commits as base64. `CreateChannel` asks the decoder whether it read
all of the text; the others look at its output only, and store a part of a text that goes wrong
after its first group.
-/
namespace GenChat.Auth
open Library
open Ledger (Bytes)

/-! ## Uploads -/

inductive Upload where
  | createChannel (req : HttpRequest CreateChannelBody)
  | commitEpoch (req : HttpRequest CommitEpochBody)
  | addMember (req : HttpRequest MemberBody)
  | removeMember (req : HttpRequest MemberBody)
  | saveWelcome (req : HttpRequest MemberBody)

/-- What a blob is stored as. -/
inductive Slot where
  | welcome (userID : UUID) (epoch : Nat)
  | commit (epoch : Nat)
  deriving DecidableEq

def Op.blob : Op → Option (Slot × Bytes)
  | .saveMlsWelcome _ userID epoch data => some (.welcome userID epoch, data)
  | .saveMlsCommit _ _ epoch data => some (.commit epoch, data)
  | _ => none

namespace Upload
variable (S : Platform)

/-- Run the endpoint; the result is whether it answers with success. -/
def handle : Upload → Proc Bool
  | .createChannel req => (httpCreateChannel S req).bind fun a => pure a.isOk
  | .commitEpoch req => (httpCommitEpoch S req).bind fun a => pure a.isOk
  | .addMember req => (httpAddMember S req).bind fun a => pure a.isOk
  | .removeMember req => (httpRemoveMember S req).bind fun a => pure a.isOk
  | .saveWelcome req => (httpSaveWelcome S req).bind fun a => pure a.isOk

/-- What the endpoint makes of a text. -/
def decode : Upload → String → Bytes
  | .createChannel _ => decodeWholeOrRaw
  | _ => decodeOrRaw

/-- The welcome in the request of a member, if the request names one. -/
def welcomeText (body : MemberBody) : List (Slot × String) :=
  match S.parseUUID (orElse body.user_id body.userId) with
  | some userID => [(.welcome userID body.epoch.toNat, body.welcome_data)]
  | none => []

/-- The texts that the request uploads; an empty one stands for none, but for the two endpoints that
have nothing else to do. -/
def texts : Upload → List (Slot × String)
  | .createChannel req =>
    let welcomes := if req.body.memberWelcomes = [] then req.body.member_welcomes
      else req.body.memberWelcomes
    let saved := welcomes.filterMap fun w => (S.parseUUID w.1).map fun u => (Slot.welcome u 0, w.2)
    let commitStr := orElse req.body.initialCommit req.body.initial_commit
    (saved ++ [(Slot.commit 0, commitStr)]).filter fun t => t.2 ≠ ""
  | .commitEpoch req =>
    [(.commit req.body.epoch.toNat, orElse req.body.commit_data req.body.commit)]
  | .addMember req =>
    (welcomeText S req.body ++ [(Slot.commit req.body.epoch.toNat, req.body.commit_data)]).filter
      fun t => t.2 ≠ ""
  | .removeMember req =>
    [(Slot.commit req.body.epoch.toNat, req.body.commit_data)].filter fun t => t.2 ≠ ""
  | .saveWelcome req => welcomeText S req.body

end Upload

/-! ## Texts -/

/-- Standard base64 is stored as the bytes that it encodes, and what is not base64 as it is. -/
structure Preserved (text : String) (stored : Bytes) : Prop where
  decoded : ∀ b, b ≠ [] → text = Base64.encodeToString b → stored = b
  whole : (Base64.decodeString text).2 = false → stored = text.toUTF8.data.toList

/-- The endpoint does not take a text for what stands before its first error. -/
def Upload.Whole : Upload → String → Prop
  | .createChannel _, _ => True
  | _, text => (Base64.decodeString text).2 = true ∨ (Base64.decodeString text).1 = []

/-- Three bytes need four characters. -/
theorem decodeChars_length (cs : List Char) :
    (Base64.decodeChars cs).1.length * 4 ≤ cs.length * 3 := by
  fun_induction Base64.decodeChars cs <;> grind

theorem length_le_textEncode (cs : List Char) :
    cs.length ≤ (BrowserText.textEncode (String.ofList cs)).length := by
  induction cs with
  | nil => exact Nat.zero_le _
  | cons c cs ih =>
    have one := List.length_pos_iff.mpr (String.utf8EncodeChar_ne_nil (c := c))
    rw [BrowserText.textEncode_ofList_cons, List.length_append, List.length_cons]
    omega

/-- A text is longer than what it decodes to. -/
theorem decodeString_ne (text : String) (h : (Base64.decodeString text).1 ≠ []) :
    (Base64.decodeString text).1 ≠ text.toUTF8.data.toList := by
  intro same
  have output := decodeChars_length (text.toList.filter fun c => c ≠ '\n' ∧ c ≠ '\r')
  have input := List.length_filter_le (fun c => decide (c ≠ '\n' ∧ c ≠ '\r')) text.toList
  have bytes := length_le_textEncode text.toList
  have some' := List.length_pos_iff.mpr h
  rw [String.ofList_toList, BrowserText.textEncode, ← same] at bytes
  unfold Base64.decodeString at bytes some'
  omega

theorem preserved_decodeWholeOrRaw (text : String) : Preserved text (decodeWholeOrRaw text) := by
  constructor
  · rintro b some' rfl
    simp [decodeWholeOrRaw, Base64.decodeString_encodeToString, some']
  · intro bad
    simp [decodeWholeOrRaw, bad]

theorem preserved_decodeOrRaw_iff (text : String) : Preserved text (decodeOrRaw text) ↔
    (Base64.decodeString text).2 = true ∨ (Base64.decodeString text).1 = [] := by
  constructor
  · intro kept
    cases valid : (Base64.decodeString text).2 with
    | true => exact .inl rfl
    | false =>
      refine .inr (by_contra fun some' => decodeString_ne text some' ?_)
      have whole := kept.whole valid
      simpa [decodeOrRaw, some'] using whole
  · intro fine
    constructor
    · rintro b some' rfl
      simp [decodeOrRaw, Base64.decodeString_encodeToString, some']
    · intro bad
      simp [decodeOrRaw, fine.resolve_left (by simp [bad])]

theorem Upload.preserved_iff (u : Upload) (text : String) :
    Preserved text (u.decode text) ↔ u.Whole text := by
  cases u with
  | createChannel => exact iff_of_true (preserved_decodeWholeOrRaw text) trivial
  | _ => exact preserved_decodeOrRaw_iff text

theorem decodeWholeOrRaw_empty : decodeWholeOrRaw "" = [] := by decide

theorem decodeWholeOrRaw_ne_nil {text : String} (h : text ≠ "") : decodeWholeOrRaw text ≠ [] := by
  unfold decodeWholeOrRaw
  dsimp only
  split_ifs with valid
  · exact valid.2
  · intro empty
    have bytes := length_le_textEncode text.toList
    rw [String.ofList_toList, BrowserText.textEncode, empty] at bytes
    exact h (String.toList_eq_nil_iff.mp (List.length_eq_zero_iff.mp (Nat.le_zero.mp bytes)))

/-! ## What an endpoint stores -/

/-- The operation stores only blobs with `P`. -/
def Op.Stores (P : Slot → Bytes → Prop) (op : Op) : Prop := ∀ b ∈ op.blob, P b.1 b.2

section Stores
variable {S : Platform} {P : Slot → Bytes → Prop}

@[simp] theorem stores_welcome {ch u : UUID} {epoch : Nat} {data : Bytes} :
    Op.Stores P (.saveMlsWelcome ch u epoch data) ↔ P (.welcome u epoch) data := by
  simp [Op.Stores, Op.blob]

@[simp] theorem stores_commit {ch u : UUID} {epoch : Nat} {data : Bytes} :
    Op.Stores P (.saveMlsCommit ch u epoch data) ↔ P (.commit epoch) data := by
  simp [Op.Stores, Op.blob]

theorem stores_other {op : Op} (h : op.blob = none) : Op.Stores P op := by
  simp [Op.Stores, h]

theorem saveWelcomes_stores {channelID : UUID} {welcomes : List (String × Bytes)}
    (h : ∀ w ∈ welcomes, ∀ u, S.parseUUID w.1 = some u → w.2 ≠ [] → P (.welcome u 0) w.2) :
    (saveWelcomes S channelID welcomes).All (Op.Stores P) := by
  induction welcomes with
  | nil => trivial
  | cons w rest ih =>
    have later := ih fun w hw => h w (List.mem_cons_of_mem _ hw)
    have now := h w List.mem_cons_self
    unfold saveWelcomes
    cases user : S.parseUUID w.1 with
    | none => exact later
    | some u =>
      by_cases empty : w.2 = []
      · simpa [empty] using later
      · simpa [empty] using ⟨now u user empty, later⟩

theorem createChannel_stores {ctx : Context} {req : CreateChannelRequest}
    (welcomes : ∀ w ∈ req.memberWelcomes, ∀ u, S.parseUUID w.1 = some u → w.2 ≠ [] →
      P (.welcome u 0) w.2)
    (commit : req.initialCommit ≠ [] → P (.commit 0) req.initialCommit) :
    (createChannel S ctx req).All (Op.Stores P) := by
  unfold createChannel
  split
  · trivial
  · split
    · trivial
    · dsimp only
      split
      · trivial
      · refine ⟨stores_other rfl, fun channelID => ⟨stores_other rfl, fun created => ?_⟩⟩
        cases created with
        | error => trivial
        | ok =>
          refine ⟨stores_other rfl, fun members => ?_⟩
          cases members with
          | error => trivial
          | ok members =>
            refine (saveWelcomes_stores welcomes).bind fun _ => ?_
            by_cases empty : req.initialCommit = []
            · simp [empty]
            · simpa [empty] using commit empty

theorem commitEpoch_stores {ctx : Context} {req : CommitEpochRequest}
    (h : P (.commit req.epoch.toNat) req.commitData) :
    (commitEpoch S ctx req).All (Op.Stores P) := by
  unfold commitEpoch
  split
  · trivial
  · split
    · trivial
    · split
      · trivial
      · split
        · trivial
        · refine ⟨stores_other rfl, fun member => ?_⟩
          rcases member with _ | _ | _
          · trivial
          · trivial
          · exact ⟨stores_commit.mpr h, fun saved => by cases saved <;> trivial⟩

theorem memberIDs_target {claims : JWTPayload} {body : MemberBody} {ids : UUID × UUID × UUID}
    (h : memberIDs S claims body = .ok ids) :
    S.parseUUID (orElse body.user_id body.userId) = some ids.2.1 := by
  unfold memberIDs at h
  split at h
  · cases h
  · split at h
    · cases h
    · split at h <;> cases h
      assumption

theorem asMember_stores {α : Type} {req : HttpRequest MemberBody}
    {handler : UUID → UUID → UUID → Proc (HttpAnswer α)}
    (h : ∀ channelID targetID callerID,
      S.parseUUID (orElse req.body.user_id req.body.userId) = some targetID →
      (handler channelID targetID callerID).All (Op.Stores P)) :
    (asMember S req handler).All (Op.Stores P) := by
  refine authenticated_all (stores_other rfl) fun token bearer signed => ?_
  split
  · trivial
  · rename_i channelID targetID callerID ids
    refine ⟨stores_other rfl, fun member => ?_⟩
    rcases member with _ | _ | _
    · trivial
    · trivial
    · exact h channelID targetID callerID (memberIDs_target ids)

theorem saveCommit_stores {channelID callerID : UUID} {body : MemberBody}
    (h : body.commit_data ≠ "" → P (.commit body.epoch.toNat) (decodeOrRaw body.commit_data)) :
    (saveCommit channelID callerID body).All (Op.Stores P) := by
  by_cases empty : body.commit_data = ""
  · simp [saveCommit, empty]
  · simpa [saveCommit, empty] using h empty

/-- The request uploads a text of which this is the decoding. -/
def Upload.Decoded (S : Platform) (up : Upload) (slot : Slot) (b : Bytes) : Prop :=
  ∃ text, (slot, text) ∈ up.texts S ∧ b = up.decode text

theorem Upload.handle_stores (up : Upload) : (up.handle S).All (Op.Stores (up.Decoded S)) := by
  have last {α : Type} {p : Proc (HttpAnswer α)} (h : p.All (Op.Stores (up.Decoded S))) :
      (p.bind fun a => pure a.isOk).All (Op.Stores (up.Decoded S)) := h.bind fun _ => trivial
  cases up with
  | createChannel req =>
    refine last (authenticated_all (stores_other rfl) fun token bearer signed => ?_)
    split
    · trivial
    · refine (createChannel_stores ?_ ?_).bind fun a => by cases a <;> trivial
      · intro w hw u user some'
        obtain ⟨⟨uid, text⟩, mem, rfl⟩ := List.mem_map.mp hw
        have nonempty : text ≠ "" := by
          rintro rfl
          exact some' decodeWholeOrRaw_empty
        have saved : S.parseUUID uid = some u := user
        refine ⟨text, List.mem_filter.mpr ⟨List.mem_append_left _ ?_, by simpa using nonempty⟩, rfl⟩
        exact List.mem_filterMap.mpr ⟨(uid, text), mem, by simp [saved]⟩
      · intro some'
        simp only [CreateChannelBody.request] at some' ⊢
        split at some'
        · exact absurd rfl some'
        · rename_i nonempty
          refine ⟨_, List.mem_filter.mpr ⟨List.mem_append_right _ List.mem_cons_self, ?_⟩,
            if_neg nonempty⟩
          simpa using nonempty
  | commitEpoch req =>
    refine last (authenticated_all (stores_other rfl) fun token bearer signed => ?_)
    split
    · trivial
    · refine (commitEpoch_stores ⟨_, List.mem_cons_self, rfl⟩).bind fun a => ?_
      cases a with
      | error err =>
        dsimp only
        split <;> trivial
      | ok => trivial
  | addMember req =>
    refine last (asMember_stores fun ch target u user => ?_)
    refine ⟨stores_other rfl, fun joined => ?_⟩
    cases joined with
    | error => trivial
    | ok =>
      have save : ((saveCommit ch u req.body).bind fun _ => .pure (.ok (ch, target)) :
          Proc (HttpAnswer (UUID × UUID))).All (Op.Stores ((addMember req).Decoded S)) := by
        refine (saveCommit_stores fun nonempty => ?_).bind fun _ => trivial
        exact ⟨_, List.mem_filter.mpr ⟨List.mem_append_right _ List.mem_cons_self,
          by simpa using nonempty⟩, rfl⟩
      refine Prog.all_ite.mpr ⟨fun nonempty => ⟨?_, fun _ => save⟩, fun _ => save⟩
      refine stores_welcome.mpr ⟨_, List.mem_filter.mpr ⟨List.mem_append_left _ ?_,
        by simpa using nonempty⟩, rfl⟩
      simp [welcomeText, user]
  | removeMember req =>
    refine last (asMember_stores fun ch target u user => ?_)
    refine ⟨stores_other rfl, fun left => ?_⟩
    cases left with
    | error => trivial
    | ok =>
      have save : (saveCommit ch u req.body).All (Op.Stores ((removeMember req).Decoded S)) :=
        saveCommit_stores fun nonempty =>
          ⟨_, List.mem_filter.mpr ⟨List.mem_cons_self, by simpa using nonempty⟩, rfl⟩
      exact save.bind fun _ => trivial
  | saveWelcome req =>
    refine last (asMember_stores fun ch target u user => ?_)
    have named : (Slot.welcome target req.body.epoch.toNat, req.body.welcome_data) ∈
        (saveWelcome req).texts S := by
      simp [texts, welcomeText, user]
    exact ⟨stores_welcome.mpr ⟨_, named, rfl⟩, fun saved => by cases saved <;> trivial⟩

end Stores

/-! ## What an endpoint has stored when it succeeds -/

section Issued
variable {S : Platform} {α : Type}

@[simp] theorem issues_error {ε : Type} {φ : Op → Prop} {e : ε} :
    (Prog.pure (.error e) : Proc (Except ε α)).Issues φ (·.isOk = true) :=
  fun ok => nomatch ok

theorem authenticated_issues {β : Type} {methods : List Method} {req : HttpRequest β}
    {handler : JWTPayload → Proc (HttpAnswer α)} {φ : Op → Prop}
    (h : ∀ claims, (handler claims).Issues φ (·.isOk = true)) :
    (authenticated methods req handler).Issues φ (·.isOk = true) := by
  unfold authenticated
  split
  · exact issues_error
  · split
    · exact issues_error
    · rename_i token bearer
      refine .inr fun time => ?_
      cases verified : verifyJWT time token with
      | none =>
        simp only [Prog.pure_bind, verified]
        exact issues_error
      | some claims => simpa [verified] using h claims

theorem asMember_issues {req : HttpRequest MemberBody}
    {handler : UUID → UUID → UUID → Proc (HttpAnswer α)} {φ : Op → Prop}
    (h : ∀ channelID targetID callerID,
      S.parseUUID (orElse req.body.user_id req.body.userId) = some targetID →
      (handler channelID targetID callerID).Issues φ (·.isOk = true)) :
    (asMember S req handler).Issues φ (·.isOk = true) := by
  refine authenticated_issues fun claims => ?_
  split
  · exact issues_error
  · rename_i channelID targetID callerID ids
    refine .inr fun member => ?_
    rcases member with _ | _ | _
    · exact issues_error
    · exact issues_error
    · exact h channelID targetID callerID (memberIDs_target ids)

/-- The operation stores this blob. -/
abbrev Op.Saves (slot : Slot) (b : Bytes) (op : Op) : Prop := op.blob = some (slot, b)

theorem saveWelcomes_issues {channelID u : UUID} {welcomes : List (String × Bytes)}
    {w : String × Bytes} (hw : w ∈ welcomes) (user : S.parseUUID w.1 = some u) (some' : w.2 ≠ []) :
    (saveWelcomes S channelID welcomes).Issues (Op.Saves (.welcome u 0) w.2) fun _ => True := by
  induction welcomes with
  | nil => cases hw
  | cons v rest ih =>
    unfold saveWelcomes
    obtain rfl | later := List.mem_cons.mp hw
    · simp only [user, some', ne_eq, not_false_eq_true, if_true]
      exact .inl rfl
    · cases S.parseUUID v.1 with
      | none => exact ih later
      | some x =>
        by_cases empty : v.2 = []
        · simpa [empty] using ih later
        · simpa [empty] using Prog.Issues.bind_last (p := issue (.saveMlsWelcome channelID x 0 v.2))
            fun _ => ih later

theorem saveCommit_issues {channelID callerID : UUID} {body : MemberBody}
    (h : body.commit_data ≠ "") : (saveCommit channelID callerID body).Issues
      (Op.Saves (.commit body.epoch.toNat) (decodeOrRaw body.commit_data)) fun _ => True := by
  simp only [saveCommit, h, ne_eq, not_false_eq_true, if_true]
  exact .inl rfl

theorem createChannel_issues {ctx : Context} {req : CreateChannelRequest} {φ : Op → Prop}
    (h : ∀ channelID creatorID,
      (saveWelcomes S channelID req.memberWelcomes).Issues φ (fun _ => True) ∨
        req.initialCommit ≠ [] ∧ φ (.saveMlsCommit channelID creatorID 0 req.initialCommit)) :
    (createChannel S ctx req).Issues φ (·.isOk = true) := by
  unfold createChannel
  split
  · exact issues_error
  · rename_i creatorID caller
    split
    · exact issues_error
    · dsimp only
      split
      · exact issues_error
      · refine .inr fun channelID => .inr fun created => ?_
        cases created with
        | error => exact issues_error
        | ok =>
          refine .inr fun members => ?_
          cases members with
          | error => exact issues_error
          | ok members =>
            simp only [Prog.pure_bind, Prog.monad_bind]
            obtain welcomes | ⟨some', commit⟩ := h channelID creatorID
            · exact welcomes.bind_first
            · refine Prog.Issues.bind_last fun _ => ?_
              simp only [some', ne_eq, not_false_eq_true, if_true]
              exact Or.inl commit

theorem commitEpoch_issues {ctx : Context} {req : CommitEpochRequest} :
    (commitEpoch S ctx req).Issues (Op.Saves (.commit req.epoch.toNat) req.commitData)
      (·.isOk = true) := by
  unfold commitEpoch
  split
  · exact issues_error
  · split
    · exact issues_error
    · split
      · exact issues_error
      · split
        · exact issues_error
        · refine .inr fun member => ?_
          rcases member with _ | _ | _
          · exact issues_error
          · exact issues_error
          · exact .inl rfl

/-- An endpoint that succeeds has stored every text of its request. -/
theorem Upload.handle_issues {up : Upload} {slot : Slot} {text : String}
    (h : (slot, text) ∈ up.texts S) :
    (up.handle S).Issues (Op.Saves slot (up.decode text)) (· = true) := by
  have last {α : Type} {p : Proc (HttpAnswer α)}
      (h : p.Issues (Op.Saves slot (up.decode text)) (·.isOk = true)) :
      (p.bind fun a => pure a.isOk).Issues (Op.Saves slot (up.decode text)) (· = true) :=
    h.bind fun _ failed => (Prog.issues_pure _).mpr failed
  cases up with
  | createChannel req =>
    obtain ⟨mem, kept⟩ := List.mem_filter.mp h
    have nonempty : text ≠ "" := by simpa using kept
    refine last (authenticated_issues fun claims => ?_)
    split
    · exact issues_error
    · refine Prog.Issues.bind (createChannel_issues fun ch u => ?_) fun a failed => ?_
      · obtain welcome | commit := List.mem_append.mp mem
        · obtain ⟨⟨uid, text'⟩, named, same⟩ := List.mem_filterMap.mp welcome
          obtain ⟨u, user, same⟩ := Option.map_eq_some_iff.mp same
          cases same
          refine .inl (saveWelcomes_issues (w := (uid, decodeWholeOrRaw text')) ?_ user
            (decodeWholeOrRaw_ne_nil nonempty))
          exact List.mem_map.mpr ⟨(uid, text'), named, rfl⟩
        · cases List.mem_singleton.mp commit
          have saved : req.body.request.initialCommit =
              decodeWholeOrRaw (orElse req.body.initialCommit req.body.initial_commit) :=
            if_neg nonempty
          rw [saved]
          exact .inr ⟨decodeWholeOrRaw_ne_nil nonempty, rfl⟩
      · cases a with
        | error => exact issues_error
        | ok => exact absurd rfl failed
  | commitEpoch req =>
    cases List.mem_singleton.mp h
    refine last (authenticated_issues fun claims => ?_)
    split
    · exact issues_error
    · refine Prog.Issues.bind (@commitEpoch_issues S _ req.body.request) fun a failed => ?_
      cases a with
      | error err =>
        dsimp only
        split <;> exact issues_error
      | ok => exact absurd rfl failed
  | addMember req =>
    obtain ⟨mem, kept⟩ := List.mem_filter.mp h
    have nonempty : text ≠ "" := by simpa using kept
    refine last (asMember_issues fun ch target u user => .inr fun joined => ?_)
    cases joined with
    | error => exact issues_error
    | ok =>
      obtain welcome | commit := List.mem_append.mp mem
      · simp only [welcomeText, user, List.mem_singleton] at welcome
        cases welcome
        simp only [Prog.pure_bind, nonempty, ne_eq, not_false_eq_true, if_true]
        exact Or.inl rfl
      · cases List.mem_singleton.mp commit
        have save := @saveCommit_issues ch u req.body nonempty
        simp only [Prog.pure_bind, Prog.monad_bind]
        split
        · exact Prog.Issues.bind_last fun _ => save.bind_first
        · exact save.bind_first
  | removeMember req =>
    obtain ⟨mem, kept⟩ := List.mem_filter.mp h
    cases List.mem_singleton.mp mem
    have nonempty : req.body.commit_data ≠ "" := by simpa using kept
    refine last (asMember_issues fun ch target u user => .inr fun left => ?_)
    cases left with
    | error => exact issues_error
    | ok => exact (@saveCommit_issues ch u req.body nonempty).bind_first
  | saveWelcome req =>
    refine last (asMember_issues fun ch target u user => .inl ?_)
    simp only [texts, welcomeText, user, List.mem_singleton] at h
    cases h
    rfl

end Issued

/-! ## Tables and responses -/

/-- The blob of the operation stands in its table. -/
def Database.Holds (db : Database) : Op → Prop
  | .saveMlsWelcome ch u epoch data => db.welcomes.lookup (ch, u, epoch) = some data
  | .saveMlsCommit ch _ epoch data =>
    (db.commits.lookup (ch, epoch)).map Commit.commitData = some data
  | _ => True

theorem effect_holds {s : Server} {op : Op} {db : Database} (h : s.effect op = some db) :
    db.Holds op := by
  cases op
  case saveMlsWelcome ch u epoch data =>
    obtain ⟨-, h⟩ := Option.ite_none_right_eq_some.mp h
    cases h
    exact AList.lookup_insert _
  case saveMlsCommit ch u epoch data =>
    obtain ⟨-, h⟩ := Option.ite_none_right_eq_some.mp h
    cases h
    simp only [Database.Holds, Database.commitRows, AList.lookup_insert, Option.map_some]
    split <;> rfl
  all_goals trivial

/-- `mls_welcome` in the response of `JoinChannel`. -/
def mlsWelcome (welcome : Option Bytes) : String :=
  match welcome with
  | some b => if b ≠ [] then Base64.encodeToString b else ""
  | none => ""

theorem decodeString_mlsWelcome (b : Bytes) :
    Base64.decodeString (mlsWelcome (some b)) = (b, true) := by
  by_cases empty : b = []
  · subst empty
    rfl
  · simp [mlsWelcome, empty, Base64.decodeString_encodeToString]

section Join
variable {S : Platform} {s s' : Server} {trace : List (Op × Choice)} {welcome : Option Bytes}

/-- If no statement fails, the response holds the user's welcome of the highest epoch. -/
theorem joinChannel_welcome {ctx : Context} {channelId : String}
    (run : Executes system (joinChannel S ctx channelId) s trace (.ok welcome) s')
    (calm : ∀ x ∈ trace, x.2 ≠ .fail) :
    ∃ ch u, S.parseUUID channelId = some ch ∧ S.parseUUID ctx.userID = some u ∧
      welcome = s'.db.selectWelcome ch u := by
  unfold joinChannel at run
  split at run
  · cases (executes_pure.mp run).2.1
  · rename_i u caller
    split at run
    · cases (executes_pure.mp run).2.1
    · rename_i ch named
      refine ⟨ch, u, named, getUserIDFromCtx_ok caller, ?_⟩
      obtain ⟨_, existing, s₁, _, -, rest, rfl⟩ := executes_call.mp run
      simp only [Prog.pure_bind] at rest
      split_ifs at rest with full
      · cases (executes_pure.mp rest).2.1
      · obtain ⟨_, joined, s₂, _, -, rest, rfl⟩ := executes_call.mp rest
        cases joined with
        | error => cases (executes_pure.mp rest).2.1
        | ok =>
          obtain ⟨c, found, s₃, _, read, rest, rfl⟩ := executes_call.mp rest
          have unfailing : c ≠ .fail := calm (.getMlsWelcome ch u, c) (by simp)
          obtain ⟨rfl, ⟨rfl, rfl⟩ | ⟨rfl, -⟩⟩ := Server.query_eq_some.mp read
          · obtain ⟨-, answer, rfl⟩ := executes_pure.mp rest
            cases answer
            rfl
          · exact absurd rfl unfailing

theorem httpJoinChannel_welcome {req : HttpRequest ChannelBody}
    (run : Executes system (httpJoinChannel S req) s trace (.ok welcome) s')
    (calm : ∀ x ∈ trace, x.2 ≠ .fail) :
    ∃ token ∈ req.token, ∃ ch u, S.parseUUID token.payload.sub = some u ∧
      S.parseUUID (orElse req.body.channel_id req.body.channelId) = some ch ∧
      welcome = s'.db.selectWelcome ch u := by
  by_cases method : req.method ∈ [.post]
  · cases bearer : req.token with
    | none =>
      simp only [httpJoinChannel, authenticated, method, not_true, if_false, bearer] at run
      cases (executes_pure.mp run).2.1
    | some token =>
      obtain ⟨later, rfl, rest⟩ := (executes_authenticated method bearer).mp run
      split at rest
      · cases rest.2.1
      · rename_i claims verified
        obtain ⟨-, rfl⟩ := verifyJWT_eq_some verified
        obtain ⟨first, a, u, last, join, rest, rfl⟩ := executes_bind.mp rest
        cases a with
        | error => cases (executes_pure.mp rest).2.1
        | ok =>
          obtain ⟨-, answer, rfl⟩ := executes_pure.mp rest
          cases answer
          obtain ⟨ch, user, named, caller, found⟩ := joinChannel_welcome join fun x hx =>
            calm x (by simp [hx])
          exact ⟨token, rfl, ch, user, caller, named, found⟩
  · simp only [httpJoinChannel, authenticated, method, not_false_eq_true, if_true] at run
    cases (executes_pure.mp run).2.1

end Join

theorem blobs_preserved_iff (S : Platform) :
    (∀ up : Upload, ∀ s trace success s', Executes system (up.handle S) s trace success s' →
      (∀ x ∈ trace, ∀ b ∈ x.1.blob, ∃ text, (b.1, text) ∈ up.texts S ∧
        (Preserved text b.2 ↔ up.Whole text)) ∧
      (success = true → ∀ t ∈ up.texts S, ∃ x ∈ trace, ∃ b, x.1.blob = some (t.1, b) ∧
        (Preserved t.2 b ↔ up.Whole t.2))) ∧
    (∀ s op c r s', Server.exec s op c = some (r, s') → s'.db = s.db ∨ s'.db.Holds op) ∧
    ∀ req s trace welcome s', Executes system (httpJoinChannel S req) s trace (.ok welcome) s' →
      (∀ x ∈ trace, x.2 ≠ .fail) → ∃ token ∈ req.token, ∃ ch u,
        S.parseUUID token.payload.sub = some u ∧
        S.parseUUID (orElse req.body.channel_id req.body.channelId) = some ch ∧
        ∀ b, s'.db.selectWelcome ch u = some b →
          Base64.decodeString (mlsWelcome welcome) = (b, true) := by
  refine ⟨fun up s trace success s' run => ⟨fun x hx b hb => ?_, fun ok t ht => ?_⟩, ?_, ?_⟩
  · obtain ⟨text, mem, decoded⟩ := run.all up.handle_stores x hx b hb
    rw [decoded]
    exact ⟨text, mem, up.preserved_iff text⟩
  · obtain ⟨x, hx, saved⟩ := (Upload.handle_issues ht).executes run ok
    exact ⟨x, hx, _, saved, up.preserved_iff t.2⟩
  · intro s op c r s' h
    exact (Server.exec_db h).imp id fun effect => effect_holds effect.1
  · intro req s trace welcome s' run calm
    obtain ⟨token, bearer, ch, u, user, named, rfl⟩ := httpJoinChannel_welcome run calm
    refine ⟨token, bearer, ch, u, user, named, fun b stored => ?_⟩
    rw [stored, decodeString_mlsWelcome]

namespace Sample

/-- Alice uploads a welcome for Bob. -/
def welcomeUpload (text : String) : Upload :=
  .saveWelcome ⟨.post, some aliceToken, ⟨channel.text, "", bob.text, "", 1, text, ""⟩, true⟩

def welcomeRun (text : String) : Option (List (Op × Choice) × Bool × Server) :=
  play system ((welcomeUpload text).handle platform) twoMembers [.ok, .ok, .ok]

theorem whole_isSome : (welcomeRun "QUJD").isSome := by rfl

theorem broken_isSome : (welcomeRun "QUJD!!!!").isSome := by rfl

theorem welcomeRun_executes {text : String} (h : (welcomeRun text).isSome) :
    Executes system ((welcomeUpload text).handle platform) twoMembers ((welcomeRun text).get h).1
      ((welcomeRun text).get h).2.1 ((welcomeRun text).get h).2.2 :=
  Executes.of_play _ (Option.some_get h).symm

end Sample

open Sample in
theorem blobs_preserved_sample : ∃ x ∈ ((welcomeRun "QUJD").get whole_isSome).1, ∃ b,
    x.1.blob = some (.welcome bob 1, b) ∧
      (Preserved "QUJD" b ↔ (welcomeUpload "QUJD").Whole "QUJD") :=
  ((blobs_preserved_iff platform).1 _ _ _ _ _ (welcomeRun_executes whole_isSome)).2
    (by decide) (.welcome bob 1, "QUJD") (by decide)

open Sample in
/-- A text that breaks off after a group is stored up to there. -/
theorem broken_welcome_truncated : ∃ trace t,
    Executes system ((welcomeUpload "QUJD!!!!").handle platform) twoMembers trace true t ∧
    t.db.welcomes.lookup (channel, bob, 1) = some [65, 66, 67] ∧
    (Base64.decodeString "QUJD!!!!").2 = false ∧ ¬ Preserved "QUJD!!!!" [65, 66, 67] := by
  let run := (welcomeRun "QUJD!!!!").get broken_isSome
  have success : run.2.1 = true := by rfl
  refine ⟨run.1, run.2.2, ?_, by rfl, by rfl, fun kept => ?_⟩
  · rw [← success]
    exact welcomeRun_executes broken_isSome
  · have whole := kept.whole (by rfl)
    exact absurd whole (by decide)

end GenChat.Auth
