import GenChat.Library.StableSort
import GenChat.Library.Utf16

/-!
# The offline message store

`LocalStorageDb` of `local-storage-db.ts` keeps messages in an IndexedDB object store when the
browser has one, and in `localStorage` otherwise, one list for each channel. Every method has a
body for each. Values are written through `JSON.stringify` or the structured clone; an attachment
is a JSON text here, and absent flags are false. Times are milliseconds.
-/
namespace GenChat.Offline
open Library

structure QuotedReply where
  messageId : String
  senderId : String
  senderName : Option String
  snippet : String
  deriving DecidableEq

inductive MessageStatus where
  | pending
  | sent
  | delivered
  | read
  deriving DecidableEq

structure StoredMessage where
  id : String
  clientMsgId : String
  channelId : String
  senderId : String
  text : Option String
  attachment : Option String
  status : MessageStatus
  timestamp : String
  createdAt : Int
  ephemeralTtlSec : Option Int
  expiresAt : Option Int
  replyTo : Option QuotedReply
  reactions : Option (List (String × List String))
  isDeleted : Bool
  deletedAt : Option Int
  deletedBy : Option String
  /-- Only `everyone` is ever written. -/
  deletedForEveryone : Bool
  isEdited : Bool
  editedAt : Option Int
  isPinned : Bool
  pinnedAt : Option Int
  pinnedBy : Option String
  deriving DecidableEq

namespace StoredMessage

/-- `!m.expiresAt || m.expiresAt > now`. -/
def Live (now : Int) (m : StoredMessage) : Prop := ∀ at' ∈ m.expiresAt, at' = 0 ∨ now < at'

instance (now : Int) (m : StoredMessage) : Decidable (m.Live now) :=
  inferInstanceAs (Decidable (∀ at' ∈ m.expiresAt, at' = 0 ∨ now < at'))

def markDeleted (now : Int) (deletedBy : String) (m : StoredMessage) : StoredMessage :=
  { m with
    isDeleted := true
    deletedAt := some now
    deletedBy := some deletedBy
    deletedForEveryone := true
    text := none
    attachment := none
    replyTo := none
    reactions := none }

def edit (newText : String) (editedAt : Int) (m : StoredMessage) : StoredMessage :=
  { m with text := some newText, isEdited := true, editedAt := some editedAt }

def pin (isPinned : Bool) (pinnedBy : Option String) (at' : Int) (m : StoredMessage) :
    StoredMessage :=
  { m with
    isPinned := isPinned
    pinnedAt := if isPinned then some at' else none
    pinnedBy := if isPinned then pinnedBy else none }

def setStatus (status : MessageStatus) (m : StoredMessage) : StoredMessage :=
  { m with status := status }

/-- The store orders its keys by code units. -/
def key (m : StoredMessage) : List Nat := utf16 m.id

theorem key_eq {a b : StoredMessage} : a.key = b.key ↔ a.id = b.id := utf16_inj

/-- A change that leaves alone what messages are found, ordered and dropped by. -/
structure InPlace (change : StoredMessage → StoredMessage) : Prop where
  id (m : StoredMessage) : (change m).id = m.id
  clientMsgId (m : StoredMessage) : (change m).clientMsgId = m.clientMsgId
  channelId (m : StoredMessage) : (change m).channelId = m.channelId
  createdAt (m : StoredMessage) : (change m).createdAt = m.createdAt
  expiresAt (m : StoredMessage) : (change m).expiresAt = m.expiresAt

theorem inPlace_markDeleted (now : Int) (deletedBy : String) :
    InPlace (markDeleted now deletedBy) :=
  ⟨fun _ => rfl, fun _ => rfl, fun _ => rfl, fun _ => rfl, fun _ => rfl⟩

theorem inPlace_edit (newText : String) (editedAt : Int) : InPlace (edit newText editedAt) :=
  ⟨fun _ => rfl, fun _ => rfl, fun _ => rfl, fun _ => rfl, fun _ => rfl⟩

theorem inPlace_pin (isPinned : Bool) (pinnedBy : Option String) (at' : Int) :
    InPlace (pin isPinned pinnedBy at') :=
  ⟨fun _ => rfl, fun _ => rfl, fun _ => rfl, fun _ => rfl, fun _ => rfl⟩

theorem inPlace_setStatus (status : MessageStatus) : InPlace (setStatus status) :=
  ⟨fun _ => rfl, fun _ => rfl, fun _ => rfl, fun _ => rfl, fun _ => rfl⟩

end StoredMessage

/-! ## IndexedDB -/

/-- The object store with key path `id`. -/
@[ext]
structure ObjectStore where
  rows : List StoredMessage
  ordered : rows.Pairwise fun a b => a.key < b.key

namespace ObjectStore

def empty : ObjectStore := ⟨[], .nil⟩

def put (store : ObjectStore) (msg : StoredMessage) : ObjectStore where
  rows := store.rows.filter (·.key < msg.key) ++ msg :: store.rows.filter (msg.key < ·.key)
  ordered := by
    have below : ∀ a ∈ store.rows.filter (·.key < msg.key), a.key < msg.key := fun a ha =>
      of_decide_eq_true (List.mem_filter.mp ha).2
    have above : ∀ b ∈ store.rows.filter (msg.key < ·.key), msg.key < b.key := fun b hb =>
      of_decide_eq_true (List.mem_filter.mp hb).2
    refine List.pairwise_append.mpr ⟨store.ordered.filter _,
      List.pairwise_cons.mpr ⟨above, store.ordered.filter _⟩, fun a ha b hb => ?_⟩
    obtain rfl | hb := List.mem_cons.mp hb
    · exact below a ha
    · exact (below a ha).trans (above b hb)

def get (store : ObjectStore) (id : String) : Option StoredMessage := store.rows.find? (·.id = id)

def remove (store : ObjectStore) (p : StoredMessage → Bool) : ObjectStore :=
  ⟨store.rows.filter (! p ·), store.ordered.filter _⟩

def delete (store : ObjectStore) (id : String) : ObjectStore := store.remove (·.id = id)

/-- Read the row, change it and put it back. -/
def update (store : ObjectStore) (id : String) (change : StoredMessage → StoredMessage) :
    ObjectStore :=
  match store.get id with
  | some msg => store.put (change msg)
  | none => store

/-- `getAll` of the index `channelId`. -/
def getAll (store : ObjectStore) (channelId : String) : List StoredMessage :=
  store.rows.filter (·.channelId = channelId)

variable {store : ObjectStore} {m msg : StoredMessage}

theorem eq_of_id {a b : StoredMessage} (ha : a ∈ store.rows) (hb : b ∈ store.rows)
    (same : a.id = b.id) : a = b := by
  have keys : (store.rows.map StoredMessage.key).Nodup :=
    List.pairwise_map.mpr (store.ordered.imp fun h => ne_of_lt h)
  exact List.inj_on_of_nodup_map keys ha hb (StoredMessage.key_eq.mpr same)

theorem nodup (store : ObjectStore) : store.rows.Nodup :=
  store.ordered.imp fun h same => absurd (same ▸ h) (lt_irrefl _)

theorem mem_put : m ∈ (store.put msg).rows ↔ m = msg ∨ m ∈ store.rows ∧ m.id ≠ msg.id := by
  have apart : m.id ≠ msg.id ↔ m.key < msg.key ∨ msg.key < m.key := by
    rw [Ne, ← StoredMessage.key_eq, ← ne_eq, ne_iff_lt_or_gt]
  simp only [put, List.mem_append, List.mem_cons, List.mem_filter, decide_eq_true_eq, apart]
  tauto

theorem mem_remove {p : StoredMessage → Bool} :
    m ∈ (store.remove p).rows ↔ m ∈ store.rows ∧ p m = false := by
  simp [remove]

theorem mem_update {id : String} {change : StoredMessage → StoredMessage}
    (inPlace : StoredMessage.InPlace change) :
    m ∈ (store.update id change).rows ↔
      ∃ old ∈ store.rows, m = if old.id = id then change old else old := by
  unfold update
  cases found : store.get id with
  | none =>
    have other : ∀ old ∈ store.rows, old.id ≠ id := by simpa [get] using found
    refine ⟨fun hm => ⟨m, hm, (if_neg (other m hm)).symm⟩, ?_⟩
    rintro ⟨old, hold, rfl⟩
    simpa [other old hold] using hold
  | some msg =>
    have hmsg : msg ∈ store.rows := List.mem_of_find?_eq_some found
    have hid : msg.id = id := by simpa using List.find?_some found
    rw [mem_put, inPlace.id, hid]
    constructor
    · rintro (rfl | ⟨hm, other⟩)
      · exact ⟨msg, hmsg, (if_pos hid).symm⟩
      · exact ⟨m, hm, (if_neg other).symm⟩
    · rintro ⟨old, hold, rfl⟩
      split
      case isTrue same =>
        rw [eq_of_id hold hmsg (same.trans hid.symm)]
        exact .inl rfl
      case isFalse other => exact .inr ⟨hold, other⟩

end ObjectStore

/-! ## The fallback -/

/-- The lists under `genchat_msgs_…`; a missing list and an empty one are read alike. -/
abbrev LocalStorage := String → List StoredMessage

/-- The message goes by the name. -/
def StoredMessage.Named (m : StoredMessage) (idOrClientMsgId : String) : Prop :=
  m.id = idOrClientMsgId ∨ m.clientMsgId = idOrClientMsgId

instance (m : StoredMessage) (name : String) : Decidable (m.Named name) :=
  inferInstanceAs (Decidable (_ ∨ _))

/-- A method that is given `channelId` goes through the list of `channel`. The empty string stands
for no channel. -/
def Visits (channelId channel : String) : Prop := channelId = "" ∨ channelId = channel

instance (channelId channel : String) : Decidable (Visits channelId channel) :=
  inferInstanceAs (Decidable (_ ∨ _))

namespace LocalStorage

def empty : LocalStorage := fun _ => []

def getLocalStorageMessages (storage : LocalStorage) (now : Int) (channelId : String) :
    List StoredMessage :=
  if channelId = "" then [] else (storage channelId).filter (·.Live now)

/-- The other message is replaced by this one. -/
def Replaces (msg m : StoredMessage) : Prop :=
  m.id = msg.id ∨ msg.clientMsgId ≠ "" ∧ m.clientMsgId = msg.clientMsgId

instance (msg m : StoredMessage) : Decidable (Replaces msg m) :=
  inferInstanceAs (Decidable (_ ∨ _))

def saveMessage (storage : LocalStorage) (now : Int) (msg : StoredMessage) : LocalStorage :=
  let all := storage.getLocalStorageMessages now msg.channelId
  let idx := all.findIdx fun m => Replaces msg m
  Function.update storage msg.channelId
    (if idx < all.length then all.set idx msg else all ++ [msg])

/-- `updateKey` for each list that is visited. -/
def update (storage : LocalStorage) (name channelId : String)
    (change : StoredMessage → StoredMessage) : LocalStorage := fun channel =>
  if Visits channelId channel then
    (storage channel).map fun m => if m.Named name then change m else m
  else storage channel

/-- `purgeFromKey` for each list that is visited. -/
def deleteMessage (storage : LocalStorage) (name channelId : String) : LocalStorage :=
    fun channel =>
  if Visits channelId channel then (storage channel).filter fun m => ¬ m.Named name
  else storage channel

def purgeExpired (storage : LocalStorage) (now : Int) : LocalStorage := fun channel =>
  (storage channel).filter (·.Live now)

variable {storage : LocalStorage} {name channelId channel : String} {m : StoredMessage}

theorem mem_update {change : StoredMessage → StoredMessage} :
    m ∈ storage.update name channelId change channel ↔ ∃ old ∈ storage channel,
      m = if Visits channelId channel ∧ old.Named name then change old else old := by
  unfold update
  split
  case isTrue visited => simp [visited, eq_comm]
  case isFalse passed => simp [passed]

theorem mem_deleteMessage : m ∈ storage.deleteMessage name channelId channel ↔
    m ∈ storage channel ∧ ¬ (Visits channelId channel ∧ m.Named name) := by
  unfold deleteMessage
  split
  case isTrue visited => simp [visited]
  case isFalse passed => simp [passed]

theorem of_mem_saveMessage {now : Int} {msg : StoredMessage}
    (h : m ∈ storage.saveMessage now msg channel) : m = msg ∨ m ∈ storage channel := by
  unfold saveMessage at h
  by_cases same : channel = msg.channelId
  · subst same
    have read {m : StoredMessage} (h : m ∈ storage.getLocalStorageMessages now msg.channelId) :
        m ∈ storage msg.channelId := by
      unfold getLocalStorageMessages at h
      split at h
      · cases h
      · exact (List.mem_filter.mp h).1
    rw [Function.update_self] at h
    split at h
    · exact (List.mem_or_eq_of_mem_set h).symm.imp_right read
    · exact (List.mem_append.mp h).symm.imp List.mem_singleton.mp read
  · rw [Function.update_of_ne same] at h
    exact .inr h

end LocalStorage

/-! ## The methods -/

inductive DeleteScope where
  | everyone
  | me
  deriving DecidableEq

inductive DbCall where
  | saveMessage (msg : StoredMessage)
  | saveMessages (msgs : List StoredMessage)
  | deleteMessage (idOrClientMsgId channelId : String)
  | markMessageDeleted (idOrClientMsgId channelId deletedBy : String) (scope : DeleteScope)
  | updateMessageText (idOrClientMsgId channelId newText : String) (editedAt : Int)
  | updateMessagePinned (idOrClientMsgId channelId : String) (isPinned : Bool)
      (pinnedBy : Option String) (pinnedAt : Option Int)
  | purgeExpiredMessages
  | updateMessageStatus (clientMsgIdOrId : String) (status : MessageStatus)
  deriving DecidableEq

structure LocalStorageDb where
  /-- What `dbPromise` resolves to. -/
  db : Option ObjectStore
  localStorage : LocalStorage

namespace LocalStorageDb

/-- The rows of the object store. -/
def rows (s : LocalStorageDb) : List StoredMessage := s.db.elim [] ObjectStore.rows

def saveMessage (s : LocalStorageDb) (now : Int) (msg : StoredMessage) : LocalStorageDb :=
  match s.db with
  | some store => { s with db := some (store.put msg) }
  | none => { s with localStorage := s.localStorage.saveMessage now msg }

/-- One transaction, or one message after the other. -/
def saveMessages (s : LocalStorageDb) (now : Int) (msgs : List StoredMessage) : LocalStorageDb :=
  msgs.foldl (fun s msg => s.saveMessage now msg) s

def deleteMessage (s : LocalStorageDb) (name channelId : String) : LocalStorageDb where
  db := s.db.map fun store => store.delete name
  localStorage := s.localStorage.deleteMessage name channelId

/-- The body that the methods share which change a message in place. -/
def update (s : LocalStorageDb) (name channelId : String)
    (change : StoredMessage → StoredMessage) : LocalStorageDb where
  db := s.db.map fun store => store.update name change
  localStorage := s.localStorage.update name channelId change

def markMessageDeleted (s : LocalStorageDb) (now : Int) (name channelId deletedBy : String) :
    DeleteScope → LocalStorageDb
  | .me => s.deleteMessage name channelId
  | .everyone => s.update name channelId (·.markDeleted now deletedBy)

def updateMessageText (s : LocalStorageDb) (name channelId newText : String) (editedAt : Int) :
    LocalStorageDb :=
  s.update name channelId (·.edit newText editedAt)

def updateMessagePinned (s : LocalStorageDb) (now : Int) (name channelId : String)
    (isPinned : Bool) (pinnedBy : Option String) (pinnedAt : Option Int) : LocalStorageDb :=
  let at' := match pinnedAt with
    | some at' => if at' = 0 then now else at'
    | none => now
  s.update name channelId (·.pin isPinned pinnedBy at')

def purgeExpiredMessages (s : LocalStorageDb) (now : Int) : LocalStorageDb where
  db := s.db.map fun store => store.remove (¬ ·.Live now)
  localStorage := s.localStorage.purgeExpired now

/-- The fallback has no body here. -/
def updateMessageStatus (s : LocalStorageDb) (id : String) (status : MessageStatus) :
    LocalStorageDb :=
  { s with db := s.db.map fun store => store.update id (·.setStatus status) }

def call (s : LocalStorageDb) (now : Int) : DbCall → LocalStorageDb
  | .saveMessage msg => s.saveMessage now msg
  | .saveMessages msgs => s.saveMessages now msgs
  | .deleteMessage name channelId => s.deleteMessage name channelId
  | .markMessageDeleted name channelId deletedBy scope =>
    s.markMessageDeleted now name channelId deletedBy scope
  | .updateMessageText name channelId newText editedAt =>
    s.updateMessageText name channelId newText editedAt
  | .updateMessagePinned name channelId isPinned pinnedBy pinnedAt =>
    s.updateMessagePinned now name channelId isPinned pinnedBy pinnedAt
  | .purgeExpiredMessages => s.purgeExpiredMessages now
  | .updateMessageStatus id status => s.updateMessageStatus id status

/-! ## What is stored -/

section Stored
variable (s : LocalStorageDb)

def Stored (m : StoredMessage) : Prop := m ∈ s.rows ∨ ∃ c, m ∈ s.localStorage c

/-- A method that is given this name and channel changes every stored message with `p`. -/
def Reaches (name channelId : String) (p : StoredMessage → Prop) : Prop :=
  (∀ m ∈ s.rows, p m → m.id = name) ∧
    ∀ c, ∀ m ∈ s.localStorage c, p m → Visits channelId c ∧ m.Named name

/-- It changes no stored message with `p`. -/
def Spares (name channelId : String) (p : StoredMessage → Prop) : Prop :=
  (∀ m ∈ s.rows, p m → m.id ≠ name) ∧
    ∀ c, ∀ m ∈ s.localStorage c, p m → ¬ (Visits channelId c ∧ m.Named name)

open StoredMessage
variable {s}

theorem stored_saveMessage {now : Int} {msg m : StoredMessage}
    (h : (s.saveMessage now msg).Stored m) : m = msg ∨ s.Stored m := by
  unfold saveMessage at h
  cases hdb : s.db with
  | some store =>
    rw [hdb] at h
    obtain h | h := h
    · have h : m ∈ (store.put msg).rows := h
      obtain rfl | ⟨old, -⟩ := ObjectStore.mem_put.mp h
      · exact .inl rfl
      · exact .inr (.inl (by simpa [rows, hdb] using old))
    · exact .inr (.inr h)
  | none =>
    rw [hdb] at h
    obtain h | ⟨c, h⟩ := h
    · cases h
    · refine (LocalStorage.of_mem_saveMessage h).imp_right fun old => .inr ⟨c, old⟩

/-- What `update` stores: a changed message that it reaches, or one as before that it does not. -/
theorem stored_update {name channelId : String} {change : StoredMessage → StoredMessage}
    (inPlace : InPlace change) {m : StoredMessage}
    (h : (s.update name channelId change).Stored m) :
    ∃ old, s.Stored old ∧ (m = change old ∧ ¬ s.Spares name channelId (· = old) ∨
      m = old ∧ ¬ s.Reaches name channelId (· = old)) := by
  obtain h | ⟨c, h⟩ := h
  · obtain ⟨db, storage⟩ := s
    cases db with
    | none => cases h
    | some store =>
      have h : m ∈ (store.update name change).rows := h
      obtain ⟨old, hold, rfl⟩ := (ObjectStore.mem_update inPlace).mp h
      refine ⟨old, .inl hold, ?_⟩
      split
      case isTrue same => exact .inl ⟨rfl, fun spares => spares.1 old hold rfl same⟩
      case isFalse other => exact .inr ⟨rfl, fun reaches => other (reaches.1 old hold rfl)⟩
  · obtain ⟨old, hold, rfl⟩ := LocalStorage.mem_update.mp h
    refine ⟨old, .inr ⟨c, hold⟩, ?_⟩
    split
    case isTrue found => exact .inl ⟨rfl, fun spares => spares.2 c old hold rfl found⟩
    case isFalse missed => exact .inr ⟨rfl, fun reaches => missed (reaches.2 c old hold rfl)⟩

theorem stored_deleteMessage {name channelId : String} {m : StoredMessage}
    (h : (s.deleteMessage name channelId).Stored m) : s.Stored m := by
  obtain h | ⟨c, h⟩ := h
  · obtain ⟨db, storage⟩ := s
    cases db with
    | none => cases h
    | some store => exact .inl (List.mem_filter.mp h).1
  · exact .inr ⟨c, (LocalStorage.mem_deleteMessage.mp h).1⟩

theorem stored_purgeExpiredMessages {now : Int} {m : StoredMessage}
    (h : (s.purgeExpiredMessages now).Stored m) : s.Stored m := by
  obtain h | ⟨c, h⟩ := h
  · obtain ⟨db, storage⟩ := s
    cases db with
    | none => cases h
    | some store => exact .inl (List.mem_filter.mp h).1
  · exact .inr ⟨c, (List.mem_filter.mp h).1⟩

theorem stored_updateMessageStatus {id : String} {status : MessageStatus} {m : StoredMessage}
    (h : (s.updateMessageStatus id status).Stored m) :
    ∃ old, s.Stored old ∧ (m = old.setStatus status ∨ m = old) := by
  obtain h | h := h
  · obtain ⟨db, storage⟩ := s
    cases db with
    | none => cases h
    | some store =>
      have h : m ∈ (store.update id (·.setStatus status)).rows := h
      obtain ⟨old, hold, rfl⟩ := (ObjectStore.mem_update (inPlace_setStatus status)).mp h
      refine ⟨old, .inl hold, ?_⟩
      split
      · exact .inl rfl
      · exact .inr rfl
  · exact ⟨m, .inr h, .inr rfl⟩

end Stored

/-! ## Reads -/

def OldestFirst (a b : StoredMessage) : Prop := a.createdAt ≤ b.createdAt

instance : DecidableRel OldestFirst := fun _ _ => inferInstanceAs (Decidable (_ ≤ _))

def getMessagesByChannel (s : LocalStorageDb) (now : Int) (channelId : String) :
    List StoredMessage :=
  match s.db with
  | some store => ((store.getAll channelId).filter (·.Live now)).insertionSort OldestFirst
  | none => s.localStorage.getLocalStorageMessages now channelId

def LatestPinFirst (a b : StoredMessage) : Prop := b.pinnedAt.getD 0 ≤ a.pinnedAt.getD 0

instance : DecidableRel LatestPinFirst := fun _ _ => inferInstanceAs (Decidable (_ ≤ _))

def getPinnedMessages (s : LocalStorageDb) (now : Int) (channelId : String) : List StoredMessage :=
  ((s.getMessagesByChannel now channelId).filter fun m => m.isPinned ∧ ¬ m.isDeleted).insertionSort
    LatestPinFirst

/-! ## Search -/

/-- `\s` of a JavaScript pattern. -/
def isSpace (unit : Nat) : Bool :=
  unit ∈ [0x09, 0x0A, 0x0B, 0x0C, 0x0D, 0x20, 0xA0, 0x1680, 0x2028, 0x2029, 0x202F, 0x205F, 0x3000,
    0xFEFF] ∨ 0x2000 ≤ unit ∧ unit ≤ 0x200A

def trim (s : String) : String :=
  let blank (c : Char) := isSpace c.toNat
  String.ofList ((s.toList.dropWhile blank).reverse.dropWhile blank).reverse

/-- The words of the query, as code units. -/
def searchTerms (toLowerCase : String → String) (query : String) : List (List Nat) :=
  ((utf16 (toLowerCase (trim query))).splitOnP isSpace).filter (· ≠ [])

/-- The first place of a text where the term begins. -/
def indexOf (term : List Nat) : List Nat → Option Nat
  | [] => if term = [] then some 0 else none
  | c :: text => if term <+: c :: text then some 0 else (indexOf term text).map (· + 1)

/-- The character before the place is a space or one of `.,!?;:`. -/
def isWordBoundary (lower : List Nat) (idx : Nat) : Bool :=
  idx = 0 ∨ lower[idx - 1]?.any fun c => isSpace c ∨ c ∈ [0x2E, 0x2C, 0x21, 0x3F, 0x3B, 0x3A]

structure SearchSnippetResult where
  message : StoredMessage
  score : Nat
  /-- The code units of each snippet. -/
  snippets : List (List Nat)
  deriving DecidableEq

def dots : List Nat := utf16 "..."

/-- One term of the query: what it adds to the score and the snippets. -/
def matchTerm (text lower : List Nat) (found : Nat × List (List Nat)) (term : List Nat) :
    Option (Nat × List (List Nat)) :=
  let cleanTerm := if term.getLast? = some 0x2A then term.dropLast else term
  (indexOf cleanTerm lower).map fun idx =>
    let snippetStart := idx - 25
    let snippetEnd := min text.length (idx + cleanTerm.length + 25)
    (found.1 + (if isWordBoundary lower idx then 10 else 5),
      found.2 ++ [dots ++ (text.drop snippetStart).take (snippetEnd - snippetStart) ++ dots])

/-- A message that is not deleted, has a text and contains every term. -/
def searchMessage (toLowerCase : String → String) (terms : List (List Nat)) (msg : StoredMessage) :
    Option SearchSnippetResult :=
  let text := msg.text.getD ""
  if msg.isDeleted ∨ text = "" then none
  else (terms.foldlM (matchTerm (utf16 text) (utf16 (toLowerCase text))) (0, [])).map
    fun (score, snippets) => ⟨msg, score, snippets⟩

theorem searchMessage_message {toLowerCase : String → String} {terms : List (List Nat)}
    {m : StoredMessage} {r : SearchSnippetResult}
    (h : searchMessage toLowerCase terms m = some r) : r.message = m := by
  simp only [searchMessage] at h
  split at h
  case isTrue => cases h
  case isFalse =>
    obtain ⟨_, -, rfl⟩ := Option.map_eq_some_iff.mp h
    rfl

/-- By score, the best first, and then by date, the latest first. -/
def MoreRelevant (a b : SearchSnippetResult) : Prop :=
  b.score < a.score ∨ a.score = b.score ∧ b.message.createdAt ≤ a.message.createdAt

instance : DecidableRel MoreRelevant := fun _ _ => inferInstanceAs (Decidable (_ ∨ _))

/-- The messages that a search goes through. The empty string stands for no channel. -/
def searchPool (s : LocalStorageDb) (now : Int) (channelId : String) : List StoredMessage :=
  match s.db with
  | some store => if channelId = "" then store.rows else store.getAll channelId
  | none => s.localStorage.getLocalStorageMessages now channelId

def search (s : LocalStorageDb) (toLowerCase : String → String) (now : Int)
    (query channelId : String) : List SearchSnippetResult :=
  let terms := searchTerms toLowerCase query
  if terms = [] then []
  else
    let pool := (s.searchPool now channelId).filter fun m => ¬ m.isDeleted ∧ m.Live now
    ((pool.filterMap (searchMessage toLowerCase terms)).insertionSort MoreRelevant).take 30

end LocalStorageDb
/-- A message of Bob. -/
def Sample.message (id clientMsgId text : String) (createdAt : Int) : StoredMessage where
  id := id
  clientMsgId := clientMsgId
  channelId := "channel"
  senderId := "bob"
  text := some text
  attachment := none
  status := .sent
  timestamp := "10:00"
  createdAt := createdAt
  ephemeralTtlSec := none
  expiresAt := none
  replyTo := none
  reactions := none
  isDeleted := false
  deletedAt := none
  deletedBy := none
  deletedForEveryone := false
  isEdited := false
  editedAt := none
  isPinned := false
  pinnedAt := none
  pinnedBy := none

end GenChat.Offline
