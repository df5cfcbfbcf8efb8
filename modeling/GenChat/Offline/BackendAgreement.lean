import GenChat.Library.Machine
import GenChat.Offline.LocalStorageDb

/-!
# The two backends of the message store

The bodies of a method differ: IndexedDB knows a message by its id and the fallback by either name;
the fallback replaces a message that has the same client id, keeps the order in which messages came
in, and has no body for a status. Calls are told apart by whether both bodies reach the same
messages. As long as they do, the lists of the fallback hold the live rows of each channel, the
oldest first, and the two give the same answers.
-/
namespace GenChat.Offline
open Library

/-! ## One store, two backends -/

/-- The same calls, with IndexedDB and without, and the time of the last one. -/
structure Pair where
  indexed : LocalStorageDb
  fallback : LocalStorageDb
  clock : Int

/-- Both start empty. -/
def Pair.machine : Machine Pair (Int × DbCall) where
  start p := p.indexed = ⟨some .empty, .empty⟩ ∧ p.fallback = ⟨none, .empty⟩
  step p := fun (now, op) => some ⟨p.indexed.call now op, p.fallback.call now op, now⟩

namespace StoredMessage

/-- Older, or of the same time and before it in the object store. -/
def Before (a b : StoredMessage) : Prop :=
  a.createdAt < b.createdAt ∨ a.createdAt = b.createdAt ∧ a.key < b.key

instance (a b : StoredMessage) : Decidable (a.Before b) := inferInstanceAs (Decidable (_ ∨ _))

end StoredMessage

/-- The name means the same messages to both bodies: those with this id. -/
def SameNamed (rows : List StoredMessage) (now : Int) (name channelId : String) : Prop :=
  ∀ m ∈ rows, m.Live now → (m.id = name ↔ Visits channelId m.channelId ∧ m.Named name)

instance (rows : List StoredMessage) (now : Int) (name channelId : String) :
    Decidable (SameNamed rows now name channelId) :=
  inferInstanceAs (Decidable (∀ m ∈ rows, _))

/-- What the message replaces, if anything, is the message with its id, and its place is the right
one; a new message is the latest. -/
def PlacedAlike (now : Int) (all : List StoredMessage) (msg : StoredMessage) :
    Option StoredMessage → Prop
  | none => msg.Live now → ∀ m ∈ all, m.Before msg
  | some old => old.id = msg.id ∧
    (msg.Live now → ∀ m ∈ all, m.id ≠ msg.id → (m.Before msg ↔ m.Before old))

instance (now : Int) (all : List StoredMessage) (msg : StoredMessage) :
    (replaced : Option StoredMessage) → Decidable (PlacedAlike now all msg replaced)
  | none => inferInstanceAs (Decidable (_ → ∀ m ∈ all, _))
  | some _ => inferInstanceAs (Decidable (_ ∧ (_ → ∀ m ∈ all, _)))

/-- The message is in a channel, in no other one already, and comes to the same place. -/
def SavedAlike (rows : List StoredMessage) (storage : LocalStorage) (now : Int)
    (msg : StoredMessage) : Prop :=
  let all := storage.getLocalStorageMessages now msg.channelId
  msg.channelId ≠ "" ∧
    (∀ m ∈ rows, m.Live now → m.id = msg.id → m.channelId = msg.channelId) ∧
    PlacedAlike now all msg (all.find? (LocalStorage.Replaces msg ·))

instance (rows : List StoredMessage) (storage : LocalStorage) (now : Int) (msg : StoredMessage) :
    Decidable (SavedAlike rows storage now msg) :=
  inferInstanceAs (Decidable (_ ∧ (∀ m ∈ rows, _) ∧ PlacedAlike _ _ _ _))

def AllSavedAlike (s fallback : LocalStorageDb) (now : Int) : List StoredMessage → Prop
  | [] => True
  | msg :: msgs => SavedAlike s.rows fallback.localStorage now msg ∧
    AllSavedAlike (s.saveMessage now msg) (fallback.saveMessage now msg) now msgs

instance decidableAllSavedAlike (s fallback : LocalStorageDb) (now : Int) :
    (msgs : List StoredMessage) → Decidable (AllSavedAlike s fallback now msgs)
  | [] => .isTrue trivial
  | msg :: msgs =>
    have := decidableAllSavedAlike (s.saveMessage now msg) (fallback.saveMessage now msg) now msgs
    inferInstanceAs (Decidable (_ ∧ AllSavedAlike _ _ _ msgs))

/-- The two bodies of the method reach the same messages. -/
def Pair.SameReach (p : Pair) (now : Int) : DbCall → Prop
  | .saveMessage msg => SavedAlike p.indexed.rows p.fallback.localStorage now msg
  | .saveMessages msgs => AllSavedAlike p.indexed p.fallback now msgs
  | .deleteMessage name channelId => SameNamed p.indexed.rows now name channelId
  | .markMessageDeleted name channelId _ _ => SameNamed p.indexed.rows now name channelId
  | .updateMessageText name channelId _ _ => SameNamed p.indexed.rows now name channelId
  | .updateMessagePinned name channelId _ _ _ => SameNamed p.indexed.rows now name channelId
  | .purgeExpiredMessages => True
  | .updateMessageStatus id status =>
    ∀ m ∈ p.indexed.rows, m.Live now → m.id = id → m.status = status

instance (p : Pair) (now : Int) : (op : DbCall) → Decidable (p.SameReach now op)
  | .saveMessage _ => inferInstanceAs (Decidable (SavedAlike _ _ _ _))
  | .saveMessages msgs => inferInstanceAs (Decidable (AllSavedAlike _ _ _ msgs))
  | .deleteMessage .. => inferInstanceAs (Decidable (SameNamed _ _ _ _))
  | .markMessageDeleted .. => inferInstanceAs (Decidable (SameNamed _ _ _ _))
  | .updateMessageText .. => inferInstanceAs (Decidable (SameNamed _ _ _ _))
  | .updateMessagePinned .. => inferInstanceAs (Decidable (SameNamed _ _ _ _))
  | .purgeExpiredMessages => .isTrue trivial
  | .updateMessageStatus .. => inferInstanceAs (Decidable (∀ m ∈ p.indexed.rows, _))

/-- The clock is not set back, either. -/
def Pair.Alike (p : Pair) (call : Int × DbCall) : Prop :=
  p.clock ≤ call.1 ∧ p.SameReach call.1 call.2

instance (p : Pair) (call : Int × DbCall) : Decidable (p.Alike call) :=
  inferInstanceAs (Decidable (_ ∧ _))

/-- The search names a channel, or finds nothing in any. -/
def Pair.Searchable (p : Pair) (toLowerCase : String → String) (now : Int)
    (query channelId : String) : Prop :=
  channelId ≠ "" ∨ LocalStorageDb.searchTerms toLowerCase query = [] ∨
    ∀ m ∈ p.indexed.rows, m.Live now →
      LocalStorageDb.searchMessage toLowerCase (LocalStorageDb.searchTerms toLowerCase query) m =
        none

/-! ## The lists of the fallback -/

namespace StoredMessage
variable {a b : StoredMessage}

theorem Before.asymm (h : a.Before b) : ¬ b.Before a := by
  rintro (older | ⟨_, before⟩)
  · obtain h | h := h <;> omega
  · obtain h | h := h
    · omega
    · exact lt_asymm before h.2

theorem before_or_after (apart : a.id ≠ b.id) : a.Before b ∨ b.Before a := by
  obtain h | h | h := lt_trichotomy a.createdAt b.createdAt
  · exact .inl (.inl h)
  · have keys := ne_iff_lt_or_gt.mp (key_eq.not.mpr apart)
    exact keys.imp (fun k => .inr ⟨h, k⟩) fun k => .inr ⟨h.symm, k⟩
  · exact .inr (.inl h)

theorem Live.earlier {clock now : Int} (later : clock ≤ now) (h : a.Live now) : a.Live clock :=
  fun at' expires => (h at' expires).imp_right later.trans_lt

end StoredMessage

/-- The lists hold the live rows of each channel, the oldest first. -/
structure Agrees (clock : Int) (store : ObjectStore) (storage : LocalStorage) : Prop where
  mem {m : StoredMessage} (c : String) : m.Live clock →
    (m ∈ storage c ↔ m ∈ store.rows ∧ m.channelId = c)
  ordered (c : String) :
    (storage c).Pairwise fun a b => a.Live clock → b.Live clock → a.Before b
  channels : ∀ m ∈ store.rows, m.channelId ≠ ""

namespace Agrees
variable {clock now : Int} {store : ObjectStore} {storage : LocalStorage}

theorem later (agrees : Agrees clock store storage) (later : clock ≤ now) :
    Agrees now store storage where
  mem c live := agrees.mem c (live.earlier later)
  ordered c := (agrees.ordered c).imp fun h ha hb => h (ha.earlier later) (hb.earlier later)
  channels := agrees.channels

variable (agrees : Agrees now store storage)
include agrees

/-- The changed rows, where both bodies change the same ones. -/
theorem of_change {store' : ObjectStore} {storage' : LocalStorage}
    {change : StoredMessage → StoredMessage} {reached : StoredMessage → Prop}
    [DecidablePred reached] (listed : String → StoredMessage → Prop)
    [∀ c, DecidablePred (listed c)] (inPlace : StoredMessage.InPlace change)
    (rows : ∀ m, m ∈ store'.rows ↔ ∃ old ∈ store.rows, m = if reached old then change old else old)
    (lists : ∀ c, storage' c = (storage c).map fun m => if listed c m then change m else m)
    (same : ∀ m ∈ store.rows, m.Live now →
      (if reached m then change m else m) = if listed m.channelId m then change m else m) :
    Agrees now store' storage' := by
  have keeps (p : Prop) [Decidable p] (m : StoredMessage) :
      ((if p then change m else m).Live now ↔ m.Live now) ∧
      (if p then change m else m).channelId = m.channelId ∧
      (if p then change m else m).createdAt = m.createdAt ∧
      (if p then change m else m).key = m.key := by
    split
    · simp [StoredMessage.Live, StoredMessage.key, inPlace.expiresAt, inPlace.channelId,
        inPlace.createdAt, inPlace.id]
    · simp
  refine ⟨fun {m} c live => ?_, fun c => ?_, fun m hm => ?_⟩
  · rw [lists, rows, List.mem_map]
    constructor
    · rintro ⟨old, hold, rfl⟩
      have was := (keeps _ old).1.mp live
      obtain ⟨hrow, rfl⟩ := (agrees.mem c was).mp hold
      exact ⟨⟨old, hrow, (same old hrow was).symm⟩, (keeps _ old).2.1⟩
    · rintro ⟨⟨old, hrow, rfl⟩, rfl⟩
      have was := (keeps _ old).1.mp live
      rw [(keeps _ old).2.1, same old hrow was]
      exact ⟨old, (agrees.mem _ was).mpr ⟨hrow, rfl⟩, rfl⟩
  · rw [lists, List.pairwise_map]
    refine (agrees.ordered c).imp fun {a b} h ha hb => ?_
    have before := h ((keeps _ a).1.mp ha) ((keeps _ b).1.mp hb)
    simpa only [StoredMessage.Before, (keeps _ a).2.2, (keeps _ b).2.2] using before
  · obtain ⟨old, hrow, rfl⟩ := (rows m).mp hm
    rw [(keeps _ old).2.1]
    exact agrees.channels old hrow

theorem update {name channelId : String} {change : StoredMessage → StoredMessage}
    (inPlace : StoredMessage.InPlace change) (ok : SameNamed store.rows now name channelId) :
    Agrees now (store.update name change) (storage.update name channelId change) := by
  refine agrees.of_change (fun c m => Visits channelId c ∧ m.Named name) inPlace
    (fun m => ObjectStore.mem_update inPlace) (fun c => ?_) fun m hm live => ?_
  · unfold LocalStorage.update
    split
    case isTrue visited => simp [visited]
    case isFalse passed => simp [passed]
  · simp only [ok m hm live]

/-- A change of the rows alone that changes no live one. -/
theorem update_rows {id : String} {change : StoredMessage → StoredMessage}
    (inPlace : StoredMessage.InPlace change)
    (still : ∀ m ∈ store.rows, m.Live now → m.id = id → change m = m) :
    Agrees now (store.update id change) storage := by
  refine agrees.of_change (fun _ _ => False) inPlace (fun m => ObjectStore.mem_update inPlace)
    (fun c => by simp) fun m hm live => ?_
  rw [if_neg not_false]
  split
  case isTrue same => exact still m hm live same
  case isFalse => rfl

theorem deleteMessage {name channelId : String} (ok : SameNamed store.rows now name channelId) :
    Agrees now (store.delete name) (storage.deleteMessage name channelId) := by
  refine ⟨fun {m} c live => ?_, fun c => ?_, fun m hm => ?_⟩
  · rw [LocalStorage.mem_deleteMessage, ObjectStore.delete, ObjectStore.mem_remove,
      decide_eq_false_iff_not, agrees.mem c live]
    constructor
    · rintro ⟨⟨hrow, rfl⟩, spared⟩
      exact ⟨⟨hrow, mt (ok m hrow live).mp spared⟩, rfl⟩
    · rintro ⟨⟨hrow, other⟩, rfl⟩
      exact ⟨⟨hrow, rfl⟩, mt (ok m hrow live).mpr other⟩
  · unfold LocalStorage.deleteMessage
    split
    · exact (agrees.ordered c).filter _
    · exact agrees.ordered c
  · exact agrees.channels m (ObjectStore.mem_remove.mp hm).1

theorem purgeExpired :
    Agrees now (store.remove (¬ ·.Live now)) (storage.purgeExpired now) := by
  refine ⟨fun {m} c live => ?_, fun c => (agrees.ordered c).filter _, fun m hm => ?_⟩
  · rw [LocalStorage.purgeExpired, List.mem_filter, ObjectStore.mem_remove, agrees.mem c live]
    simp [live]
  · exact agrees.channels m (ObjectStore.mem_remove.mp hm).1

theorem list_ordered (c : String) :
    ((storage c).filter (·.Live now)).Pairwise StoredMessage.Before := by
  refine List.pairwise_filter.mpr ((agrees.ordered c).imp fun h ha hb => ?_)
  exact h (of_decide_eq_true ha) (of_decide_eq_true hb)

/-- The live messages of a list have different ids. -/
theorem apart (c : String) :
    ((storage c).filter (·.Live now)).Pairwise fun a b => a.id ≠ b.id := by
  refine (agrees.list_ordered c).imp_of_mem fun {a b} ha hb h same => ?_
  have row {m : StoredMessage} (hm : m ∈ (storage c).filter (·.Live now)) : m ∈ store.rows := by
    obtain ⟨hm, live⟩ := List.mem_filter.mp hm
    exact ((agrees.mem c (of_decide_eq_true live)).mp hm).1
  obtain rfl := ObjectStore.eq_of_id (row ha) (row hb) same
  exact h.asymm h

end Agrees

/-- The message goes to the place of the one that it replaces, or to the end. -/
theorem upsert_cases (all : List StoredMessage) (msg : StoredMessage) :
    let idx := all.findIdx fun m => LocalStorage.Replaces msg m
    let saved := if idx < all.length then all.set idx msg else all ++ [msg]
    (∃ old earlier later, all.find? (LocalStorage.Replaces msg ·) = some old ∧
      all = earlier ++ old :: later ∧ saved = earlier ++ msg :: later) ∨
      all.find? (LocalStorage.Replaces msg ·) = none ∧ saved = all ++ [msg] := by
  intro idx saved
  cases found : all.find? (LocalStorage.Replaces msg ·) with
  | none =>
    refine .inr ⟨rfl, if_neg ?_⟩
    have absent := List.find?_eq_none.mp found
    rw [List.findIdx_lt_length]
    rintro ⟨m, hm, replaced⟩
    exact absent m hm replaced
  | some old =>
    obtain ⟨replaced, earlier, later, split, others⟩ := List.find?_eq_some_iff_append.mp found
    have place : idx = earlier.length := by
      have other : earlier.findIdx (fun m => decide (LocalStorage.Replaces msg m)) =
          earlier.length := by
        rw [List.findIdx_eq_length]
        intro m hm
        simpa using others m hm
      simp only [idx, split, List.findIdx_append, other, lt_irrefl, if_false, List.findIdx_cons,
        replaced, cond_true, zero_add]
    refine .inl ⟨old, earlier, later, rfl, split, ?_⟩
    simp only [saved, place, split, List.length_append, List.length_cons]
    rw [if_pos (by omega), List.set_append_right _ _ le_rfl, Nat.sub_self, List.set_cons_zero]

namespace Agrees
variable {now : Int} {store : ObjectStore} {storage : LocalStorage} {msg : StoredMessage}

/-- The list that the fallback writes has the message instead of the one with its id, in order. -/
theorem saved (agrees : Agrees now store storage) (ok : SavedAlike store.rows storage now msg) :
    let list := storage.saveMessage now msg msg.channelId
    (∀ m, m ∈ list ↔
      m = msg ∨ (m ∈ storage msg.channelId ∧ m.Live now) ∧ m.id ≠ msg.id) ∧
    list.Pairwise fun a b => a.Live now → b.Live now → a.Before b := by
  obtain ⟨named, -, place⟩ := ok
  have read : storage.getLocalStorageMessages now msg.channelId =
      (storage msg.channelId).filter (·.Live now) := if_neg named
  have apart := agrees.apart msg.channelId
  have ordered := agrees.list_ordered msg.channelId
  have mem (m : StoredMessage) : m ∈ (storage msg.channelId).filter (·.Live now) ↔
      m ∈ storage msg.channelId ∧ m.Live now := by
    rw [List.mem_filter, decide_eq_true_eq]
  intro list
  simp only [list, LocalStorage.saveMessage, Function.update_self, read] at place ⊢
  simp only [← mem]
  generalize (storage msg.channelId).filter (·.Live now) = all at *
  obtain ⟨old, earlier, later, found, rfl, written⟩ | ⟨absent, written⟩ := upsert_cases all msg
  · rw [written]
    rw [found] at place
    obtain ⟨same, kept⟩ := place
    obtain ⟨apart₁, apart₂, apart₁₂⟩ := List.pairwise_append.mp apart
    obtain ⟨apartOld, -⟩ := List.pairwise_cons.mp apart₂
    obtain ⟨order₁, order₂, order₁₂⟩ := List.pairwise_append.mp ordered
    obtain ⟨orderOld, order₂⟩ := List.pairwise_cons.mp order₂
    have other₁ : ∀ m ∈ earlier, m.id ≠ msg.id := fun m hm =>
      same ▸ apart₁₂ m hm old List.mem_cons_self
    have other₂ : ∀ m ∈ later, m.id ≠ msg.id := fun m hm => same ▸ (apartOld m hm).symm
    refine ⟨fun m => ?_, ?_⟩
    · simp only [List.mem_append, List.mem_cons]
      constructor
      · rintro (hm | rfl | hm)
        · exact .inr ⟨.inl hm, other₁ m hm⟩
        · exact .inl rfl
        · exact .inr ⟨.inr (.inr hm), other₂ m hm⟩
      · rintro (rfl | ⟨hm | rfl | hm, other⟩)
        · exact .inr (.inl rfl)
        · exact .inl hm
        · exact absurd same other
        · exact .inr (.inr hm)
    · refine List.pairwise_append.mpr ⟨order₁.imp fun h _ _ => h, List.pairwise_cons.mpr
        ⟨fun m hm live _ => ?_, order₂.imp fun h _ _ => h⟩, fun a ha b hb hla hlb => ?_⟩
      · have hm' : m ∈ earlier ++ old :: later := by simp [hm]
        refine (StoredMessage.before_or_after (other₂ m hm)).resolve_left fun before => ?_
        exact (orderOld m hm).asymm ((kept live m hm' (other₂ m hm)).mp before)
      · obtain rfl | hb := List.mem_cons.mp hb
        · have ha' : a ∈ earlier ++ old :: later := by simp [ha]
          exact (kept hlb a ha' (other₁ a ha)).mpr (order₁₂ a ha old List.mem_cons_self)
        · exact order₁₂ a ha b (List.mem_cons_of_mem _ hb)
  · rw [written]
    rw [absent] at place
    have others : ∀ m ∈ all, m.id ≠ msg.id := fun m hm same =>
      List.find?_eq_none.mp absent m hm (decide_eq_true (.inl same))
    refine ⟨fun m => ?_, ?_⟩
    · simp only [List.mem_append, List.mem_singleton]
      constructor
      · rintro (hm | rfl)
        · exact .inr ⟨hm, others m hm⟩
        · exact .inl rfl
      · rintro (rfl | ⟨hm, -⟩)
        · exact .inr rfl
        · exact .inl hm
    · refine List.pairwise_append.mpr ⟨ordered.imp fun h _ _ => h, List.pairwise_singleton _ _,
        fun a ha b hb _ live => ?_⟩
      obtain rfl := List.mem_singleton.mp hb
      exact place live a ha

theorem saveMessage (agrees : Agrees now store storage)
    (ok : SavedAlike store.rows storage now msg) :
    Agrees now (store.put msg) (storage.saveMessage now msg) := by
  obtain ⟨members, order⟩ := agrees.saved ok
  obtain ⟨named, elsewhere, -⟩ := ok
  have passed {c : String} (other : c ≠ msg.channelId) :
      storage.saveMessage now msg c = storage c := Function.update_of_ne other _ _
  refine ⟨fun {m} c live => ?_, fun c => ?_, fun m hm => ?_⟩
  · rw [ObjectStore.mem_put]
    by_cases same : c = msg.channelId
    · subst same
      rw [members, agrees.mem _ live]
      constructor
      · rintro (rfl | ⟨⟨⟨hrow, inChannel⟩, -⟩, other⟩)
        · exact ⟨.inl rfl, rfl⟩
        · exact ⟨.inr ⟨hrow, other⟩, inChannel⟩
      · rintro ⟨rfl | ⟨hrow, other⟩, inChannel⟩
        · exact .inl rfl
        · exact .inr ⟨⟨⟨hrow, inChannel⟩, live⟩, other⟩
    · rw [passed same, agrees.mem c live]
      constructor
      · rintro ⟨hrow, rfl⟩
        exact ⟨.inr ⟨hrow, mt (elsewhere m hrow live) same⟩, rfl⟩
      · rintro ⟨rfl | ⟨hrow, -⟩, rfl⟩
        · exact absurd rfl same
        · exact ⟨hrow, rfl⟩
  · by_cases same : c = msg.channelId
    · subst same
      exact order
    · rw [passed same]
      exact agrees.ordered c
  · obtain rfl | ⟨hrow, -⟩ := ObjectStore.mem_put.mp hm
    · exact named
    · exact agrees.channels m hrow

end Agrees
/-! ## Runs -/

namespace LocalStorage

theorem update_empty (name channelId : String) (change : StoredMessage → StoredMessage) :
    empty.update name channelId change = empty := by
  funext c
  simp [update, empty]

theorem deleteMessage_empty (name channelId : String) :
    empty.deleteMessage name channelId = empty := by
  funext c
  simp [deleteMessage, empty]

theorem purgeExpired_empty (now : Int) : empty.purgeExpired now = empty := rfl

end LocalStorage

/-- With IndexedDB nothing goes to the fallback, and what the fallback has agrees with the rows. -/
def Pair.Sound (p : Pair) (now : Int) : Prop :=
  ∃ store storage, p.indexed = ⟨some store, .empty⟩ ∧ p.fallback = ⟨none, storage⟩ ∧
    Agrees now store storage

theorem Pair.Sound.saveMessages {msgs : List StoredMessage} {now : Int} {p : Pair}
    (sound : p.Sound now) (ok : AllSavedAlike p.indexed p.fallback now msgs) :
    Pair.Sound ⟨p.indexed.saveMessages now msgs, p.fallback.saveMessages now msgs, now⟩ now := by
  induction msgs generalizing p with
  | nil => exact sound
  | cons msg msgs ih =>
    obtain ⟨store, storage, hi, hf, agrees⟩ := sound
    obtain ⟨first, rest⟩ := ok
    rw [hi, hf] at first rest
    have next : Pair.Sound ⟨_, _, now⟩ now :=
      ⟨store.put msg, storage.saveMessage now msg, rfl, rfl, agrees.saveMessage first⟩
    rw [hi, hf]
    exact ih next rest

theorem Pair.Sound.step {p : Pair} {now : Int} {op : DbCall} (sound : p.Sound p.clock)
    (ok : p.Alike (now, op)) :
    Pair.Sound ⟨p.indexed.call now op, p.fallback.call now op, now⟩ now := by
  obtain ⟨indexed, fallback, clock⟩ := p
  obtain ⟨later, ok⟩ := ok
  obtain ⟨store, storage, rfl, rfl, agrees⟩ := sound
  replace agrees := agrees.later later
  have changed {name channelId : String} {change : StoredMessage → StoredMessage}
      (inPlace : StoredMessage.InPlace change) (same : SameNamed store.rows now name channelId) :
      Pair.Sound ⟨LocalStorageDb.update ⟨some store, .empty⟩ name channelId change,
        LocalStorageDb.update ⟨none, storage⟩ name channelId change, now⟩ now :=
    ⟨_, _, by rw [LocalStorageDb.update, LocalStorage.update_empty]; rfl, rfl,
      agrees.update inPlace same⟩
  have deleted {name channelId : String} (same : SameNamed store.rows now name channelId) :
      Pair.Sound ⟨LocalStorageDb.deleteMessage ⟨some store, .empty⟩ name channelId,
        LocalStorageDb.deleteMessage ⟨none, storage⟩ name channelId, now⟩ now :=
    ⟨_, _, by rw [LocalStorageDb.deleteMessage, LocalStorage.deleteMessage_empty]; rfl, rfl,
      agrees.deleteMessage same⟩
  cases op with
  | saveMessage msg => exact ⟨_, _, rfl, rfl, agrees.saveMessage ok⟩
  | saveMessages msgs =>
    exact Pair.Sound.saveMessages (p := ⟨_, _, now⟩) ⟨store, storage, rfl, rfl, agrees⟩ ok
  | deleteMessage name channelId => exact deleted ok
  | markMessageDeleted name channelId deletedBy scope =>
    cases scope with
    | everyone => exact changed (StoredMessage.inPlace_markDeleted now deletedBy) ok
    | me => exact deleted ok
  | updateMessageText name channelId newText editedAt =>
    exact changed (StoredMessage.inPlace_edit newText editedAt) ok
  | updateMessagePinned name channelId isPinned pinnedBy pinnedAt =>
    exact changed (StoredMessage.inPlace_pin isPinned pinnedBy _) ok
  | purgeExpiredMessages => exact ⟨_, _, rfl, rfl, agrees.purgeExpired⟩
  | updateMessageStatus id status =>
    refine ⟨store.update id (·.setStatus status), storage, rfl, rfl, ?_⟩
    refine agrees.update_rows (StoredMessage.inPlace_setStatus status) fun m hm live same => ?_
    rw [StoredMessage.setStatus, ← ok m hm live same]

theorem Pair.sound {p : Pair} (h : machine.Reach Pair.Alike p) : p.Sound p.clock := by
  induction h with
  | start new =>
    refine ⟨.empty, .empty, new.1, new.2, fun _ => ?_, fun _ => .nil, fun _ hm => ?_⟩
    · simp [LocalStorage.empty, ObjectStore.empty]
    · cases hm
  | step _ ok step ih =>
    cases step
    exact ih.step ok

/-! ## Reads -/

namespace Agrees
open LocalStorageDb

instance : Std.Total OldestFirst := ⟨fun a b => le_total a.createdAt b.createdAt⟩

instance : IsTrans StoredMessage OldestFirst := ⟨fun _ _ _ => le_trans⟩

instance : Std.Total MoreRelevant := ⟨fun a b => by unfold MoreRelevant; omega⟩

instance : IsTrans SearchSnippetResult MoreRelevant := ⟨fun a b c => by unfold MoreRelevant; omega⟩

variable {now : Int} {store : ObjectStore} {storage : LocalStorage}
variable (agrees : Agrees now store storage) (c : String)
include agrees

theorem perm : ((store.getAll c).filter (·.Live now)).Perm
    ((storage c).filter (·.Live now)) := by
  have nodup : ((storage c).filter (·.Live now)).Nodup :=
    (agrees.apart c).imp fun {a b} apart (same : a = b) => apart (congrArg _ same)
  refine (List.perm_ext_iff_of_nodup ((store.nodup.filter _).filter _) nodup).mpr fun m => ?_
  simp only [List.mem_filter, decide_eq_true_eq]
  constructor
  · rintro ⟨row, live⟩
    exact ⟨(agrees.mem c live).mpr row, live⟩
  · rintro ⟨hm, live⟩
    exact ⟨(agrees.mem c live).mp hm, live⟩

theorem getMessagesByChannel : LocalStorageDb.getMessagesByChannel ⟨some store, .empty⟩ now c =
    LocalStorageDb.getMessagesByChannel ⟨none, storage⟩ now c := by
  have ordered := agrees.list_ordered c
  have older : ((storage c).filter (·.Live now)).Pairwise OldestFirst :=
    ordered.imp fun h => h.elim le_of_lt fun h => h.1.le
  have same : ((store.getAll c).filter (·.Live now)).insertionSort OldestFirst =
      (storage c).filter (·.Live now) := by
    rw [← older.insertionSort_eq]
    refine insertionSort_eq_of_perm (s := fun a b => a.key < b.key) (agrees.perm c) ?_ ?_ ?_
    · exact ((store.ordered.filter _).filter _).imp fun h _ _ => h
    · refine ordered.imp fun {a b} h _ (later : b.createdAt ≤ a.createdAt) => ?_
      exact h.elim (fun h => absurd h later.not_gt) And.right
    · exact fun a _ b _ h h' => absurd h' (lt_asymm h)
  simp only [LocalStorageDb.getMessagesByChannel, LocalStorage.getLocalStorageMessages]
  rw [same]
  split
  case isTrue unnamed =>
    rw [← same, unnamed, List.filter_eq_nil_iff.mpr fun m hm => ?_, List.insertionSort_nil]
    have := agrees.channels m (List.mem_filter.mp hm).1
    simpa using absurd (of_decide_eq_true (List.mem_filter.mp hm).2) this
  case isFalse => rfl

theorem search (named : c ≠ "") (toLowerCase : String → String) (query : String) :
    LocalStorageDb.search ⟨some store, .empty⟩ toLowerCase now query c =
      LocalStorageDb.search ⟨none, storage⟩ toLowerCase now query c := by
  have alive (l : List StoredMessage) :
      l.filter (fun m => decide (¬ m.isDeleted ∧ m.Live now)) =
        (l.filter (·.Live now)).filter fun m => ¬ m.isDeleted := by
    simp [List.filter_filter]
  have again (l : List StoredMessage) :
      (l.filter (·.Live now)).filter (·.Live now) = l.filter (·.Live now) := by
    simp
  unfold LocalStorageDb.search
  simp only [searchPool, LocalStorage.getLocalStorageMessages, if_neg named, alive, again]
  split
  case isTrue => rfl
  case isFalse =>
    congr 1
    refine insertionSort_eq_of_perm (s := fun a b => a.message.key < b.message.key)
      (((agrees.perm c).filter _).filterMap _) ?_ ?_ fun a _ b _ h h' => absurd h' (lt_asymm h)
    all_goals rw [List.pairwise_filterMap]
    · refine (((store.ordered.filter _).filter _).filter _).imp fun {a b} h r hr t ht _ _ => ?_
      rw [searchMessage_message hr, searchMessage_message ht]
      exact h
    · refine ((agrees.list_ordered c).filter _).imp fun {a b} h r hr t ht above below => ?_
      rw [MoreRelevant, searchMessage_message hr, searchMessage_message ht] at above below
      rw [searchMessage_message hr, searchMessage_message ht]
      exact h.elim (fun h => by omega) And.right

end Agrees
/-- Without a channel the fallback finds nothing. -/
theorem LocalStorageDb.search_fallback (storage : LocalStorage) (toLowerCase : String → String)
    (now : Int) (query : String) : search ⟨none, storage⟩ toLowerCase now query "" = [] := by
  simp [search, searchPool, LocalStorage.getLocalStorageMessages]

theorem LocalStorageDb.search_everywhere (store : ObjectStore) (storage : LocalStorage)
    (toLowerCase : String → String) (now : Int) (query : String) :
    search ⟨some store, storage⟩ toLowerCase now query "" = [] ↔
      searchTerms toLowerCase query = [] ∨ ∀ m ∈ store.rows, m.Live now →
        searchMessage toLowerCase (searchTerms toLowerCase query) m = none := by
  simp only [search, searchPool, if_true]
  by_cases blank : searchTerms toLowerCase query = []
  · simp [blank]
  · rw [if_neg blank, List.take_eq_nil_iff]
    have sorted (l : List SearchSnippetResult) : l.insertionSort MoreRelevant = [] ↔ l = [] := by
      rw [← List.length_eq_zero_iff, List.length_insertionSort, List.length_eq_zero_iff]
    simp only [sorted, List.filterMap_eq_nil_iff, List.mem_filter, blank, false_or,
      OfNat.ofNat_ne_zero, decide_eq_true_eq]
    refine forall_congr' fun m => ⟨fun h hm live => ?_, fun h hm => h hm.1 hm.2.2⟩
    by_cases deleted : m.isDeleted
    · simp [searchMessage, deleted]
    · exact h ⟨hm, deleted, live⟩

/-- After calls that reach the same messages, every list and every search is the same, up to
searches without a channel that find something. -/
theorem backends_agree {p : Pair} (hp : Pair.machine.Reach Pair.Alike p)
    (toLowerCase : String → String) {now : Int} (later : p.clock ≤ now) :
    (∀ c, p.indexed.getMessagesByChannel now c = p.fallback.getMessagesByChannel now c) ∧
    (∀ c, p.indexed.getPinnedMessages now c = p.fallback.getPinnedMessages now c) ∧
    ∀ query c, p.indexed.search toLowerCase now query c =
      p.fallback.search toLowerCase now query c ↔ p.Searchable toLowerCase now query c := by
  obtain ⟨store, storage, indexed, fallback, agrees⟩ := Pair.sound hp
  replace agrees := agrees.later later
  unfold Pair.Searchable
  rw [indexed, fallback]
  refine ⟨agrees.getMessagesByChannel, fun c => ?_, fun query c => ?_⟩
  · rw [LocalStorageDb.getPinnedMessages, agrees.getMessagesByChannel]
    rfl
  · by_cases named : c = ""
    · subst named
      rw [LocalStorageDb.search_fallback, LocalStorageDb.search_everywhere]
      simp [LocalStorageDb.rows]
    · exact iff_of_true (agrees.search c named toLowerCase query) (.inl named)

/-! ## A channel with two messages -/

namespace Sample

def fresh : Pair := ⟨⟨some .empty, .empty⟩, ⟨none, .empty⟩, 0⟩

def greeting : Int × DbCall := (1, .saveMessage (message "m1" "c1" "hello" 1))

/-- An edit that names the message by its client id. -/
def editedByAlias : Option Pair :=
  Pair.machine.follow (fun _ _ => True) fresh
    [greeting, (2, .updateMessageText "c1" "channel" "hello world" 2)]

theorem editedByAlias_isSome : editedByAlias.isSome := by rfl

/-- Only the fallback finds it, and so the two backends show different texts. -/
theorem alias_found_by_one_backend : ∃ p, Pair.machine.Reachable p ∧
    p.indexed.getMessagesByChannel p.clock "channel" ≠
      p.fallback.getMessagesByChannel p.clock "channel" := by
  have start : Pair.machine.Reachable fresh := .start ⟨rfl, rfl⟩
  exact ⟨_, start.follow (Option.some_get editedByAlias_isSome).symm, by decide⟩

def editedById : Option Pair :=
  Pair.machine.follow Pair.Alike fresh
    [greeting, (2, .saveMessages [message "m0" "c2" "there" 2, message "m1" "c1" "hi" 1]),
      (3, .updateMessageText "m1" "channel" "hello world" 3), (3, .updateMessageStatus "m1" .sent),
      (4, .updateMessagePinned "m0" "channel" true (some "bob") none), (5, .purgeExpiredMessages)]

theorem editedById_isSome : editedById.isSome := by rfl

theorem backends_agree_sample : ∃ p, Pair.machine.Reach Pair.Alike p ∧
    (p.indexed.getMessagesByChannel 6 "channel").map StoredMessage.text =
      [some "hello world", some "there"] ∧
    (∀ c, p.indexed.getMessagesByChannel 6 c = p.fallback.getMessagesByChannel 6 c) ∧
    (∀ c, p.indexed.getPinnedMessages 6 c = p.fallback.getPinnedMessages 6 c) ∧
    ∀ query c, p.indexed.search String.toLower 6 query c =
      p.fallback.search String.toLower 6 query c ↔ p.Searchable String.toLower 6 query c := by
  have start : Pair.machine.Reach Pair.Alike fresh := .start ⟨rfl, rfl⟩
  have reach := start.follow (Option.some_get editedById_isSome).symm
  exact ⟨_, reach, by decide, backends_agree reach String.toLower (by decide)⟩

end Sample

end GenChat.Offline
