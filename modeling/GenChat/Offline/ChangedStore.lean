import GenChat.Offline.LocalStorageDb

/-!
# A store with every message changed

A change that leaves alone what messages are found, ordered and dropped by can be made to every
stored message: the methods then do to the changed store what they do to the store itself.
-/
namespace GenChat.Offline
open StoredMessage

variable {change f : StoredMessage → StoredMessage} (inPlace : InPlace change)

namespace StoredMessage
include inPlace

theorem live_change (now : Int) (m : StoredMessage) : (change m).Live now ↔ m.Live now := by
  rw [Live, Live, inPlace.expiresAt]

theorem key_change (m : StoredMessage) : (change m).key = m.key := by
  rw [key, key, inPlace.id]

theorem named_change (m : StoredMessage) (name : String) :
    (change m).Named name ↔ m.Named name := by
  rw [Named, Named, inPlace.id, inPlace.clientMsgId]

theorem replaces_change (msg m : StoredMessage) :
    LocalStorage.Replaces (change msg) (change m) ↔ LocalStorage.Replaces msg m := by
  simp only [LocalStorage.Replaces, inPlace.id, inPlace.clientMsgId]

end StoredMessage

namespace ObjectStore

def map (store : ObjectStore) : ObjectStore where
  rows := store.rows.map change
  ordered := List.pairwise_map.mpr <| store.ordered.imp fun h => by
    rwa [key_change inPlace, key_change inPlace]

theorem put_map (store : ObjectStore) (msg : StoredMessage) :
    (store.put msg).map inPlace = (store.map inPlace).put (change msg) := by
  ext1
  simp only [map, put, List.map_append, List.map_cons, List.filter_map, Function.comp_def,
    key_change inPlace]

theorem get_map (store : ObjectStore) (id : String) :
    (store.map inPlace).get id = (store.get id).map change := by
  simp only [map, get, List.find?_map, Function.comp_def, inPlace.id]

theorem update_map {store : ObjectStore} {id : String}
    (same : ∀ m ∈ store.rows, m.id = id → change (f m) = f (change m)) :
    (store.update id f).map inPlace = (store.map inPlace).update id f := by
  unfold update
  rw [get_map]
  cases found : store.get id with
  | none => rfl
  | some msg =>
    have hid : msg.id = id := by simpa using List.find?_some found
    rw [Option.map_some, put_map, same msg (List.mem_of_find?_eq_some found) hid]

end ObjectStore

namespace LocalStorage
variable (change) in
def map (storage : LocalStorage) : LocalStorage := fun c => (storage c).map change

include inPlace

theorem getLocalStorageMessages_map (storage : LocalStorage) (now : Int) (c : String) :
    (map change storage).getLocalStorageMessages now c =
      (storage.getLocalStorageMessages now c).map change := by
  unfold getLocalStorageMessages map
  split
  · rfl
  · simp only [List.filter_map, Function.comp_def, live_change inPlace]

theorem saveMessage_map (storage : LocalStorage) (now : Int) (msg : StoredMessage) :
    map change (storage.saveMessage now msg) =
      (map change storage).saveMessage now (change msg) := by
  funext c
  simp only [saveMessage, inPlace.channelId, getLocalStorageMessages_map inPlace,
    List.findIdx_map, Function.comp_def, replaces_change inPlace, List.length_map]
  by_cases same : c = msg.channelId
  · subst same
    simp only [map, Function.update_self]
    split <;> simp [List.map_set]
  · simp only [map, Function.update_of_ne same]

theorem update_map {storage : LocalStorage} {name channelId : String}
    (same : ∀ c, ∀ m ∈ storage c, Visits channelId c → m.Named name →
      change (f m) = f (change m)) :
    map change (storage.update name channelId f) =
      (map change storage).update name channelId f := by
  funext c
  simp only [map, update]
  split
  case isTrue visited =>
    simp only [List.map_map]
    refine List.map_congr_left fun m hm => ?_
    simp only [Function.comp_apply, named_change inPlace]
    split
    case isTrue named => exact same c m hm visited named
    case isFalse => rfl
  case isFalse => rfl

end LocalStorage

namespace LocalStorageDb

def map (s : LocalStorageDb) : LocalStorageDb where
  db := s.db.map (·.map inPlace)
  localStorage := s.localStorage.map change

/-- Only the stored messages matter. -/
theorem map_congr {s : LocalStorageDb} (inPlace' : InPlace f)
    (same : ∀ m, s.Stored m → change m = f m) : s.map inPlace = s.map inPlace' := by
  obtain ⟨db, storage⟩ := s
  have lists : LocalStorage.map change storage = LocalStorage.map f storage := by
    funext c
    exact List.map_congr_left fun m hm => same m (.inr ⟨c, hm⟩)
  cases db with
  | none => simp only [map, lists, Option.map_none]
  | some store =>
    have rows : store.map inPlace = store.map inPlace' := by
      ext1
      exact List.map_congr_left fun m hm => same m (.inl hm)
    simp only [map, lists, Option.map_some, rows]

theorem saveMessage_map (s : LocalStorageDb) (now : Int) (msg : StoredMessage) :
    (s.saveMessage now msg).map inPlace = (s.map inPlace).saveMessage now (change msg) := by
  obtain ⟨db, storage⟩ := s
  cases db with
  | none => simp [saveMessage, map, LocalStorage.saveMessage_map inPlace]
  | some store => simp [saveMessage, map, ObjectStore.put_map]

theorem update_map {s : LocalStorageDb} {name channelId : String}
    (same : ∀ m, ¬ s.Spares name channelId (· = m) → change (f m) = f (change m)) :
    (s.update name channelId f).map inPlace = (s.map inPlace).update name channelId f := by
  have lists : (LocalStorage.map change s.localStorage).update name channelId f =
      LocalStorage.map change (s.localStorage.update name channelId f) := by
    refine (LocalStorage.update_map inPlace fun c m hm visited named => same m ?_).symm
    exact fun spares => spares.2 c m hm rfl ⟨visited, named⟩
  obtain ⟨db, storage⟩ := s
  cases db with
  | none => simp [update, map, ← lists]
  | some store =>
    have rows : (store.update name f).map inPlace = (store.map inPlace).update name f :=
      ObjectStore.update_map inPlace fun m hm named => same m fun spares =>
        spares.1 m hm rfl named
    simp [update, map, ← lists, rows]

theorem getMessagesByChannel_map (s : LocalStorageDb) (now : Int) (c : String) :
    (s.map inPlace).getMessagesByChannel now c = (s.getMessagesByChannel now c).map change := by
  obtain ⟨db, storage⟩ := s
  cases db with
  | none => exact LocalStorage.getLocalStorageMessages_map inPlace storage now c
  | some store =>
    simp only [getMessagesByChannel, map, Option.map_some, ObjectStore.getAll, ObjectStore.map,
      List.filter_map, Function.comp_def, inPlace.channelId, live_change inPlace]
    refine (List.map_insertionSort OldestFirst OldestFirst change _ fun a _ b _ => ?_).symm
    rw [OldestFirst, OldestFirst, inPlace.createdAt, inPlace.createdAt]

end LocalStorageDb

end GenChat.Offline
