import GenChat.Ledger.Store

/-!
# The local database of the sync layer

`LocalCollection` of `database.ts` is a map from ids to records, in the order in which the ids came
in; creating a record under an id that is there replaces the record. Other parts hold on to records
and update them in place.
-/
namespace GenChat.Sync
open Ledger (Table)

inductive MessageStatus where
  | pending
  | sent
  | delivered
  | read
  | failed
  deriving DecidableEq

inductive MessageType where
  | text
  | media
  | call
  deriving DecidableEq

/-- `Message`, with the `serverId` that the push handlers add. Times are milliseconds. -/
structure Message where
  id : String
  serverId : Option String
  channelId : String
  senderId : String
  clientMsgId : String
  sequenceNum : Option Nat
  text : String
  status : MessageStatus
  messageType : MessageType
  createdAt : Nat
  deriving DecidableEq

/-- What is read and written here of a `Channel`. -/
structure ChannelRow where
  lastMessageAt : Option Nat
  unreadCount : Option Nat
  deriving DecidableEq

/-- The messages. -/
@[ext]
structure LocalCollection where
  items : List Message
  distinct : (items.map Message.id).Nodup
  deriving DecidableEq

namespace LocalCollection

def empty : LocalCollection := ⟨[], .nil⟩

def find (c : LocalCollection) (id : String) : Option Message := c.items.find? (·.id = id)

/-- `items.set` of a map. -/
def set (c : LocalCollection) (m : Message) : LocalCollection where
  items :=
    if m.id ∈ c.items.map Message.id then c.items.map fun old => if old.id = m.id then m else old
    else c.items ++ [m]
  distinct := by
    split
    case isTrue =>
      have ids : (c.items.map fun old => if old.id = m.id then m else old).map Message.id =
          c.items.map Message.id := by
        rw [List.map_map]
        refine List.map_congr_left fun old _ => ?_
        simp only [Function.comp_apply]
        split
        case isTrue same => exact same.symm
        case isFalse => rfl
      exact ids ▸ c.distinct
    case isFalse new =>
      rw [List.map_append, List.nodup_append]
      refine ⟨c.distinct, List.nodup_singleton _, fun id hid id' hid' same => new ?_⟩
      rwa [← List.mem_singleton.mp hid', ← same]

/-- The change of a record that is held or found, under its id. -/
def update (c : LocalCollection) (id : String) (change : Message → Message)
    (keeps : ∀ m, (change m).id = m.id) : LocalCollection where
  items := c.items.map fun m => if m.id = id then change m else m
  distinct := by
    have ids : (c.items.map fun m => if m.id = id then change m else m).map Message.id =
        c.items.map Message.id := by
      rw [List.map_map]
      refine List.map_congr_left fun m _ => ?_
      simp only [Function.comp_apply]
      split
      · exact keeps m
      · rfl
    exact ids ▸ c.distinct

theorem find_map {items : List Message} {f : Message → Message} (keeps : ∀ m, (f m).id = m.id)
    (id : String) : (items.map f).find? (·.id = id) = (items.find? (·.id = id)).map f := by
  rw [List.find?_map]
  simp only [Function.comp_def, keeps]

theorem find_eq_none {c : LocalCollection} {id : String} :
    c.find id = none ↔ id ∉ c.items.map Message.id := by
  simp [find]

theorem id_of_find {c : LocalCollection} {id : String} {m : Message} (h : c.find id = some m) :
    m.id = id := by
  simpa using List.find?_some h

theorem mem_of_find {c : LocalCollection} {id : String} {m : Message} (h : c.find id = some m) :
    m ∈ c.items :=
  List.mem_of_find?_eq_some h

theorem find_of_mem {c : LocalCollection} {m : Message} (h : m ∈ c.items) :
    c.find m.id = some m := by
  cases found : c.find m.id with
  | none => exact absurd (List.mem_map_of_mem h) (find_eq_none.mp found)
  | some m' =>
    rw [List.inj_on_of_nodup_map c.distinct (mem_of_find found) h (id_of_find found)]

@[simp]
theorem find_update (c : LocalCollection) (id id' : String) {change : Message → Message}
    (keeps : ∀ m, (change m).id = m.id) :
    (c.update id change keeps).find id' =
      if id' = id then (c.find id').map change else c.find id' := by
  have kept (m : Message) : (if m.id = id then change m else m).id = m.id := by
    split
    · exact keeps m
    · rfl
  rw [find, update, find_map kept]
  cases found : c.items.find? (·.id = id') with
  | none => simp [find, found]
  | some m =>
    have same : m.id = id' := id_of_find found
    simp only [find, found, Option.map_some, same]
    split <;> rfl

@[simp]
theorem find_set (c : LocalCollection) (m : Message) (id : String) :
    (c.set m).find id = if id = m.id then some m else c.find id := by
  unfold find set
  dsimp only
  split
  case isTrue there =>
    have kept (old : Message) : (if old.id = m.id then m else old).id = old.id := by
      split
      case isTrue same => exact same.symm
      case isFalse => rfl
    rw [find_map kept]
    cases found : c.items.find? (·.id = id) with
    | none =>
      have absent : id ∉ c.items.map Message.id := find_eq_none.mp found
      rw [if_neg (by rintro rfl; exact absent there)]
      rfl
    | some old =>
      have same : old.id = id := id_of_find (c := c) found
      rw [Option.map_some, same]
      split <;> rfl
  case isFalse new =>
    rw [List.find?_append]
    by_cases same : id = m.id
    · subst same
      have absent : c.items.find? (·.id = m.id) = none := find_eq_none.mpr new
      simp [absent]
    · have other : ([m].find? fun old => decide (old.id = id)) = none := by simp [Ne.symm same]
      rw [other, Option.or_none, if_neg same]

end LocalCollection
end GenChat.Sync
