import GenChat.Offline.LocalStorageDb
import GenChat.Sync.LocalDatabase

/-!
# Search in the local messages

`ZeroKnowledgeSearchEngine` of `search.ts`. A search goes through all messages and gives back one
page of those that contain every term of the query. The pages of a query, one after the other,
have each of these messages once, the most relevant first.
-/
namespace GenChat.Sync.Search
open Library
open Offline.LocalStorageDb (searchTerms indexOf isWordBoundary dots)

/-- The empty string stands for no channel. -/
structure SearchOptions where
  channelId : String
  limit : Option Int
  offset : Option Int

structure SearchResult where
  message : Message
  score : Nat
  /-- The code units of each snippet. -/
  highlightSnippets : List (List Nat)
  deriving DecidableEq

/-- The term without a star at its end. -/
def cleanTerm (term : List Nat) : List Nat :=
  if term.getLast? = some 0x2A then term.dropLast else term

/-- One term of the query: what it adds to the score and the snippets. -/
def matchTerm (text lower : List Nat) (found : Nat × List (List Nat)) (term : List Nat) :
    Option (Nat × List (List Nat)) :=
  (indexOf (cleanTerm term) lower).map fun idx =>
    let snippetStart := idx - 20
    let snippetEnd := min text.length (idx + (cleanTerm term).length + 20)
    (found.1 + (if isWordBoundary lower idx then 10 else 5),
      found.2 ++ [dots ++ (text.drop snippetStart).take (snippetEnd - snippetStart) ++ dots])

variable (toLowerCase : String → String)

def searchMessage (terms : List (List Nat)) (msg : Message) : Option SearchResult :=
  (terms.foldlM (matchTerm (utf16 msg.text) (utf16 (toLowerCase msg.text))) (0, [])).map
    fun found => ⟨msg, found.1, found.2⟩

/-- By score, the best first, and then by date, the latest first. -/
def MoreRelevant (a b : SearchResult) : Prop :=
  b.score < a.score ∨ a.score = b.score ∧ b.message.createdAt ≤ a.message.createdAt

instance : DecidableRel MoreRelevant := fun _ _ => inferInstanceAs (Decidable (_ ∨ _))

instance : Std.Total MoreRelevant where
  total a b := by
    unfold MoreRelevant
    omega

instance : IsTrans SearchResult MoreRelevant where
  trans a b c first second := by
    unfold MoreRelevant at *
    omega

/-- All results of a query, in the order in which they are ranked. -/
def ranking (c : LocalCollection) (query channelId : String) : List SearchResult :=
  let terms := searchTerms toLowerCase query
  if terms = [] then []
  else ((c.items.filter fun m => channelId = "" ∨ m.channelId = channelId).filterMap
    (searchMessage toLowerCase terms)).insertionSort MoreRelevant

/-- `slice` of an array, where a negative place counts from the end. -/
def slice {α : Type} (l : List α) (start stop : Int) : List α :=
  let place (k : Int) : Nat := (if k < 0 then l.length + k else min k l.length).toNat
  (l.drop (place start)).take (place stop - place start)

/-- `value || default`. -/
def orDefault (value : Option Int) (default : Int) : Int :=
  if value.getD 0 = 0 then default else value.getD 0

def search (c : LocalCollection) (query : String) (options : SearchOptions) : List SearchResult :=
  let offset := orDefault options.offset 0
  let limit := orDefault options.limit 50
  slice (ranking toLowerCase c query options.channelId) offset (offset + limit)

/-- The message is of the channel, and its text contains every term, of which there are some. -/
structure Matches (query channelId : String) (m : Message) : Prop where
  channel : channelId = "" ∨ m.channelId = channelId
  nonempty : searchTerms toLowerCase query ≠ []
  terms : ∀ term ∈ searchTerms toLowerCase query, cleanTerm term <:+: utf16 (toLowerCase m.text)

/-! ## Results -/

variable {toLowerCase} {terms : List (List Nat)} {m : Message} {r : SearchResult}
  {c : LocalCollection} {query channelId : String}

theorem indexOf_isSome {term text : List Nat} :
    (indexOf term text).isSome ↔ term <:+: text := by
  induction text with
  | nil => by_cases empty : term = [] <;> simp [indexOf, empty]
  | cons unit text ih =>
    rw [List.infix_cons_iff, indexOf]
    split
    · rename_i here
      simp [here]
    · rename_i later
      simp [later, ih]

theorem foldlM_isSome {text lower : List Nat} {found : Nat × List (List Nat)} :
    (terms.foldlM (matchTerm text lower) found).isSome ↔
      ∀ term ∈ terms, cleanTerm term <:+: lower := by
  induction terms generalizing found with
  | nil => simp
  | cons term terms ih =>
    rw [List.foldlM_cons, List.forall_mem_cons, ← indexOf_isSome]
    cases there : indexOf (cleanTerm term) lower with
    | none => simp [matchTerm, there]
    | some idx =>
      simp only [matchTerm, there, Option.map_some, Option.bind_eq_bind, Option.bind_some,
        Option.isSome_some, true_and]
      exact ih

theorem searchMessage_message (h : searchMessage toLowerCase terms m = some r) :
    r.message = m := by
  obtain ⟨found, -, rfl⟩ := Option.map_eq_some_iff.mp h
  rfl

theorem searchMessage_isSome : (∃ r, searchMessage toLowerCase terms m = some r) ↔
    ∀ term ∈ terms, cleanTerm term <:+: utf16 (toLowerCase m.text) := by
  rw [← Option.isSome_iff_exists, searchMessage, Option.isSome_map]
  exact foldlM_isSome

/-- The messages of the results, before they are ranked. -/
theorem map_message_filterMap (l : List Message) :
    (l.filterMap (searchMessage toLowerCase terms)).map SearchResult.message =
      l.filterMap fun m => (searchMessage toLowerCase terms m).map SearchResult.message :=
  List.map_filterMap

theorem map_message_eq_some {m' : Message}
    (h : (searchMessage toLowerCase terms m).map SearchResult.message = some m') : m = m' := by
  obtain ⟨r, found, same⟩ := Option.map_eq_some_iff.mp h
  exact (searchMessage_message found).symm.trans same

theorem nodup_ranking :
    ((ranking toLowerCase c query channelId).map SearchResult.message).Nodup := by
  unfold ranking
  dsimp only
  split
  · exact .nil
  · rw [((List.perm_insertionSort _ _).map _).nodup_iff, map_message_filterMap]
    refine List.Nodup.filterMap ?_ ((List.Nodup.of_map _ c.distinct).filter _)
    intro m m' m'' first second
    exact (map_message_eq_some first).trans (map_message_eq_some second).symm

theorem mem_ranking : m ∈ (ranking toLowerCase c query channelId).map SearchResult.message ↔
    m ∈ c.items ∧ Matches toLowerCase query channelId m := by
  unfold ranking
  dsimp only
  split
  · rename_i none
    constructor
    · intro mem
      cases mem
    · intro matched
      exact absurd none matched.2.nonempty
  · rename_i nonempty
    rw [((List.perm_insertionSort _ _).map _).mem_iff, map_message_filterMap, List.mem_filterMap]
    constructor
    · intro found
      obtain ⟨m', mem, found⟩ := found
      cases map_message_eq_some found
      obtain ⟨there, channel⟩ := List.mem_filter.mp mem
      obtain ⟨r, found, -⟩ := Option.map_eq_some_iff.mp found
      exact ⟨there, of_decide_eq_true channel, nonempty, searchMessage_isSome.mp ⟨r, found⟩⟩
    · intro matched
      obtain ⟨there, matched⟩ := matched
      obtain ⟨r, found⟩ := searchMessage_isSome.mpr matched.terms
      refine ⟨m, List.mem_filter.mpr ⟨there, decide_eq_true matched.channel⟩, ?_⟩
      rw [found, Option.map_some, searchMessage_message found]

theorem sorted_ranking : (ranking toLowerCase c query channelId).Pairwise MoreRelevant := by
  unfold ranking
  dsimp only
  split
  · exact .nil
  · exact List.pairwise_insertionSort _ _

/-! ## Pages -/

theorem slice_eq {α : Type} (l : List α) (i n : Nat) :
    slice l i (i + n) = (l.drop i).take n := by
  have first : ((if (i : Int) < 0 then l.length + i else min i l.length : Int)).toNat =
      min i l.length := by omega
  have last : ((if (i + n : Int) < 0 then l.length + (i + n) else min (i + n) l.length :
      Int)).toNat = min (i + n) l.length := by omega
  unfold slice
  dsimp only
  rw [first, last]
  by_cases inside : i ≤ l.length
  · rw [Nat.min_eq_left inside, List.take_eq_take_iff, List.length_drop]
    omega
  · rw [List.drop_eq_nil_of_le (by omega), List.drop_eq_nil_of_le (by omega), List.take_nil,
      List.take_nil]

/-- Pages of one size, put together. -/
theorem flatMap_pages {α : Type} (l : List α) (n pages : Nat) :
    (List.range pages).flatMap (fun k => (l.drop (k * n)).take n) = l.take (pages * n) := by
  induction pages with
  | zero => simp
  | succ pages ih =>
    rw [List.range_succ, List.flatMap_append, ih, List.flatMap_singleton, Nat.succ_mul,
      List.take_add]

theorem search_page {n : Nat} (positive : 0 < n) (k : Nat) :
    search toLowerCase c query ⟨channelId, some n, some (k * n : Nat)⟩ =
      ((ranking toLowerCase c query channelId).drop (k * n)).take n := by
  have limit : orDefault (some (n : Int)) 50 = n := by
    simp [orDefault]
    omega
  have offset : orDefault (some ((k * n : Nat) : Int)) 0 = (k * n : Nat) := by
    simp only [orDefault, Option.getD_some]
    split
    · rename_i zero
      exact zero.symm
    · rfl
  unfold search
  dsimp only
  rw [limit, offset, slice_eq]

/-- The pages of a query, one after the other, are a ranking of the messages that match it. -/
theorem pages_rank_matches (toLowerCase : String → String) (c : LocalCollection)
    (query channelId : String) : ∃ ranked : List SearchResult,
      ranked.Pairwise MoreRelevant ∧ (ranked.map SearchResult.message).Nodup ∧
      (∀ m, m ∈ ranked.map SearchResult.message ↔
        m ∈ c.items ∧ Matches toLowerCase query channelId m) ∧
      ∀ n pages : Nat, 0 < n → ranked.length ≤ pages * n →
        (List.range pages).flatMap (fun k =>
          search toLowerCase c query ⟨channelId, some n, some (k * n : Nat)⟩) = ranked := by
  refine ⟨ranking toLowerCase c query channelId, sorted_ranking, nodup_ranking,
    fun m => mem_ranking, fun n pages positive enough => ?_⟩
  have page (k : Nat) : search toLowerCase c query ⟨channelId, some n, some (k * n : Nat)⟩ =
      ((ranking toLowerCase c query channelId).drop (k * n)).take n := search_page positive k
  simp only [page]
  rw [flatMap_pages, List.take_of_length_le enough]

end GenChat.Sync.Search
