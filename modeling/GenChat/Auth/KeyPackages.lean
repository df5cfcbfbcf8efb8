import GenChat.Auth.KeyOwnership
import GenChat.Library.Concurrent
import GenChat.Library.Emits

/-!
# How often a key package is handed out

Uploads and fetches of MLS key packages run one statement at a time, in any order. A fetch reads the
newest package that nobody has consumed, and no statement ever consumes one. So a package is handed
out once only if a newer one has been uploaded whenever somebody asks again.
-/
namespace GenChat.Auth
open Library
open Ledger (Bytes)

/-! ## The newest package -/

/-- What `GetActiveMlsKeyPackage` asks for. -/
structure PackageQuery where
  userID : UUID
  deviceID : Option UUID
  deriving DecidableEq

/-- The `WHERE` clause of the query. -/
def MlsKeyPackage.Matches (row : MlsKeyPackage) (q : PackageQuery) : Prop :=
  row.userID = q.userID ∧ (q.deviceID = none ∨ q.deviceID = some row.deviceID) ∧ !row.isConsumed

instance (row : MlsKeyPackage) (q : PackageQuery) : Decidable (row.Matches q) :=
  inferInstanceAs (Decidable (_ ∧ _))

/-- The row `j` stands before the row `i` in `ORDER BY created_at DESC`, where rows of one time
keep the order of the table. -/
def Precedes (rows : List MlsKeyPackage) (j i : Nat) : Prop :=
  ∃ new ∈ rows[j]?, ∃ old ∈ rows[i]?,
    old.createdAt < new.createdAt ∨ new.createdAt = old.createdAt ∧ j < i

/-- The query finds the row `i`. -/
structure Newest (rows : List MlsKeyPackage) (q : PackageQuery) (i : Nat) : Prop where
  matched : ∃ row ∈ rows[i]?, row.Matches q
  first : ∀ j, (∃ row ∈ rows[j]?, row.Matches q) → ¬ Precedes rows j i

/-- The place of the row that the query finds. -/
def newest (rows : List MlsKeyPackage) (q : PackageQuery) : Option Nat :=
  ((rows.zipIdx.filter fun e => e.1.Matches q).argmax fun e => e.1.createdAt).map Prod.snd

variable {rows : List MlsKeyPackage} {q : PackageQuery} {i j : Nat}

theorem Newest.unique (h : Newest rows q i) (h' : Newest rows q j) : i = j := by
  obtain ⟨row, hi, -⟩ := h.matched
  obtain ⟨row', hj, -⟩ := h'.matched
  have noti := h.first j h'.matched
  have notj := h'.first i h.matched
  simp only [Precedes, Option.mem_def] at noti notj hi hj
  grind

/-- A row at the end of the table. -/
theorem newest_concat (rows : List MlsKeyPackage) (last : MlsKeyPackage) (q : PackageQuery) :
    newest (rows ++ [last]) q = if last.Matches q then
      match newest rows q with
      | none => some rows.length
      | some i => if ∀ old ∈ rows[i]?, old.createdAt < last.createdAt then some rows.length
        else some i
    else newest rows q := by
  unfold newest
  rw [List.zipIdx_append, List.filter_append]
  by_cases matched : last.Matches q
  · simp only [List.zipIdx_cons, List.zipIdx_nil, matched, decide_true, List.filter_cons_of_pos,
      List.filter_nil, List.argmax_concat, if_true]
    cases found : (rows.zipIdx.filter fun e => e.1.Matches q).argmax fun e => e.1.createdAt with
    | none => simp
    | some e =>
      have place := List.argmax_mem found
      have place : rows[e.2]? = some e.1 := by
        simpa using List.mem_zipIdx_iff_getElem?.mp (List.mem_of_mem_filter place)
      by_cases older : e.1.createdAt < last.createdAt <;> simp [place, older]
  · simp [matched]

/-- The query finds the newest row that it matches, if it matches any. -/
theorem newest_spec (rows : List MlsKeyPackage) (q : PackageQuery) :
    (∀ i, newest rows q = some i → Newest rows q i) ∧
      (newest rows q = none → ∀ row ∈ rows, ¬ row.Matches q) := by
  induction rows using List.reverseRecOn with
  | nil => exact ⟨nofun, fun _ => nofun⟩
  | append_singleton rows last ih =>
    obtain ⟨found, missing⟩ := ih
    have old {i : Nat} (h : Newest rows q i) : i < rows.length := by
      obtain ⟨row, hi, -⟩ := h.matched
      exact (List.getElem?_eq_some_iff.mp hi).1
    rw [newest_concat]
    by_cases matched : last.Matches q
    · rw [if_pos matched]
      cases before : newest rows q with
      | none =>
        have missing := missing before
        refine ⟨?_, nofun⟩
        rintro i ⟨⟩
        refine ⟨⟨last, by simp, matched⟩, ?_⟩
        rintro j ⟨row, hj, matches'⟩ ⟨new, hnew, old, hold, precedes⟩
        grind
      | some k =>
        have found := found k before
        have lt := old found
        obtain ⟨row, hk, rowMatched⟩ := found.matched
        have first := found.first
        simp only [Option.mem_def] at hk
        simp only [hk, Option.mem_def, Option.some.injEq, forall_eq']
        refine ⟨fun i hi => ?_, fun h => by split at h <;> cases h⟩
        by_cases older : row.createdAt < last.createdAt
        · rw [if_pos older] at hi
          cases hi
          refine ⟨⟨last, by simp, matched⟩, ?_⟩
          rintro j ⟨row', hj, matches'⟩ ⟨new, hnew, old, hold, precedes⟩
          simp only [Precedes] at first
          grind
        · rw [if_neg older] at hi
          cases hi
          refine ⟨⟨row, by grind, rowMatched⟩, ?_⟩
          rintro j ⟨row', hj, matches'⟩ ⟨new, hnew, old, hold, precedes⟩
          simp only [Precedes] at first
          grind
    · rw [if_neg matched]
      refine ⟨fun i hi => ?_, fun absent row mem => ?_⟩
      · have found := found i hi
        have lt := old found
        obtain ⟨row, hi, rowMatched⟩ := found.matched
        refine ⟨⟨row, by grind, rowMatched⟩, ?_⟩
        rintro j ⟨row', hj, matches'⟩ ⟨new, hnew, old, hold, precedes⟩
        have first := found.first
        simp only [Precedes] at first
        grind
      · rcases List.mem_append.mp mem with mem | mem
        · exact missing absent row mem
        · rwa [List.mem_singleton.mp mem]

theorem newest_eq_some : newest rows q = some i ↔ Newest rows q i := by
  obtain ⟨found, missing⟩ := newest_spec rows q
  refine ⟨found i, fun h => ?_⟩
  cases place : newest rows q with
  | none =>
    obtain ⟨row, hi, matched⟩ := h.matched
    exact absurd matched (missing place row (List.mem_of_getElem? hi))
  | some j => rw [(found j place).unique h]

/-- The statement of the store reads this row. -/
theorem selectMlsKeyPackage_eq (db : Database) (userID : UUID) (deviceID : Option UUID) :
    db.selectMlsKeyPackage userID deviceID =
      (newest db.mlsKeyPackages ⟨userID, deviceID⟩).bind fun i =>
        db.mlsKeyPackages[i]?.map MlsKeyPackage.keyPackage := by
  have argmax_map (l : List (MlsKeyPackage × Nat)) :
      (l.map Prod.fst).argmax (fun row => row.createdAt) =
        (l.argmax fun e => e.1.createdAt).map Prod.fst := by
    induction l using List.reverseRecOn with
    | nil => rfl
    | append_singleton l e ih =>
      rw [List.map_append, List.map_singleton, List.argmax_concat, List.argmax_concat, ih]
      cases l.argmax fun e => e.1.createdAt with
      | none => rfl
      | some first =>
        simp only [Option.map_some]
        split <;> rfl
  have rows : db.mlsKeyPackages.filter (fun row => row.Matches ⟨userID, deviceID⟩) =
      (db.mlsKeyPackages.zipIdx.filter fun e => e.1.Matches ⟨userID, deviceID⟩).map Prod.fst := by
    conv_lhs => rw [← List.zipIdx_map_fst 0 db.mlsKeyPackages, List.filter_map]
    rfl
  unfold Database.selectMlsKeyPackage newest
  change ((db.mlsKeyPackages.filter fun row => row.Matches ⟨userID, deviceID⟩).argmax _).map _ = _
  rw [rows, argmax_map]
  cases found : (db.mlsKeyPackages.zipIdx.filter
      fun e => e.1.Matches ⟨userID, deviceID⟩).argmax fun e => e.1.createdAt with
  | none => rfl
  | some e =>
    have place := List.mem_of_mem_filter (List.argmax_mem found)
    have place : db.mlsKeyPackages[e.2]? = some e.1 := List.mem_zipIdx_iff_getElem?.mp place
    simp [place]

/-! ## Requests -/

inductive PackageRequest where
  | grpcUploadMlsKeyPackage (token : Option Token) (deviceId : String) (keyPackageData : Bytes)
  | grpcFetchMlsKeyPackage (token : Option Token) (userId deviceId : String)
  | httpUploadMlsKeyPackage (req : HttpRequest MlsKeyPackageBody)
  | httpFetchMlsKeyPackage (req : HttpRequest UserDeviceQuery)

/-- A key package in a response: its bytes, or a text in base64. -/
abbrev Package := Bytes ⊕ String

/-- Run a handler for the key package in its response, if there is one. -/
def package {ε α : Type} (found : α → Option Package) (p : Proc (Except ε α)) :
    Proc (Option Package) :=
  p.bind fun r => pure (r.toOption.bind found)

namespace PackageRequest
variable (S : Platform)

def handle : PackageRequest → Proc (Option Package)
  | .grpcUploadMlsKeyPackage token deviceId data => package (fun _ => none) <|
    unaryAuthInterceptor "/chat.v1.KeyService/UploadMlsKeyPackage" token
      (uploadMlsKeyPackage S · deviceId data)
  | .grpcFetchMlsKeyPackage token userId deviceId => package (fun data => some (.inl data)) <|
    unaryAuthInterceptor "/chat.v1.KeyService/FetchMlsKeyPackage" token
      (fetchMlsKeyPackage S · userId deviceId)
  | .httpUploadMlsKeyPackage req => package (fun _ => none) (Auth.httpUploadMlsKeyPackage S req)
  | .httpFetchMlsKeyPackage req =>
    package (fun text => some (.inr text)) (Auth.httpFetchMlsKeyPackage S req)

/-- How the request presents the bytes that it finds. -/
def presents : PackageRequest → Bytes → Package
  | .httpFetchMlsKeyPackage _, data => .inr (Base64.encodeToString data)
  | _, data => .inl data

end PackageRequest

/-! ## What a request returns -/

/-- The program asks for a key package at most once, and then ends: with what the query has found,
or else with a result that is `idle`. -/
inductive Serves {α : Type} (respond : Bytes → α) (idle : α → Prop) : Proc α → Prop where
  | done {a : α} : idle a → Serves respond idle (.pure a)
  | fetch {u : UUID} {d : Option UUID} {k} (found : ∀ data, k (.ok data) = .pure (respond data))
    (missing : ∀ err, ∃ a, k (.error err) = .pure a ∧ idle a) :
    Serves respond idle (.call (.getActiveMlsKeyPackage u d) k)
  | other {op : Op} {k} (plain : ∀ u d, op ≠ .getActiveMlsKeyPackage u d)
    (rest : ∀ r, Serves respond idle (k r)) : Serves respond idle (.call op k)

section Serves
variable {α β : Type} {respond : Bytes → α} {idle : α → Prop} {respond' : Bytes → β}
  {idle' : β → Prop} {p : Proc α} {f : α → Proc β} {g : α → β}

/-- A program that ends with a pure step. -/
theorem Serves.bind (h : Serves respond idle p) (pure' : ∀ a, f a = .pure (g a))
    (found : ∀ data, g (respond data) = respond' data) (missing : ∀ a, idle a → idle' (g a)) :
    Serves respond' idle' (p.bind f) := by
  induction h with
  | done idle =>
    rw [Prog.pure_bind, pure']
    exact .done (missing _ idle)
  | @fetch u d k ok err =>
    refine .fetch (fun data => ?_) fun e => ?_
    · rw [ok, Prog.pure_bind, pure', found]
    · obtain ⟨a, ha, none'⟩ := err e
      exact ⟨g a, by rw [ha, Prog.pure_bind, pure'], missing a none'⟩
  | other plain rest ih => exact .other plain ih

/-- A program that asks for no key package. -/
theorem Serves.of_all {p : Proc β} (h : p.All fun op => ∀ u d, op ≠ .getActiveMlsKeyPackage u d)
    {g : β → α} (always : ∀ b, idle (g b)) : Serves respond idle (p.bind fun b => .pure (g b)) := by
  induction p with
  | pure b => exact .done (always b)
  | call op k ih => exact .other h.1 fun r => ih r (h.2 r)

theorem interceptor_serves {respond : Bytes → Answer α} {idle : Answer α → Prop}
    {fullMethod : String} {token : Option Token} {handler : Context → Proc (Answer α)}
    (guarded : isPublicMethod fullMethod = false ∧ isInternalServiceMethod fullMethod = false)
    (failed : ∀ err, idle (.error err)) (h : ∀ ctx, Serves respond idle (handler ctx)) :
    Serves respond idle (unaryAuthInterceptor fullMethod token handler) := by
  simp only [unaryAuthInterceptor, guarded, Bool.false_eq_true, if_false]
  split
  · exact .done (failed _)
  · refine .other (by rintro _ _ ⟨⟩) fun time => ?_
    simp only [Prog.pure_bind]
    split
    · exact h _
    · exact .done (failed _)

theorem authenticated_serves {respond : Bytes → HttpAnswer α} {idle : HttpAnswer α → Prop}
    {methods : List Method} {req : HttpRequest β} {handler : JWTPayload → Proc (HttpAnswer α)}
    (failed : ∀ err, idle (.error err)) (h : ∀ claims, Serves respond idle (handler claims)) :
    Serves respond idle (authenticated methods req handler) := by
  unfold authenticated
  split
  · exact .done (failed _)
  · split
    · exact .done (failed _)
    · refine .other nofun fun time => ?_
      simp only [Prog.pure_bind]
      split
      · exact .done (failed _)
      · exact h _

variable {S : Platform} {ctx : Context} {userId deviceId : String} {data : Bytes}

theorem uploadMlsKeyPackage_plain : (uploadMlsKeyPackage S ctx deviceId data).All
    fun op => ∀ u d, op ≠ .getActiveMlsKeyPackage u d := by
  unfold uploadMlsKeyPackage withDevice verifyDeviceOwnership
  split
  · trivial
  · split
    · trivial
    · split
      · trivial
      · dsimp only
        split
        · trivial
        · split
          · trivial
          · refine ⟨nofun, fun found => ?_⟩
            cases found with
            | error => trivial
            | ok device =>
              simp only [Prog.pure_bind]
              split
              · trivial
              · exact ⟨nofun, fun saved => by cases saved <;> trivial⟩

theorem fetchMlsKeyPackage_serves :
    Serves .ok (fun r => r.toOption = none) (fetchMlsKeyPackage S ctx userId deviceId) := by
  unfold fetchMlsKeyPackage
  split
  · exact .done rfl
  · split
    · exact .done rfl
    · split
      · exact .done rfl
      · split
        · exact .done rfl
        · exact .fetch (fun _ => rfl) fun _ => ⟨_, rfl, rfl⟩

end Serves

namespace PackageRequest

theorem methods_guarded : ∀ method ∈ ["/chat.v1.KeyService/UploadMlsKeyPackage",
    "/chat.v1.KeyService/FetchMlsKeyPackage"],
    isPublicMethod method = false ∧ isInternalServiceMethod method = false := by
  decide

/-- The answer over HTTP to a fetch. -/
def packageAnswer : Answer Bytes → HttpAnswer String
  | .error _ => .error ⟨"mls key package not found", 404⟩
  | .ok data => .ok (Base64.encodeToString data)

theorem handle_serves (S : Platform) (req : PackageRequest) :
    Serves (fun data => some (req.presents data)) (· = none) (req.handle S) := by
  cases req with
  | grpcUploadMlsKeyPackage token deviceId data =>
    have guarded := methods_guarded "/chat.v1.KeyService/UploadMlsKeyPackage" (by simp)
    have plain : (unaryAuthInterceptor "/chat.v1.KeyService/UploadMlsKeyPackage" token
        (uploadMlsKeyPackage S · deviceId data)).All
        fun op => ∀ u d, op ≠ .getActiveMlsKeyPackage u d := by
      apply interceptor_all
      · exact guarded
      · rintro _ _ ⟨⟩
      · exact fun _ _ _ => uploadMlsKeyPackage_plain
    exact .of_all plain fun r => by cases r <;> rfl
  | grpcFetchMlsKeyPackage token userId deviceId =>
    have guarded := methods_guarded "/chat.v1.KeyService/FetchMlsKeyPackage" (by simp)
    have fetch : Serves .ok (fun r => r.toOption = none) (unaryAuthInterceptor
        "/chat.v1.KeyService/FetchMlsKeyPackage" token
        (fetchMlsKeyPackage S · userId deviceId)) := by
      apply interceptor_serves
      · exact guarded
      · exact fun _ => rfl
      · exact fun _ => fetchMlsKeyPackage_serves
    exact fetch.bind (fun _ => rfl) (fun _ => rfl) fun _ idle => by rw [idle]; rfl
  | httpUploadMlsKeyPackage req =>
    have plain : (Auth.httpUploadMlsKeyPackage S req).All
        fun op => ∀ u d, op ≠ .getActiveMlsKeyPackage u d := by
      refine authenticated_all (by rintro _ _ ⟨⟩) fun token _ _ => ?_
      split
      · trivial
      · exact uploadMlsKeyPackage_plain.bind fun r => by cases r <;> trivial
    exact .of_all plain fun r => by cases r <;> rfl
  | httpFetchMlsKeyPackage req =>
    have fetch : Serves (fun data => .ok (Base64.encodeToString data)) (fun r => r.toOption = none)
        (Auth.httpFetchMlsKeyPackage S req) := by
      refine authenticated_serves (fun _ => rfl) fun claims => ?_
      dsimp only
      split
      · exact .done rfl
      · refine fetchMlsKeyPackage_serves.bind (g := packageAnswer) ?_ ?_ ?_
        · intro r
          cases r <;> rfl
        · exact fun _ => rfl
        · intro r idle
          cases r with
          | error => rfl
          | ok => cases idle
    exact fetch.bind (fun _ => rfl) (fun _ => rfl) fun _ idle => by rw [idle]; rfl

end PackageRequest

/-! ## Runs -/

/-- Any number of uploads and fetches at a time, from any database. -/
abbrev packageService (S : Platform) : Service Op Ret (Option Package) PackageRequest Change where
  system := system
  init _ := True
  env := Server.change
  body req := req.handle S

/-- A fetch that has found a row: its thread, its query and the table at that time. -/
structure Fetch where
  thread : Nat
  query : PackageQuery
  packages : List MlsKeyPackage

/-- The row that the fetch has found, by its place in the table. -/
def Fetch.row (f : Fetch) : Option Nat := newest f.packages f.query

/-- The bytes of that row. -/
def Fetch.keyPackage (f : Fetch) : Option Bytes :=
  f.row.bind fun i => f.packages[i]?.map MlsKeyPackage.keyPackage

section Runs
variable {S : Platform}

/-- The statements that hand out a package. -/
def fetches (p : Pool (packageService S)) : PoolLabel (packageService S) → List Fetch
  | .run i .ok => match p.next i with
    | some (_, .getActiveMlsKeyPackage u d) =>
      let f : Fetch := ⟨i, ⟨u, d⟩, p.shared.db.mlsKeyPackages⟩
      if f.row.isSome then [f] else []
    | _ => []
  | _ => []

/-- The table only grows. -/
theorem exec_packages {s s' : Server} {op : Op} {c : Choice} {r : Ret op}
    (h : s.exec op c = some (r, s')) : s.db.mlsKeyPackages <+: s'.db.mlsKeyPackages := by
  rcases Server.exec_db h with same | ⟨effect, -⟩
  · rw [same]
  · cases op
    case updateDeviceIdentityKey =>
      obtain ⟨_, shape⟩ := Database.updateIdentityKey_shape effect
      rw [shape]
    case uploadPreKeyBundle =>
      obtain ⟨_, shape⟩ := Database.upsertPreKeys_shape effect
      rw [shape]
    case uploadOneTimeKeys =>
      obtain ⟨_, shape⟩ := Database.insertOneTimeKeys_shape effect
      rw [shape]
    case commit tx =>
      obtain ⟨_, shape⟩ := @Database.consumeOneTimeKeys_shape s.db (s.lockedBy tx)
      have effect : (s.applied tx).db = s'.db := Option.some.inj effect
      rw [← effect]
      simp [Server.applied, shape]
    case saveMlsKeyPackage =>
      obtain ⟨-, inserted⟩ := Option.ite_none_right_eq_some.mp effect
      rw [← Option.some.inj inserted]
      exact List.prefix_append _ _
    all_goals
      have same := (Server.effect_same (p := .keys) effect (by rintro ⟨⟩)).2.2.2
      rw [same]

theorem change_packages {s s' : Server} {e : Change} (h : s.change e = some s') :
    s'.db.mlsKeyPackages = s.db.mlsKeyPackages := by
  cases e with
  | addDevice =>
    obtain ⟨-, h⟩ := Option.ite_none_right_eq_some.mp h
    cases h
    rfl
  | _ =>
    cases h
    rfl

theorem step_packages {p q : Pool (packageService S)} {l : PoolLabel (packageService S)}
    (h : p.step l = some q) : p.shared.db.mlsKeyPackages <+: q.shared.db.mlsKeyPackages := by
  cases l with
  | spawn t =>
    cases h
    exact List.prefix_rfl
  | run i c =>
    obtain ⟨t, op, k, r, s, -, hr, rfl⟩ := Pool.run_cases h
    exact exec_packages hr
  | env e =>
    obtain ⟨s, hs, rfl⟩ := Pool.env_cases h
    rw [change_packages hs]

theorem mem_fetches {p : Pool (packageService S)} {l : PoolLabel (packageService S)} {f : Fetch} :
    f ∈ fetches p l ↔ l = .run f.thread .ok ∧ f.packages = p.shared.db.mlsKeyPackages ∧
      f.row.isSome ∧ ∃ req, p.next f.thread =
        some (req, .getActiveMlsKeyPackage f.query.userID f.query.deviceID) := by
  constructor
  · intro h
    unfold fetches at h
    split at h
    · split at h
      · rename_i i _ req u d next
        dsimp only at h
        split at h
        · rename_i found
          rw [List.mem_singleton.mp h]
          exact ⟨rfl, rfl, found, req, next⟩
        · cases h
      · cases h
    · cases h
  · rintro ⟨rfl, packages, found, req, next⟩
    have same : (⟨f.thread, ⟨f.query.userID, f.query.deviceID⟩, p.shared.db.mlsKeyPackages⟩ : Fetch)
        = f := by rw [← packages]
    simp [fetches, next, same, found]

/-- Each fetch has seen the table of the fetches before it. -/
theorem fetches_grow {p : Pool (packageService S)} {fs : List Fetch}
    (h : (Pool.machine (packageService S)).Emits fetches p fs) :
    (∀ f ∈ fs, f.packages <+: p.shared.db.mlsKeyPackages ∧ f.row.isSome) ∧
      fs.Pairwise fun f g => f.packages <+: g.packages ∧ f.row.isSome ∧ g.row.isSome := by
  induction h with
  | start hs => exact ⟨nofun, .nil⟩
  | @step p q l fs h step ih =>
    obtain ⟨seen, grow⟩ := ih
    have later := step_packages step
    refine ⟨fun f mem => ?_, List.pairwise_append.mpr ⟨grow, ?_, fun f hf g hg => ?_⟩⟩
    · rcases List.mem_append.mp mem with old | new
      · exact ⟨(seen f old).1.trans later, (seen f old).2⟩
      · obtain ⟨-, same, found, -⟩ := mem_fetches.mp new
        exact ⟨same ▸ later, found⟩
    · have one : (fetches p l).length ≤ 1 := by
        unfold fetches
        split
        · split
          · dsimp only
            split <;> simp
          · simp
        · simp
      match hf : fetches p l with
      | [] => exact .nil
      | [f] => exact List.pairwise_singleton _ _
      | f :: g :: rest => simp [hf] at one
    · obtain ⟨-, same, found, -⟩ := mem_fetches.mp hg
      exact ⟨same ▸ (seen f hf).1, (seen f hf).2, found⟩

/-! ### Fetches and threads -/

/-- What the fetches so far have to do with a thread. -/
def Accounted (fs : List Fetch) (i : Nat) (x : PackageRequest × Proc (Option Package)) : Prop :=
  (Serves (fun data => some (x.1.presents data)) (· = none) x.2 ∧ ∀ f ∈ fs, f.thread ≠ i) ∨
    ∃ f ∈ fs, f.thread = i ∧ ∃ data, f.keyPackage = some data ∧
      x.2 = .pure (some (x.1.presents data))

/-- The step of a thread that asks for a key package. -/
theorem fetch_step {p : Pool (packageService S)} {i : Nat} {c : Choice} {req : PackageRequest}
    {u : UUID} {d : Option UUID} {r : Except StoreError Bytes} {s : Server}
    (next : p.next i = some (req, .getActiveMlsKeyPackage u d))
    (h : p.shared.exec (.getActiveMlsKeyPackage u d) c = some (r, s)) :
    (∃ f data, fetches p (.run i c) = [f] ∧ f.thread = i ∧ f.keyPackage = some data ∧
      r = .ok data) ∨ fetches p (.run i c) = [] ∧ ∃ err, r = .error err := by
  obtain ⟨-, ⟨rfl, rfl⟩ | ⟨rfl, rfl⟩⟩ := Server.query_eq_some.mp h
  · let f : Fetch := ⟨i, ⟨u, d⟩, p.shared.db.mlsKeyPackages⟩
    have read : p.shared.db.selectMlsKeyPackage u d = f.keyPackage := selectMlsKeyPackage_eq _ u d
    cases found : f.row with
    | none =>
      have unread : f.keyPackage = none := by simp [Fetch.keyPackage, found]
      refine .inr ⟨?_, .noRows, by rw [read, unread]; rfl⟩
      simp [fetches, next, f, found]
    | some n =>
      obtain ⟨row, place, -⟩ := (newest_eq_some.mp found).matched
      have bytes : f.keyPackage = some row.keyPackage := by
        simp only [Fetch.keyPackage, found, Option.bind_some]
        rw [place]
        rfl
      refine .inl ⟨f, row.keyPackage, ?_, rfl, bytes, by rw [read, bytes]; rfl⟩
      simp [fetches, next, f, found]
  · exact .inr ⟨by simp [fetches], .failed, rfl⟩

theorem Accounted.of_request (fs : List Fetch) {i : Nat} (new : ∀ f ∈ fs, f.thread ≠ i)
    (req : PackageRequest) : Accounted fs i (req, req.handle S) :=
  .inl ⟨req.handle_serves S, new⟩

/-- Every fetch that has found a row has returned it, and every request that has returned a package
is such a fetch. -/
theorem fetches_accounted {p : Pool (packageService S)} {fs : List Fetch}
    (h : (Pool.machine (packageService S)).Emits fetches p fs) :
    (fs.map Fetch.thread).Nodup ∧ (∀ f ∈ fs, f.thread < p.threads.length) ∧
      ∀ i x, p.threads[i]? = some x → Accounted fs i x := by
  induction h with
  | start hs =>
    obtain ⟨s, -, rfl⟩ := hs
    exact ⟨.nil, nofun, fun i x hx => by simp [Pool.start] at hx⟩
  | @step p q l fs h step ih =>
    obtain ⟨once, bound, accounted⟩ := ih
    cases l with
    | spawn req =>
      cases step
      have idle : fetches p (.spawn req) = [] := rfl
      rw [idle, List.append_nil]
      refine ⟨once, fun f mem => ?_, fun i x hx => ?_⟩
      · exact (bound f mem).trans (by simp)
      · by_cases old : i < p.threads.length
        · exact accounted i x (by rwa [List.getElem?_append_left old] at hx)
        · rw [List.getElem?_append_right (not_lt.mp old)] at hx
          rw [List.mem_singleton.mp (List.mem_of_getElem? hx)]
          exact .of_request fs (fun f mem => ((bound f mem).trans_le (not_lt.mp old)).ne) req
    | env e =>
      obtain ⟨s, hs, rfl⟩ := Pool.env_cases step
      have idle : fetches p (.env e) = [] := rfl
      rw [idle, List.append_nil]
      exact ⟨once, bound, accounted⟩
    | run n c =>
      obtain ⟨req, op, k, r, s, thread, hr, rfl⟩ := Pool.run_cases step
      have next := Pool.next_call thread
      have lt := (List.getElem?_eq_some_iff.mp thread).1
      obtain ⟨serves, unused⟩ : Serves (fun data => some (req.presents data)) (· = none)
          (.call op k) ∧ ∀ f ∈ fs, f.thread ≠ n := by
        rcases accounted n _ thread with running | ⟨f, -, -, data, -, done⟩
        · exact running
        · cases done
      -- It remains to account for the thread that ran.
      have only (new : List Fetch) (hn : ∀ f ∈ new, f.thread = n)
          (here : Accounted (fs ++ new) n (req, k r)) :
          ∀ i x, (p.threads.set n (req, k r))[i]? = some x → Accounted (fs ++ new) i x := by
        intro i x hx
        by_cases same : i = n
        · subst same
          rw [List.getElem?_set_self lt] at hx
          cases hx
          exact here
        · rw [List.getElem?_set_ne (Ne.symm same)] at hx
          rcases accounted i x hx with ⟨serves, unused⟩ | ⟨f, mem, rest⟩
          · refine .inl ⟨serves, fun f mem => ?_⟩
            rcases List.mem_append.mp mem with old | mem
            · exact unused f old
            · exact hn f mem ▸ Ne.symm same
          · exact .inr ⟨f, List.mem_append_left _ mem, rest⟩
      have quiet (none' : fetches p (.run n c) = [])
          (serves : Serves (fun data => some (req.presents data)) (· = none) (k r)) :
          ((fs ++ fetches p (.run n c)).map Fetch.thread).Nodup ∧
            (∀ f ∈ fs ++ fetches p (.run n c), f.thread < (p.threads.set n (req, k r)).length) ∧
            ∀ i x, (p.threads.set n (req, k r))[i]? = some x →
              Accounted (fs ++ fetches p (.run n c)) i x := by
        rw [none', List.length_set]
        refine ⟨by simpa using once, by simpa using bound, only [] nofun (.inl ⟨serves, ?_⟩)⟩
        simpa using unused
      cases serves with
      | other plain rest =>
        refine quiet ?_ (rest r)
        rw [List.eq_nil_iff_forall_not_mem]
        intro f mem
        obtain ⟨run, -, -, req', next'⟩ := mem_fetches.mp mem
        cases run
        exact plain _ _ (Prod.ext_iff.mp (Option.some.inj (next.symm.trans next'))).2
      | @fetch u d _ found missing =>
        rcases fetch_step next hr with ⟨f, data, out, own, bytes, rfl⟩ | ⟨out, err, rfl⟩
        · rw [out, List.length_set]
          refine ⟨?_, fun g mem => ?_, only [f] (by simp [own]) (.inr ?_)⟩
          · rw [List.map_append, List.nodup_append]
            refine ⟨once, List.nodup_singleton _, fun a ha b hb => ?_⟩
            obtain ⟨g, mem, rfl⟩ := List.mem_map.mp ha
            rw [List.mem_singleton.mp hb, own]
            exact unused g mem
          · rcases List.mem_append.mp mem with old | new
            · exact bound g old
            · rw [List.mem_singleton.mp new, own]
              exact lt
          · exact ⟨f, by simp, own, data, bytes, found data⟩
        · obtain ⟨a, ends, idle⟩ := missing err
          refine quiet out ?_
          rw [ends]
          exact .done idle

/-! ### Single use -/

/-- The later fetch `g` finds another row than `f`: its query does not match what `f` found, or it
matches a row that comes before that. -/
def Fetch.Moves (f g : Fetch) : Prop :=
  ∀ i, Newest f.packages f.query i → (∃ row ∈ f.packages[i]?, row.Matches g.query) →
    ∃ j, (∃ row ∈ g.packages[j]?, row.Matches g.query) ∧ Precedes g.packages j i

theorem row_ne_iff {f g : Fetch} (grown : f.packages <+: g.packages) (found : f.row.isSome) :
    f.row ≠ g.row ↔ f.Moves g := by
  obtain ⟨i, hi⟩ := Option.isSome_iff_exists.mp found
  have first := newest_eq_some.mp hi
  obtain ⟨row, place, matched⟩ := first.matched
  have kept : g.packages[i]? = some row := by
    obtain ⟨more, hmore⟩ := grown
    rw [← hmore, List.getElem?_append_left (List.getElem?_eq_some_iff.mp place).1, place]
  constructor
  · intro other i' first' matched'
    cases first.unique first'
    by_contra least
    have same : Newest g.packages g.query i := by
      obtain ⟨row', place', matched'⟩ := matched'
      cases place.symm.trans place'
      exact ⟨⟨row, kept, matched'⟩, fun j hj before => least ⟨j, hj, before⟩⟩
    exact other (hi.trans (newest_eq_some.mpr same).symm)
  · intro moves same
    have again := newest_eq_some.mp (same.symm.trans hi)
    obtain ⟨row', place', matched'⟩ := again.matched
    cases kept.symm.trans place'
    obtain ⟨j, hj, before⟩ := moves i first ⟨row, place, matched'⟩
    exact again.first j hj before

/-- No two fetches find the same row if and only if each finds the table changed in its favour. -/
theorem packages_handed_out_once {p : Pool (packageService S)} {fs : List Fetch}
    (h : (Pool.machine (packageService S)).Emits fetches p fs) :
    (fs.map Fetch.row).Nodup ↔ fs.Pairwise Fetch.Moves := by
  obtain ⟨-, grow⟩ := fetches_grow h
  rw [List.Nodup, List.pairwise_map]
  constructor
  · intro distinct
    refine (distinct.and grow).imp fun ⟨ne, grown, found, _⟩ => ?_
    exact (row_ne_iff grown found).mp ne
  · intro moves
    refine (moves.and grow).imp fun ⟨moves, grown, found, _⟩ => ?_
    exact (row_ne_iff grown found).mpr moves

end Runs

namespace Sample

abbrev packages := Pool.machine (packageService platform)

/-- Alice uploads a package for her phone. -/
def upload (data : Bytes) : PackageRequest :=
  .grpcUploadMlsKeyPackage (some aliceToken) alicePhone.text data

/-- Bob fetches a package of Alice. -/
def fetch : PackageRequest := .grpcFetchMlsKeyPackage (some bobToken) alice.text ""

/-- Two fetches at a time, after an upload. -/
def together : List (PoolLabel (packageService platform)) :=
  [.spawn (upload [7]), .run 0 .ok, .run 0 .ok, .run 0 .ok, .spawn fetch, .spawn fetch,
    .run 1 .ok, .run 2 .ok, .run 1 .ok, .run 2 .ok]

/-- Each fetch comes after an upload of its own. -/
def inTurn : List (PoolLabel (packageService platform)) :=
  [.spawn (upload [7]), .run 0 .ok, .run 0 .ok, .run 0 .ok, .spawn fetch, .run 1 .ok, .run 1 .ok,
    .env (.tick 1), .spawn (upload [8]), .run 2 .ok, .run 2 .ok, .run 2 .ok,
    .spawn fetch, .run 3 .ok, .run 3 .ok]

def packagesRun (labels : List (PoolLabel (packageService platform))) :
    Option (Pool (packageService platform) × List Fetch) :=
  packages.collect fetches (Pool.start _ twoPhones) labels

theorem packagesRun_emits {labels : List (PoolLabel (packageService platform))}
    (done : (packagesRun labels).isSome) :
    packages.Emits fetches ((packagesRun labels).get done).1 ((packagesRun labels).get done).2 := by
  have start : packages.Emits fetches (Pool.start _ twoPhones) [] :=
    .start ⟨twoPhones, trivial, rfl⟩
  exact start.collect (Option.some_get done).symm

theorem together_isSome : (packagesRun together).isSome := by rfl

theorem inTurn_isSome : (packagesRun inTurn).isSome := by rfl

/-- Both fetches return the one package that there is. -/
theorem package_handed_out_twice : ∃ p fs, packages.Emits fetches p fs ∧
    ¬ (fs.map Fetch.row).Nodup ∧
    (p.threads.map fun x => x.2.result) = [some none, some (some (.inl [7])),
      some (some (.inl [7]))] := by
  refine ⟨_, _, packagesRun_emits together_isSome, ?_, by rfl⟩
  have rows : ((packagesRun together).get together_isSome).2.map Fetch.row =
      [some 0, some 0] := by rfl
  rw [rows]
  decide

theorem packages_handed_out_once_sample : ∃ p fs, packages.Emits fetches p fs ∧ fs.length = 2 ∧
    fs.Pairwise Fetch.Moves := by
  refine ⟨_, _, packagesRun_emits inTurn_isSome, by rfl, ?_⟩
  refine (packages_handed_out_once (packagesRun_emits inTurn_isSome)).mp ?_
  have rows : ((packagesRun inTurn).get inTurn_isSome).2.map Fetch.row =
      [some 0, some 1] := by rfl
  rw [rows]
  decide

end Sample
end GenChat.Auth
