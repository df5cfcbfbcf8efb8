import GenChat.Library.Hex
import GenChat.Library.PercentEncoding
import Mathlib.Data.List.Sort
import Mathlib.Data.List.TakeWhile

/-!
# Presigned URLs

`signURL` escapes an object key, signs the escaped path and hands it to `url.URL`, whose `String`
escapes the path once more. An S3 server decodes the path of a request once and signs its own
encoding of it. So the two agree as long as nothing in the path is escaped at all.
-/
namespace GenChat.Media
open Library PercentEncoding

abbrev Bytes := List UInt8

/-- An ASCII text. -/
def bytes (text : String) : Bytes := text.toList.map fun c => UInt8.ofNat c.toNat

/-! ## Escaping in Go -/

def alphanumeric (c : UInt8) : Bool :=
  (97 ≤ c && c ≤ 122) || (65 ≤ c && c ≤ 90) || (48 ≤ c && c ≤ 57)

/-- What `net/url` escapes for: a whole path, one segment of it, or the host. -/
inductive Encoding where
  | path
  | pathSegment
  | host
  deriving DecidableEq, Repr

/-- `shouldEscape` of `net/url`. -/
def shouldEscape (c : UInt8) (mode : Encoding) : Bool :=
  if alphanumeric c then false
  else if mode = .host ∧ c ∈ bytes "!$&'()*+,;=:[]<>\"" then false
  else if c ∈ bytes "-_.~" then false
  else if c ∈ bytes "$&+,/:;=?@" then
    match mode with
    | .path => c ∈ bytes "?"
    | .pathSegment => c ∈ bytes "/;,?"
    | .host => true
  else true

def escape (mode : Encoding) (s : Bytes) : Bytes := encode (fun c => !shouldEscape c mode) s

def slash : UInt8 := 47

/-- `url.URL.String` of a URL with these fields, whose path begins with a slash. -/
def urlString (scheme host path rawQuery : Bytes) : Bytes :=
  scheme ++ bytes "://" ++ escape .host host ++ escape .path path ++ bytes "?" ++ rawQuery

/-! ## Signing -/

structure Config where
  endpoint : Bytes
  accessKey : Bytes
  secretKey : Bytes
  bucketName : Bytes
  useSSL : Bool
  maxUploadBytes : Nat
  urlValidityMins : Int
  region : Bytes

/-- A storage keeps its configuration with the defaults filled in. -/
def newMinIOStorage (cfg : Config) : Config :=
  { cfg with
    bucketName := if cfg.bucketName = [] then bytes "genchat-media" else cfg.bucketName
    maxUploadBytes := if cfg.maxUploadBytes = 0 then 100 * 1024 * 1024 else cfg.maxUploadBytes
    urlValidityMins := if cfg.urlValidityMins = 0 then 15 else cfg.urlValidityMins
    region := if cfg.region = [] then bytes "us-east-1" else cfg.region }

/-- A time in UTC. -/
structure Time where
  year : Nat
  month : Nat
  day : Nat
  hour : Nat
  minute : Nat
  second : Nat

def padded (width n : Nat) : Bytes := ((toString n).toList.leftpad width '0').map
  fun c => UInt8.ofNat c.toNat

/-- `20060102` -/
def Time.date (t : Time) : Bytes := padded 4 t.year ++ padded 2 t.month ++ padded 2 t.day

/-- `20060102T150405Z` -/
def Time.stamp (t : Time) : Bytes :=
  t.date ++ bytes "T" ++ padded 2 t.hour ++ padded 2 t.minute ++ padded 2 t.second ++ bytes "Z"

structure Hashes where
  sha256 : Bytes → Bytes
  hmacSHA256 : Bytes → Bytes → Bytes

namespace Hashes
variable (hashes : Hashes)

def sha256Hex (b : Bytes) : Bytes := bytes (Hex.encode (hashes.sha256 b))

def deriveSigningKey (secretKey dateStamp region service : Bytes) : Bytes :=
  let kDate := hashes.hmacSHA256 (bytes "AWS4" ++ secretKey) dateStamp
  let kRegion := hashes.hmacSHA256 kDate region
  let kService := hashes.hmacSHA256 kRegion service
  hashes.hmacSHA256 kService (bytes "aws4_request")

end Hashes

def awsSigV4Service : Bytes := bytes "s3"

/-- The characters that RFC 3986 leaves alone. -/
def unreserved (c : UInt8) : Bool := alphanumeric c || c ∈ bytes "-_.~"

def sigV4Escape (s : Bytes) : Bytes := encode unreserved s

/-- `url.Values` with one value for each key. -/
abbrev Values := List (Bytes × Bytes)

namespace Values
variable (q : Values)

def get (key : Bytes) : Bytes := ((q.find? (·.1 = key)).map (·.2)).getD []

def sortedKeys : List Bytes := (q.map (·.1)).insertionSort (· ≤ ·)

end Values

/-- The pairs of the query in the order of their keys. -/
def canonicalQuery (q : Values) : Bytes :=
  join (q.sortedKeys.map fun k => (sigV4Escape k, sigV4Escape (q.get k)))

/-- An object key may contain slashes. -/
def encodePathSegment (objectKey : Bytes) : Bytes :=
  [slash].intercalate ((objectKey.splitOn slash).map (escape .pathSegment))

def newline : Bytes := bytes "\n"

def canonicalRequest (method uri query host : Bytes) : Bytes :=
  newline.intercalate [method, uri, query, bytes "host:" ++ host ++ newline, bytes "host",
    bytes "UNSIGNED-PAYLOAD"]

namespace Config
variable (cfg : Config) (hashes : Hashes) (now : Time) (method objectKey : Bytes)

def canonicalURI : Bytes :=
  bytes "/" ++ cfg.bucketName ++ bytes "/" ++ encodePathSegment objectKey

def credentialScope : Bytes :=
  [slash].intercalate [now.date, cfg.region, awsSigV4Service, bytes "aws4_request"]

/-- The parameters of the query that are signed. -/
def query : Values := [
  (bytes "X-Amz-Algorithm", bytes "AWS4-HMAC-SHA256"),
  (bytes "X-Amz-Credential", cfg.accessKey ++ bytes "/" ++ cfg.credentialScope now),
  (bytes "X-Amz-Date", now.stamp),
  (bytes "X-Amz-Expires", bytes (toString (cfg.urlValidityMins * 60))),
  (bytes "X-Amz-SignedHeaders", bytes "host")]

/-- The canonical request that is signed. -/
def signedRequest : Bytes :=
  canonicalRequest method (cfg.canonicalURI objectKey) (canonicalQuery (cfg.query now)) cfg.endpoint

def signature : Bytes :=
  let stringToSign := newline.intercalate [bytes "AWS4-HMAC-SHA256", now.stamp,
    cfg.credentialScope now, hashes.sha256Hex (cfg.signedRequest now method objectKey)]
  let signingKey :=
    hashes.deriveSigningKey cfg.secretKey now.date cfg.region awsSigV4Service
  bytes (Hex.encode (hashes.hmacSHA256 signingKey stringToSign))

def signURL : Bytes :=
  urlString (if cfg.useSSL then bytes "https" else bytes "http") cfg.endpoint
    (cfg.canonicalURI objectKey)
    (canonicalQuery (cfg.query now ++
      [(bytes "X-Amz-Signature", cfg.signature hashes now method objectKey)]))

/-- Nothing for the empty key. -/
def generateDownloadURL : Option Bytes :=
  if objectKey = [] then none else some (cfg.signURL hashes now (bytes "GET") objectKey)

end Config

/-! ## The server -/

/-- What a server reads of a request. -/
structure Request where
  host : Bytes
  path : Bytes
  query : Values
  deriving DecidableEq

/-- Host, path and query of a URL, without its fragment; the path is decoded once. -/
def parseURL (url : Bytes) : Option Request :=
  let rest := (url.dropWhile (· ≠ 58)).drop 3
  let tail := (rest.dropWhile (· ∉ bytes "/?#")).takeWhile (· ∉ bytes "#")
  (decode (tail.takeWhile (· ∉ bytes "?"))).bind fun path =>
    ((pairs ((tail.dropWhile (· ∉ bytes "?")).drop 1)).mapM fun pair =>
      (decode pair.1).bind fun key => (decode pair.2).map fun value => (key, value)).map
    fun query => ⟨rest.takeWhile (· ∉ bytes "/?#"), path, query⟩

/-- The canonical request that a server computes: the path in the encoding of S3, and the query
without the signature. -/
def Request.canonical (request : Request) (method : Bytes) : Bytes :=
  canonicalRequest method (encode (fun c => c = slash || unreserved c) request.path)
    (canonicalQuery (request.query.filter (·.1 ≠ bytes "X-Amz-Signature"))) request.host

/-- The server reads the bucket and the key out of the URL, and computes the request that was
signed. -/
def Verifies (cfg : Config) (hashes : Hashes) (now : Time) (method objectKey : Bytes) : Prop :=
  ∃ request, parseURL (cfg.signURL hashes now method objectKey) = some request ∧
    request.path = bytes "/" ++ cfg.bucketName ++ bytes "/" ++ objectKey ∧
    request.canonical method = cfg.signedRequest now method objectKey

/-! ## Queries -/

section Queries
variable {q r : Values}

theorem get_append {k : Bytes} (h : k ∈ q.map (·.1)) : Values.get (q ++ r) k = q.get k := by
  obtain ⟨pair, mem, rfl⟩ := List.mem_map.mp h
  have found : (q.find? (·.1 = pair.1)).isSome :=
    List.find?_isSome.mpr ⟨pair, mem, decide_eq_true rfl⟩
  rw [Values.get, List.find?_append, Option.or_of_isSome found, Values.get]

theorem get_map {keys : List Bytes} {k : Bytes} (h : k ∈ keys) (value : Bytes → Bytes) :
    Values.get (keys.map fun k => (k, value k)) k = value k := by
  have found : (keys.map fun k => (k, value k)).find? (·.1 = k) = some (k, value k) := by
    induction keys with
    | nil => cases h
    | cons key keys ih =>
      by_cases same : key = k
      · subst same
        simp
      · rw [List.map_cons, List.find?_cons_of_neg (by simpa using same)]
        exact ih ((List.mem_cons.mp h).resolve_left (Ne.symm same))
  rw [Values.get, found]
  rfl

theorem canonicalQuery_congr (keys : q.sortedKeys = r.sortedKeys)
    (values : ∀ k ∈ r.sortedKeys, q.get k = r.get k) : canonicalQuery q = canonicalQuery r := by
  rw [canonicalQuery, canonicalQuery, keys]
  exact congrArg join (List.map_congr_left fun k mem => by rw [values k mem])

theorem mem_sortedKeys {k : Bytes} : k ∈ q.sortedKeys ↔ k ∈ q.map (·.1) := List.mem_insertionSort _

theorem mapM_map {α β : Type} {f : α → β} {g : β → Option α} (l : List α)
    (back : ∀ a ∈ l, g (f a) = some a) : (l.map f).mapM g = some l := by
  induction l with
  | nil => rfl
  | cons a l ih =>
    rw [List.forall_mem_cons] at back
    simp [back.1, ih back.2]

/-- The parser of a server. -/
def decodePairs (query : Bytes) : Option Values :=
  (pairs query).mapM fun pair =>
    (decode pair.1).bind fun key => (decode pair.2).map fun value => (key, value)

theorem decode_sigV4Escape (s : Bytes) : decode (sigV4Escape s) = some s :=
  decode_encode (by decide) s

theorem not_mem_canonicalQuery {c : UInt8} (separator : c ≠ ampersand ∧ c ≠ equalsSign)
    (notKept : unreserved c = false) (notEscape : escapeByte c = false) :
    c ∉ canonicalQuery q := by
  refine not_mem_join separator fun pair mem => ?_
  obtain ⟨k, -, rfl⟩ := List.mem_map.mp mem
  exact ⟨not_mem_encode notKept notEscape k, not_mem_encode notKept notEscape (q.get k)⟩

theorem decodePairs_canonicalQuery (some' : q ≠ []) :
    decodePairs (canonicalQuery q) = some (q.sortedKeys.map fun k => (k, q.get k)) := by
  have nonempty : q.sortedKeys ≠ [] := by
    obtain ⟨pair, rest, rfl⟩ := List.exists_cons_of_ne_nil some'
    have mem : pair.1 ∈ Values.sortedKeys (pair :: rest) := mem_sortedKeys.mpr (by simp)
    exact List.ne_nil_of_mem mem
  have clean (c : UInt8) (notKept : unreserved c = false) (notEscape : escapeByte c = false)
      (s : Bytes) : c ∉ sigV4Escape s := not_mem_encode notKept notEscape s
  rw [decodePairs, canonicalQuery, pairs_join (by simpa using nonempty)]
  · have split : (q.sortedKeys.map fun k => (sigV4Escape k, sigV4Escape (q.get k))) =
        (q.sortedKeys.map fun k => (k, q.get k)).map
          fun pair => (sigV4Escape pair.1, sigV4Escape pair.2) := by
      rw [List.map_map]
      rfl
    rw [split]
    exact mapM_map _ fun pair _ => by simp [decode_sigV4Escape]
  · intro pair mem
    obtain ⟨k, -, rfl⟩ := List.mem_map.mp mem
    exact ⟨clean _ (by decide) (by decide) _, clean _ (by decide) (by decide) _⟩
  · intro pair mem
    obtain ⟨k, -, rfl⟩ := List.mem_map.mp mem
    exact clean _ (by decide) (by decide) _

end Queries

/-! ## URLs -/

theorem takeWhile_append_cons {p : UInt8 → Bool} {s : Bytes} {c : UInt8} (h : ∀ b ∈ s, p b = true)
    (hc : p c = false) (t : Bytes) : (s ++ c :: t).takeWhile p = s := by
  rw [List.takeWhile_append_of_pos h, List.takeWhile_cons_of_neg (by simp [hc]), List.append_nil]

theorem dropWhile_append_cons {p : UInt8 → Bool} {s : Bytes} {c : UInt8} (h : ∀ b ∈ s, p b = true)
    (hc : p c = false) (t : Bytes) : (s ++ c :: t).dropWhile p = c :: t := by
  rw [List.dropWhile_append_of_pos h, List.dropWhile_cons_of_neg (by simp [hc])]

/-- Characters that are escaped do not occur. -/
theorem forall_not_mem (mode : Encoding) (stops : Bytes)
    (escaped : (stops.all fun c => shouldEscape c mode && !escapeByte c) = true) (s : Bytes) :
    ∀ b ∈ escape mode s, decide (b ∉ stops) = true := by
  intro b mem
  refine decide_eq_true fun stop => ?_
  have both := List.all_eq_true.mp escaped b stop
  obtain ⟨escape, notEscape⟩ : shouldEscape b mode = true ∧ escapeByte b = false := by
    simpa using both
  exact not_mem_encode (by simp [escape]) notEscape s mem

theorem escape_slash (p : Bytes) : escape .path (slash :: p) = slash :: escape .path p := rfl

theorem decode_escape {mode : Encoding} (s : Bytes) : decode (escape mode s) = some s :=
  decode_encode (by cases mode <;> decide) s

/-- A server reads the fields of a URL back. -/
theorem parseURL_urlString {scheme path rawQuery : Bytes} (host : Bytes) (named : 58 ∉ scheme)
    (noFragment : 35 ∉ rawQuery) : parseURL (urlString scheme host (slash :: path) rawQuery) =
      (decodePairs rawQuery).map fun query => ⟨escape .host host, slash :: path, query⟩ := by
  have url : urlString scheme host (slash :: path) rawQuery = scheme ++ 58 :: (47 :: 47 ::
      (escape .host host ++ slash :: (escape .path path ++ 63 :: rawQuery))) := by
    simp [urlString, escape_slash, bytes]
  have before : ∀ b ∈ scheme, decide (b ≠ 58) = true := by
    intro b mem
    refine decide_eq_true fun colon => named ?_
    rwa [colon] at mem
  have rest : ((urlString scheme host (slash :: path) rawQuery).dropWhile (· ≠ 58)).drop 3 =
      escape .host host ++ slash :: (escape .path path ++ 63 :: rawQuery) := by
    rw [url, dropWhile_append_cons before (by decide)]
    rfl
  have hostStops := forall_not_mem .host (bytes "/?#") (by decide) host
  have pathStops := forall_not_mem .path (bytes "?") (by decide) (slash :: path)
  have pathFragment :=
    forall_not_mem .path (bytes "#") (by decide) (slash :: path)
  have tail : (slash :: (escape .path path ++ 63 :: rawQuery)).takeWhile (· ∉ bytes "#") =
      escape .path (slash :: path) ++ 63 :: rawQuery := by
    rw [← List.cons_append, ← escape_slash]
    refine List.takeWhile_eq_self_iff.mpr fun b mem => ?_
    rcases List.mem_append.mp mem with inPath | inQuery
    · exact pathFragment b inPath
    · refine decide_eq_true fun hash => ?_
      rw [show bytes "#" = [35] from rfl, List.mem_singleton] at hash
      subst hash
      exact noFragment ((List.mem_cons.mp inQuery).resolve_left (by decide))
  rw [parseURL]
  simp only [rest]
  rw [dropWhile_append_cons hostStops (by decide), takeWhile_append_cons hostStops (by decide),
    tail, takeWhile_append_cons pathStops (by decide), dropWhile_append_cons pathStops (by decide),
    decode_escape]
  rfl

/-! ## What the server computes -/

section Server
variable (cfg : Config) (hashes : Hashes) (now : Time) (method objectKey : Bytes)

/-- The query of the URL. -/
def signedQuery : Values :=
  cfg.query now ++ [(bytes "X-Amz-Signature", cfg.signature hashes now method objectKey)]

def signedKeys : List Bytes :=
  [bytes "X-Amz-Algorithm", bytes "X-Amz-Credential", bytes "X-Amz-Date", bytes "X-Amz-Expires",
    bytes "X-Amz-SignedHeaders"]

theorem sortedKeys_query : (cfg.query now).sortedKeys = signedKeys := by
  change signedKeys.insertionSort (· ≤ ·) = signedKeys
  rfl

theorem filter_sortedKeys : (signedQuery cfg hashes now method objectKey).sortedKeys.filter
    (· ≠ bytes "X-Amz-Signature") = signedKeys := by
  change ((signedKeys ++ [bytes "X-Amz-Signature"]).insertionSort (· ≤ ·)).filter
    (· ≠ bytes "X-Amz-Signature") = signedKeys
  rfl

theorem parseURL_signURL : parseURL (cfg.signURL hashes now method objectKey) = some
    ⟨escape .host cfg.endpoint, cfg.canonicalURI objectKey,
      (signedQuery cfg hashes now method objectKey).sortedKeys.map
        fun k => (k, (signedQuery cfg hashes now method objectKey).get k)⟩ := by
  have named : 58 ∉ (if cfg.useSSL then bytes "https" else bytes "http") := by
    split <;> decide
  have noFragment : 35 ∉ canonicalQuery (signedQuery cfg hashes now method objectKey) :=
    not_mem_canonicalQuery (by decide) (by decide) (by decide)
  have decoded := decodePairs_canonicalQuery (q := signedQuery cfg hashes now method objectKey)
    (List.cons_ne_nil _ _)
  change parseURL (urlString _ cfg.endpoint (slash :: _)
    (canonicalQuery (signedQuery cfg hashes now method objectKey))) = _
  rw [parseURL_urlString _ named noFragment, decoded]
  rfl

/-- Without the signature the query is the one that was signed. -/
theorem canonicalQuery_filter : canonicalQuery
    (((signedQuery cfg hashes now method objectKey).sortedKeys.map
      fun k => (k, (signedQuery cfg hashes now method objectKey).get k)).filter
        (·.1 ≠ bytes "X-Amz-Signature")) = canonicalQuery (cfg.query now) := by
  have kept : (((signedQuery cfg hashes now method objectKey).sortedKeys.map
      fun k => (k, (signedQuery cfg hashes now method objectKey).get k)).filter
        (·.1 ≠ bytes "X-Amz-Signature")) =
      signedKeys.map fun k => (k, (signedQuery cfg hashes now method objectKey).get k) := by
    rw [List.filter_map, ← filter_sortedKeys cfg hashes now method objectKey]
    rfl
  rw [kept]
  refine canonicalQuery_congr ?_ fun k mem => ?_
  · rw [sortedKeys_query, Values.sortedKeys, List.map_map]
    change (signedKeys.map id).insertionSort (· ≤ ·) = signedKeys
    rfl
  · have signed : k ∈ (cfg.query now).map (·.1) := mem_sortedKeys.mp mem
    rw [sortedKeys_query] at mem
    rw [get_map mem, signedQuery, get_append signed]

theorem length_canonicalRequest (uri query host : Bytes) :
    (canonicalRequest method uri query host).length =
      method.length + uri.length + query.length + host.length + 31 := by
  simp [canonicalRequest, newline, bytes, List.intercalate, List.intersperse]
  omega

/-- Nothing of the endpoint, the bucket and the key is ever escaped. -/
structure NothingEscaped : Prop where
  endpoint : ∀ c ∈ cfg.endpoint, shouldEscape c .host = false
  bucket : ∀ c ∈ cfg.bucketName, c = slash ∨ unreserved c = true
  key : ∀ c ∈ objectKey, c = slash ∨ unreserved c = true

theorem shouldEscape_of_unreserved {c : UInt8} (h : unreserved c = true) (mode : Encoding) :
    shouldEscape c mode = false := by
  rw [unreserved, Bool.or_eq_true, decide_eq_true_eq] at h
  unfold shouldEscape
  rcases h with plain | mark
  · rw [if_pos plain]
  · split
    · rfl
    · split
      · rfl
      · rfl

theorem encodePathSegment_iff (key : Bytes) : encodePathSegment key = key ↔
    ∀ c ∈ key, c = slash ∨ shouldEscape c .pathSegment = false := by
  have whole : encodePathSegment key =
      encode (fun c => c = slash || !shouldEscape c .pathSegment) key :=
    intercalate_encode_splitOn slash key
  rw [whole, encode_eq_self_iff]
  simp only [Bool.or_eq_true, decide_eq_true_eq, Bool.not_eq_true']

/-- The server computes the signed request if neither the path nor the host is escaped. -/
theorem canonicalRequest_iff (uri query host : Bytes) :
    canonicalRequest method (encode (fun c => c = slash || unreserved c) uri) query
        (escape .host host) = canonicalRequest method uri query host ↔
      (∀ c ∈ uri, c = slash ∨ unreserved c = true) ∧
        ∀ c ∈ host, shouldEscape c .host = false := by
  constructor
  · intro same
    have lengths := congrArg List.length same
    rw [length_canonicalRequest, length_canonicalRequest] at lengths
    rw [escape] at lengths
    have uriLe := length_le_encode (fun c => c = slash || unreserved c) uri
    have hostLe := length_le_encode (fun c => !shouldEscape c .host) host
    have uriKept := (length_encode_iff (fun c => c = slash || unreserved c) uri).mp (by omega)
    have hostKept := (length_encode_iff (fun c => !shouldEscape c .host) host).mp (by omega)
    exact ⟨by simpa using uriKept, by simpa using hostKept⟩
  · rintro ⟨uriKept, hostKept⟩
    rw [(encode_eq_self_iff uri).mpr (by simpa using uriKept), escape,
      (encode_eq_self_iff host).mpr (by simpa using hostKept)]

/-- A presigned URL verifies if nothing in it had to be escaped. -/
theorem verifies_iff : Verifies cfg hashes now method objectKey ↔ NothingEscaped cfg objectKey := by
  have path : cfg.canonicalURI objectKey = bytes "/" ++ cfg.bucketName ++ bytes "/" ++ objectKey ↔
      encodePathSegment objectKey = objectKey := List.append_right_inj _
  have computed : Verifies cfg hashes now method objectKey ↔
      encodePathSegment objectKey = objectKey ∧
        (∀ c ∈ cfg.canonicalURI objectKey, c = slash ∨ unreserved c = true) ∧
          ∀ c ∈ cfg.endpoint, shouldEscape c .host = false := by
    rw [Verifies, parseURL_signURL]
    simp only [Option.some.injEq, exists_eq_left', path, Request.canonical, canonicalQuery_filter,
      Config.signedRequest, canonicalRequest_iff]
  rw [computed]
  constructor
  · rintro ⟨key, uri, endpoint⟩
    rw [path.mpr key] at uri
    refine ⟨endpoint, fun c mem => uri c ?_, fun c mem => uri c ?_⟩
    · simp [mem]
    · simp [mem]
  · rintro ⟨endpoint, bucket, key⟩
    have same : encodePathSegment objectKey = objectKey :=
      (encodePathSegment_iff objectKey).mpr fun c mem =>
        (key c mem).imp_right fun plain => shouldEscape_of_unreserved plain .pathSegment
    refine ⟨same, ?_, endpoint⟩
    rw [path.mpr same]
    intro c mem
    simp only [List.mem_append] at mem
    rcases mem with ((first | inBucket) | second) | inKey
    · exact .inl (List.mem_singleton.mp first)
    · exact bucket c inBucket
    · exact .inl (List.mem_singleton.mp second)
    · exact key c inKey

end Server

/-! ## A space in a key -/

/-- A storage with the default bucket and region. -/
def localStorage : Config := newMinIOStorage
  ⟨bytes "localhost:9000", bytes "access", bytes "secret", [], false, 0, 0, []⟩

def noon : Time := ⟨2026, 9, 5, 12, 0, 0⟩

/-- The server finds the path of the object `a%20b` instead of `a b`, whatever the hashes are. -/
theorem space_escaped_twice :
    localStorage.canonicalURI (bytes "a b") = bytes "/genchat-media/a%20b" ∧
    ¬ ∃ hashes, Verifies localStorage hashes noon (bytes "GET") (bytes "a b") := by
  have uri : localStorage.canonicalURI (bytes "a b") = bytes "/genchat-media/a%20b" := by
    rfl
  refine ⟨uri, ?_⟩
  rintro ⟨hashes, request, read, path, -⟩
  rw [parseURL_signURL] at read
  obtain rfl := Option.some.inj read
  change localStorage.canonicalURI (bytes "a b") = _ at path
  rw [uri] at path
  exact absurd path (by decide)

end GenChat.Media
