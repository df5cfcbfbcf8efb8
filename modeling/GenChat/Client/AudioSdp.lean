import GenChat.Library.BrowserText
import GenChat.Library.Lines
import Mathlib.Data.List.TakeWhile

/-!
# Opus settings in session descriptions

`optimizeAudioSdp` of `webrtc-manager.ts`. Missing parameters are added to the `fmtp` lines of the
Opus payload type. Whether one is missing is decided by a search for its name in the text of the
line, and some are added only together with another one.
-/
namespace GenChat.Client
open Library BrowserText

/-! ## The function -/

/-- `sdp.split('\r\n')` -/
def sdpLines (sdp : String) : List (List Char) := splitPair '\r' '\n' sdp.toList

/-- Comparison under the flag `i`. -/
def startsFold (pre : String) (s : List Char) : Bool := pre.toList.isPrefixOf (s.map Char.toLower)

/-- The payload type in a match of `/^a=rtpmap:(\d+)\s+opus\/48000/i`. A digit is no blank and a
blank no letter, so that only the longest runs of both can match. -/
def matchOpus (line : List Char) : Option (List Char) :=
  if startsFold "a=rtpmap:" line then
    let rest := line.drop "a=rtpmap:".length
    let opusPt := rest.takeWhile Char.isDigit
    let blanks := rest.dropWhile Char.isDigit
    let codec := blanks.dropWhile fun c => isSpace c.toNat
    if opusPt ≠ [] ∧ codec.length < blanks.length ∧ startsFold "opus/48000" codec then some opusPt
    else none
  else none

def findOpus (lines : List (List Char)) : Option (List Char) := lines.findSome? matchOpus

def fmtpLead (opusPt : List Char) : List Char := "a=fmtp:".toList ++ opusPt ++ [' ']

def rtpmapLead (opusPt : List Char) : List Char := "a=rtpmap:".toList ++ opusPt ++ [' ']

/-- What is searched for, and what is added behind a semicolon where it is not found. -/
def additions : List (String × String) :=
  [("useinbandfec=", "useinbandfec=1"), ("usedtx=", "usedtx=1"),
    ("maxaveragebitrate=", "maxaveragebitrate=64000"), ("stereo=", "stereo=0;sprop-stereo=0"),
    ("cbr=", "cbr=1"), ("minptime=", "minptime=10;maxptime=20")]

def addMissing (params : List Char) (addition : String × String) : List Char :=
  if addition.1.toList <:+: params then params else params ++ ';' :: addition.2.toList

def tuneParams (params : List Char) : List Char := additions.foldl addMissing params

def enhancedParams : String :=
  "minptime=10;maxptime=20;useinbandfec=1;usedtx=1;maxaveragebitrate=64000;" ++
    "stereo=0;sprop-stereo=0;cbr=1"

def isFmtp (opusPt line : List Char) : Bool := (fmtpLead opusPt).isPrefixOf line

def tuneLine (opusPt line : List Char) : List Char :=
  if isFmtp opusPt line then fmtpLead opusPt ++ tuneParams (line.drop (fmtpLead opusPt).length)
  else line

/-- The new line goes behind the first line that starts as the `rtpmap` of the payload type. -/
def insertFmtp (opusPt : List Char) (newLines : List (List Char)) : List (List Char) :=
  match newLines.findIdx? (rtpmapLead opusPt).isPrefixOf with
  | some rtpmapIdx =>
    newLines.insertIdx (rtpmapIdx + 1) (fmtpLead opusPt ++ enhancedParams.toList)
  | none => newLines

def tuneLines (opusPt : List Char) (lines : List (List Char)) : List (List Char) :=
  let newLines := lines.map (tuneLine opusPt)
  if lines.any (isFmtp opusPt) then newLines else insertFmtp opusPt newLines

def optimizeAudioSdp (sdp : String) : String :=
  if sdp = "" then sdp
  else match findOpus (sdpLines sdp) with
    | none => sdp
    | some opusPt => String.ofList (joinPair '\r' '\n' (tuneLines opusPt (sdpLines sdp)))

/-! ## Parameters -/

def items (params : List Char) : List (List Char) := params.splitOn ';'

/-- The text before the equals sign, without the blanks in front. -/
def paramName (item : List Char) : List Char :=
  (item.dropWhile fun c => isSpace c.toNat).takeWhile (· ≠ '=')

def occurrences (name : String) (params : List Char) : Nat :=
  (items params).countP fun item => paramName item = name.toList

/-- The parameters, each with the text that is searched for before it is added. -/
def opusParams : List (String × String) :=
  [("useinbandfec", "useinbandfec="), ("usedtx", "usedtx="),
    ("maxaveragebitrate", "maxaveragebitrate="), ("stereo", "stereo="),
    ("sprop-stereo", "stereo="), ("cbr", "cbr="), ("minptime", "minptime="),
    ("maxptime", "minptime=")]

/-- A parameter is there once if the text that is searched for is found, and else not at all. -/
def Settled (params : List Char) : Prop :=
  ∀ x ∈ opusParams, occurrences x.1 params = if x.2.toList <:+: params then 1 else 0

theorem items_append (p q : List Char) : items (p ++ ';' :: q) = items p ++ items q :=
  List.splitOn_append_cons_self p q

theorem occurrences_append (name : String) (p q : List Char) :
    occurrences name (p ++ ';' :: q) = occurrences name p + occurrences name q := by
  rw [occurrences, items_append, List.countP_append]
  rfl

/-- A text without semicolons is found on one side of a semicolon. -/
theorem infix_append {key p q : List Char} (single : ';' ∉ key) :
    key <:+: p ++ ';' :: q ↔ key <:+: p ∨ key <:+: q := by
  constructor
  · rintro ⟨before, after, found⟩
    rw [List.append_assoc] at found
    rcases List.append_eq_append_iff.mp found with ⟨middle, left, right⟩ | ⟨middle, left, right⟩
    · -- The found text starts on the left and does not reach the semicolon.
      rcases List.append_eq_append_iff.mp right with ⟨rest, here, there⟩ | ⟨rest, here, there⟩
      · exact .inl ⟨before, rest, by rw [left, here, List.append_assoc]⟩
      · cases rest with
        | nil => exact .inl ⟨before, [], by rw [left, here, List.append_nil, List.append_nil]⟩
        | cons c rest =>
          obtain ⟨rfl, -⟩ := List.cons.inj there
          exact absurd (here ▸ by simp) single
    · -- It starts at the semicolon or behind it.
      cases middle with
      | nil =>
        cases key with
        | nil => exact .inl (List.nil_infix)
        | cons c key =>
          obtain ⟨rfl, -⟩ := List.cons.inj right
          exact absurd List.mem_cons_self single
      | cons c middle =>
        obtain ⟨-, rest⟩ := List.cons.inj right
        refine .inr ⟨middle, after, ?_⟩
        rw [rest, List.append_assoc]
        rfl
  · rintro (left | right)
    · exact left.trans (List.prefix_append p _).isInfix
    · exact right.trans ((List.suffix_cons ';' q).trans (List.suffix_append p _)).isInfix

/-! ## Additions -/

/-- The additions whose text is not found. -/
def missing (adds : List (String × String)) (params : List Char) : List (String × String) :=
  adds.filter fun x => ¬ x.1.toList <:+: params

theorem mem_of_missing {adds : List (String × String)} {params : List Char}
    {x : String × String} (mem : x ∈ missing adds params) : x ∈ adds := (List.mem_filter.mp mem).1

/-- Texts that are searched for have no semicolon, and no addition holds the text of a later one. -/
structure Ordered (adds : List (String × String)) : Prop where
  single : ∀ x ∈ adds, ';' ∉ x.1.toList
  apart : adds.Pairwise fun x y => ¬ y.1.toList <:+: x.2.toList

theorem additions_ordered : Ordered additions := ⟨by decide, by decide⟩

theorem Ordered.tail {x : String × String} {adds : List (String × String)}
    (h : Ordered (x :: adds)) : Ordered adds :=
  ⟨fun y mem => h.single y (List.mem_cons_of_mem x mem), h.apart.tail⟩

/-- What an addition puts in does not change what is found of the later ones. -/
theorem missing_addMissing {x : String × String} {adds : List (String × String)}
    (h : Ordered (x :: adds)) (params : List Char) :
    missing adds (addMissing params x) = missing adds params := by
  apply List.filter_congr
  intro y mem
  have single := h.single y (List.mem_cons_of_mem x mem)
  have apart := (List.pairwise_cons.mp h.apart).1 y mem
  unfold addMissing
  split
  · rfl
  · simp [infix_append single, apart]

/-- The additions go behind the parameters, all that are missing and no others. -/
theorem foldl_addMissing {adds : List (String × String)} (h : Ordered adds) (params : List Char) :
    adds.foldl addMissing params =
      params ++ (missing adds params).flatMap fun x => ';' :: x.2.toList := by
  induction adds generalizing params with
  | nil => simp [missing]
  | cons x adds ih =>
    rw [List.foldl_cons, ih h.tail, missing_addMissing h]
    by_cases found : x.1.toList <:+: params
    · simp [addMissing, missing, found]
    · simp [addMissing, missing, found]

theorem tuneParams_eq (params : List Char) : tuneParams params =
    params ++ (missing additions params).flatMap fun x => ';' :: x.2.toList :=
  foldl_addMissing additions_ordered params

theorem items_flatMap (adds : List (String × String)) (params : List Char) :
    items (params ++ adds.flatMap fun x => ';' :: x.2.toList) =
      items params ++ adds.flatMap fun x => items x.2.toList := by
  induction adds generalizing params with
  | nil => simp
  | cons x adds ih =>
    have assoc : params ++ (x :: adds).flatMap (fun x => ';' :: x.2.toList) =
        (params ++ ';' :: x.2.toList) ++ adds.flatMap fun x => ';' :: x.2.toList := by simp
    rw [assoc, ih, items_append, List.flatMap_cons, List.append_assoc]

/-- Every parameter of the line stays. -/
theorem items_tuneParams {params item : List Char} (mem : item ∈ items params) :
    item ∈ items (tuneParams params) := by
  rw [tuneParams_eq, items_flatMap]
  exact List.mem_append_left _ mem

theorem occurrences_flatMap (name : String) (adds : List (String × String)) (params : List Char) :
    occurrences name (params ++ adds.flatMap fun x => ';' :: x.2.toList) =
      occurrences name params + (adds.map fun x => occurrences name x.2.toList).sum := by
  rw [occurrences, items_flatMap, List.countP_append, List.countP_flatMap]
  rfl

theorem sum_missing (f : String × String → Nat) (adds : List (String × String))
    (params : List Char) : ((missing adds params).map f).sum =
      (adds.map fun x => if x.1.toList <:+: params then 0 else f x).sum := by
  induction adds with
  | nil => rfl
  | cons x adds ih =>
    by_cases found : x.1.toList <:+: params
    · have skip : missing (x :: adds) params = missing adds params :=
        List.filter_cons_of_neg (by simpa using found)
      rw [skip, ih, List.map_cons, List.sum_cons, if_pos found, Nat.zero_add]
    · have keep : missing (x :: adds) params = x :: missing adds params :=
        List.filter_cons_of_pos (by simpa using found)
      rw [keep, List.map_cons, List.sum_cons, ih, List.map_cons, List.sum_cons, if_neg found]

/-- Each parameter comes with one of the additions. -/
theorem occurrences_additions : ∀ x ∈ opusParams, ∀ y ∈ additions,
    occurrences x.1 y.2.toList = if y.1 = x.2 then 1 else 0 := by decide

/-- A parameter is added once where its text is not found. -/
theorem occurrences_tuneParams {x : String × String} (mem : x ∈ opusParams) (params : List Char) :
    occurrences x.1 (tuneParams params) =
      occurrences x.1 params + if x.2.toList <:+: params then 0 else 1 := by
  have each : (additions.map fun y =>
      if y.1.toList <:+: params then 0 else occurrences x.1 y.2.toList) =
        additions.map fun y =>
          if y.1 = x.2 then if x.2.toList <:+: params then 0 else 1 else 0 := by
    apply List.map_congr_left
    intro y hy
    rw [occurrences_additions x mem y hy]
    by_cases same : y.1 = x.2
    · rw [if_pos same, if_pos same, same]
    · rw [if_neg same, if_neg same, ite_self]
  have keys : ∀ x ∈ opusParams, x.2 ∈ additions.map Prod.fst := by decide
  have known := keys x mem
  rw [tuneParams_eq, occurrences_flatMap, sum_missing, each]
  congr 1
  simp only [additions, List.map_cons, List.map_nil, List.mem_cons, List.not_mem_nil, or_false]
    at known ⊢
  rcases known with same | same | same | same | same | same <;> simp [same]

/-- A parameter comes out once exactly if it went in settled. -/
theorem settled_iff (params : List Char) :
    Settled params ↔ ∀ x ∈ opusParams, occurrences x.1 (tuneParams params) = 1 := by
  refine forall₂_congr fun x mem => ?_
  rw [occurrences_tuneParams mem]
  split <;> omega

/-- Afterwards every text is found. -/
theorem missing_tuneParams (params : List Char) : missing additions (tuneParams params) = [] := by
  apply List.filter_eq_nil_iff.mpr
  intro x mem absent
  have unfound : ¬ x.1.toList <:+: tuneParams params := by simpa using absent
  rw [tuneParams_eq] at unfound
  by_cases found : x.1.toList <:+: params
  · exact unfound (found.trans (List.prefix_append _ _).isInfix)
  · have added : x ∈ missing additions params := List.mem_filter.mpr ⟨mem, by simpa using found⟩
    have own : ∀ y ∈ additions, y.1.toList <:+: y.2.toList := by decide
    obtain ⟨before, after, split⟩ := List.append_of_mem added
    apply unfound
    refine (own x mem).trans ⟨params ++ before.flatMap (fun x => ';' :: x.2.toList) ++ [';'],
      after.flatMap fun x => ';' :: x.2.toList, ?_⟩
    rw [split]
    simp

theorem tuneParams_tuneParams (params : List Char) :
    tuneParams (tuneParams params) = tuneParams params := by
  rw [tuneParams_eq (tuneParams params), missing_tuneParams]
  simp

/-! ## Lines -/

variable {opusPt : List Char} {lines : List (List Char)}

theorem isFmtp_iff {line : List Char} :
    isFmtp opusPt line = true ↔ ∃ params, line = fmtpLead opusPt ++ params := by
  rw [isFmtp, List.isPrefixOf_iff_prefix]
  exact ⟨fun ⟨params, whole⟩ => ⟨params, whole.symm⟩, fun ⟨params, whole⟩ => ⟨params, whole.symm⟩⟩

theorem tuneLine_fmtp (opusPt params : List Char) :
    tuneLine opusPt (fmtpLead opusPt ++ params) = fmtpLead opusPt ++ tuneParams params := by
  rw [tuneLine, if_pos (isFmtp_iff.mpr ⟨params, rfl⟩), List.drop_left]

theorem tuneLine_other {line : List Char} (other : isFmtp opusPt line = false) :
    tuneLine opusPt line = line := by
  rw [tuneLine, if_neg (by simp [other])]

theorem matchOpus_fmtp (opusPt params : List Char) :
    matchOpus (fmtpLead opusPt ++ params) = none := by
  have start : startsFold "a=rtpmap:" (fmtpLead opusPt ++ params) = false := rfl
  rw [matchOpus, if_neg (by simp [start])]

theorem matchOpus_tuneLine (opusPt line : List Char) :
    matchOpus (tuneLine opusPt line) = matchOpus line := by
  cases fmtp : isFmtp opusPt line with
  | false => rw [tuneLine_other fmtp]
  | true =>
    obtain ⟨params, rfl⟩ := isFmtp_iff.mp fmtp
    rw [tuneLine_fmtp, matchOpus_fmtp, matchOpus_fmtp]

theorem tuneLine_tuneLine (opusPt line : List Char) :
    tuneLine opusPt (tuneLine opusPt line) = tuneLine opusPt line := by
  cases fmtp : isFmtp opusPt line with
  | false => rw [tuneLine_other fmtp, tuneLine_other fmtp]
  | true =>
    obtain ⟨params, rfl⟩ := isFmtp_iff.mp fmtp
    rw [tuneLine_fmtp, tuneLine_fmtp, tuneParams_tuneParams]

theorem isFmtp_tuneLine (opusPt line : List Char) :
    isFmtp opusPt (tuneLine opusPt line) = isFmtp opusPt line := by
  cases fmtp : isFmtp opusPt line with
  | false => rw [tuneLine_other fmtp, fmtp]
  | true =>
    obtain ⟨params, rfl⟩ := isFmtp_iff.mp fmtp
    rw [tuneLine_fmtp]
    exact isFmtp_iff.mpr ⟨_, rfl⟩

theorem map_tuneLine (none : lines.any (isFmtp opusPt) = false) :
    lines.map (tuneLine opusPt) = lines := by
  refine (List.map_congr_left fun line mem => ?_).trans (List.map_id lines)
  exact tuneLine_other (by simpa using List.any_eq_false.mp none line mem)

/-- The line that is added. -/
def newFmtp (opusPt : List Char) : List Char := fmtpLead opusPt ++ enhancedParams.toList

set_option maxRecDepth 20000

theorem tuneParams_enhanced : tuneParams enhancedParams.toList = enhancedParams.toList := by
  rfl

theorem occurrences_enhanced : ∀ x ∈ opusParams, occurrences x.1 enhancedParams.toList = 1 := by
  decide

/-- A line is added behind the first one that starts as the `rtpmap`. -/
theorem insertFmtp_cases (opusPt : List Char) (lines : List (List Char)) :
    lines.find? (rtpmapLead opusPt).isPrefixOf = none ∧ insertFmtp opusPt lines = lines ∨
      ∃ before rtpmap after, lines = before ++ rtpmap :: after ∧
        lines.find? (rtpmapLead opusPt).isPrefixOf = some rtpmap ∧
        insertFmtp opusPt lines = before ++ rtpmap :: newFmtp opusPt :: after := by
  cases found : lines.find? (rtpmapLead opusPt).isPrefixOf with
  | none =>
    have absent : lines.findIdx? (rtpmapLead opusPt).isPrefixOf = none := by
      apply List.findIdx?_eq_none_iff.mpr
      intro line mem
      exact eq_false_of_ne_true (List.find?_eq_none.mp found line mem)
    rw [insertFmtp, absent]
    exact .inl ⟨rfl, rfl⟩
  | some rtpmap =>
    obtain ⟨starts, before, after, rfl, first⟩ := List.find?_eq_some_iff_append.mp found
    refine .inr ⟨before, rtpmap, after, rfl, rfl, ?_⟩
    have here : (before ++ rtpmap :: after).findIdx? (rtpmapLead opusPt).isPrefixOf =
        some before.length := by
      have skipped : before.findIdx? (rtpmapLead opusPt).isPrefixOf = none := by
        apply List.findIdx?_eq_none_iff.mpr
        intro line mem
        simpa using first line mem
      rw [List.findIdx?_append, skipped, List.findIdx?_cons, if_pos starts]
      simp
    rw [insertFmtp, here]
    clear here found first
    induction before with
    | nil => rfl
    | cons line before ih =>
      simp only [List.cons_append, List.length_cons, List.insertIdx_succ_cons] at ih ⊢
      rw [ih]

theorem digits_of_matchOpus {line : List Char} (h : matchOpus line = some opusPt) :
    ∀ c ∈ opusPt, c.isDigit = true := by
  unfold matchOpus at h
  split at h
  · dsimp only at h
    split at h <;> cases h
    intro c mem
    exact List.mem_takeWhile_imp mem
  · cases h

theorem unbroken_tuneLine {line : List Char} (h : Unbroken '\r' '\n' line) :
    Unbroken '\r' '\n' (tuneLine opusPt line) := by
  cases fmtp : isFmtp opusPt line with
  | false => rwa [tuneLine_other fmtp]
  | true =>
    obtain ⟨params, rfl⟩ := isFmtp_iff.mp fmtp
    rw [tuneLine_fmtp, tuneParams_eq, ← List.append_assoc]
    refine h.append fun mem => ?_
    obtain ⟨x, added, inside⟩ := List.mem_flatMap.mp mem
    have oneLine : ∀ x ∈ additions, '\n' ∉ ';' :: x.2.toList := by decide
    exact oneLine x (mem_of_missing added) inside

theorem unbroken_newFmtp {line : List Char} (h : matchOpus line = some opusPt) :
    Unbroken '\r' '\n' (newFmtp opusPt) := by
  have digits : '\n' ∉ opusPt := fun mem => absurd (digits_of_matchOpus h '\n' mem) (by decide)
  have first : '\n' ∉ "a=fmtp:".toList := by decide
  have last : '\n' ∉ enhancedParams.toList := by decide
  apply unbroken_of_notMem
  intro mem
  rcases List.mem_append.mp mem with start | params
  · rcases List.mem_append.mp start with start | blank
    · rcases List.mem_append.mp start with kind | number
      · exact first kind
      · exact digits number
    · exact absurd (List.mem_singleton.mp blank) (by decide)
  · exact last params

/-! ## Results -/

/-- What comes out when Opus is offered. -/
theorem optimizeAudioSdp_offered {sdp : String} (offered : findOpus (sdpLines sdp) = some opusPt) :
    optimizeAudioSdp sdp =
      String.ofList (joinPair '\r' '\n' (tuneLines opusPt (sdpLines sdp))) := by
  rw [optimizeAudioSdp, if_neg, offered]
  rintro rfl
  cases offered

theorem optimizeAudioSdp_none {sdp : String} (none : findOpus (sdpLines sdp) = none) :
    optimizeAudioSdp sdp = sdp := by
  rw [optimizeAudioSdp, none]
  split <;> rfl

theorem findOpus_map (opusPt : List Char) (lines : List (List Char)) :
    findOpus (lines.map (tuneLine opusPt)) = findOpus lines := by
  rw [findOpus, List.findSome?_map]
  congr 1
  funext line
  exact matchOpus_tuneLine opusPt line

theorem matchOpus_newFmtp : matchOpus (newFmtp opusPt) = none := matchOpus_fmtp opusPt _

theorem tuneLine_newFmtp : tuneLine opusPt (newFmtp opusPt) = newFmtp opusPt := by
  rw [newFmtp, tuneLine_fmtp, tuneParams_enhanced]

theorem isFmtp_newFmtp : isFmtp opusPt (newFmtp opusPt) = true := isFmtp_iff.mpr ⟨_, rfl⟩

/-- The lines that come out, by what goes in. -/
theorem tuneLines_cases (opusPt : List Char) (lines : List (List Char)) :
    (lines.any (isFmtp opusPt) = true ∧ tuneLines opusPt lines = lines.map (tuneLine opusPt)) ∨
    (lines.any (isFmtp opusPt) = false ∧ lines.find? (rtpmapLead opusPt).isPrefixOf = none ∧
      tuneLines opusPt lines = lines) ∨
    lines.any (isFmtp opusPt) = false ∧ ∃ before rtpmap after,
      lines = before ++ rtpmap :: after ∧
      lines.find? (rtpmapLead opusPt).isPrefixOf = some rtpmap ∧
      tuneLines opusPt lines = before ++ rtpmap :: newFmtp opusPt :: after := by
  unfold tuneLines
  cases fmtp : lines.any (isFmtp opusPt) with
  | true => exact .inl ⟨rfl, rfl⟩
  | false =>
    dsimp only
    rw [map_tuneLine fmtp]
    rcases insertFmtp_cases opusPt lines with ⟨absent, same⟩ | ⟨before, rtpmap, after, inserted⟩
    · exact .inr (.inl ⟨rfl, absent, same⟩)
    · exact .inr (.inr ⟨rfl, before, rtpmap, after, inserted⟩)

/-- The payload type is found again. -/
theorem findOpus_tuneLines (opusPt : List Char) (lines : List (List Char)) :
    findOpus (tuneLines opusPt lines) = findOpus lines := by
  rcases tuneLines_cases opusPt lines with ⟨-, result⟩ | ⟨-, -, result⟩ |
    ⟨-, before, rtpmap, after, rfl, -, result⟩
  · rw [result, findOpus_map]
  · rw [result]
  · rw [result]
    simp [findOpus, List.findSome?_append, List.findSome?_cons, matchOpus_newFmtp]

/-- A second time nothing is left to do. -/
theorem tuneLines_tuneLines (opusPt : List Char) (lines : List (List Char)) :
    tuneLines opusPt (tuneLines opusPt lines) = tuneLines opusPt lines := by
  rcases tuneLines_cases opusPt lines with ⟨fmtp, result⟩ | ⟨-, -, result⟩ |
    ⟨none, before, rtpmap, after, rfl, -, result⟩
  · have again : (lines.map (tuneLine opusPt)).any (isFmtp opusPt) = true := by
      rw [List.any_map, ← fmtp]
      congr 1
      funext line
      exact isFmtp_tuneLine opusPt line
    rw [result, tuneLines, again, List.map_map, if_pos rfl]
    exact List.map_congr_left fun line _ => tuneLine_tuneLine opusPt line
  · rw [result, result]
  · have again : (before ++ rtpmap :: newFmtp opusPt :: after).any (isFmtp opusPt) = true := by
      simp [isFmtp_newFmtp]
    have same := map_tuneLine none
    rw [List.map_append, List.map_cons] at same
    obtain ⟨left, right⟩ := List.append_inj' same (by simp)
    obtain ⟨here, rest⟩ := List.cons.inj right
    rw [result, tuneLines, again, if_pos rfl, List.map_append, List.map_cons, List.map_cons, left,
      here, rest, tuneLine_newFmtp]

theorem unbroken_tuneLines {line : List Char} (offered : findOpus lines = some opusPt)
    (h : ∀ line ∈ lines, Unbroken '\r' '\n' line) (mem : line ∈ tuneLines opusPt lines) :
    Unbroken '\r' '\n' line := by
  obtain ⟨rtpmap, -, found⟩ := List.exists_of_findSome?_eq_some offered
  rcases tuneLines_cases opusPt lines with ⟨-, result⟩ | ⟨-, -, result⟩ |
    ⟨-, before, first, after, rfl, -, result⟩
  · rw [result] at mem
    obtain ⟨old, hold, rfl⟩ := List.mem_map.mp mem
    exact unbroken_tuneLine (h old hold)
  · rw [result] at mem
    exact h line mem
  · rw [result] at mem
    rcases List.mem_append.mp mem with left | right
    · exact h line (List.mem_append_left _ left)
    · rcases List.mem_cons.mp right with rfl | right
      · exact h line (by simp)
      · rcases List.mem_cons.mp right with rfl | right
        · exact unbroken_newFmtp found
        · exact h line (by simp [right])

theorem tuneLines_ne_nil (some : lines ≠ []) : tuneLines opusPt lines ≠ [] := by
  rcases tuneLines_cases opusPt lines with ⟨-, result⟩ | ⟨-, -, result⟩ |
    ⟨-, before, first, after, -, -, result⟩ <;> rw [result] <;> simp [some]

/-- The lines of the result. -/
theorem sdpLines_optimizeAudioSdp {sdp : String}
    (offered : findOpus (sdpLines sdp) = some opusPt) :
    sdpLines (optimizeAudioSdp sdp) = tuneLines opusPt (sdpLines sdp) := by
  rw [optimizeAudioSdp_offered offered, sdpLines, String.toList_ofList]
  refine splitPair_joinPair (by decide) (tuneLines_ne_nil (splitPair_ne_nil _)) fun line mem => ?_
  exact unbroken_tuneLines offered (fun _ => unbroken_of_mem_splitPair) mem

theorem optimizeAudioSdp_idempotent (sdp : String) :
    optimizeAudioSdp (optimizeAudioSdp sdp) = optimizeAudioSdp sdp := by
  cases offered : findOpus (sdpLines sdp) with
  | none => rw [optimizeAudioSdp_none offered, optimizeAudioSdp_none offered]
  | some opusPt =>
    have lines := sdpLines_optimizeAudioSdp offered
    have again : findOpus (sdpLines (optimizeAudioSdp sdp)) = some opusPt := by
      rw [lines, findOpus_tuneLines, offered]
    rw [optimizeAudioSdp_offered again, lines, tuneLines_tuneLines, ← lines]
    apply String.toList_inj.mp
    rw [String.toList_ofList]
    exact joinPair_splitPair _

/-! ## Safety -/

/-- The second line stands where the first one did. -/
inductive Tuned (opusPt : List Char) : List Char → List Char → Prop where
  | same (line : List Char) : Tuned opusPt line line
  | fmtp (params params' : List Char) : (∀ item ∈ items params, item ∈ items params') →
      Tuned opusPt (fmtpLead opusPt ++ params) (fmtpLead opusPt ++ params')

/-- What the optimisation of a session description promises. -/
structure Optimized (sdp : String) : Prop where
  idempotent : optimizeAudioSdp (optimizeAudioSdp sdp) = optimizeAudioSdp sdp
  unoffered : findOpus (sdpLines sdp) = none → optimizeAudioSdp sdp = sdp
  /-- At most one line is added, behind the `rtpmap` of Opus, and the others stay, `fmtp` lines of
  Opus with their parameters. -/
  lines : ∀ opusPt, findOpus (sdpLines sdp) = some opusPt →
    ∃ tuned, List.Forall₂ (Tuned opusPt) (sdpLines sdp) tuned ∧
      (sdpLines (optimizeAudioSdp sdp) = tuned ∨ ∃ before rtpmap after added,
        tuned = before ++ rtpmap :: after ∧ matchOpus rtpmap = some opusPt ∧
        sdpLines (optimizeAudioSdp sdp) = before ++ rtpmap :: added :: after)
  carried : ∀ opusPt, findOpus (sdpLines (optimizeAudioSdp sdp)) = some opusPt →
    (∃ params, fmtpLead opusPt ++ params ∈ sdpLines (optimizeAudioSdp sdp)) ∧
    ∀ params, fmtpLead opusPt ++ params ∈ sdpLines (optimizeAudioSdp sdp) →
      ∀ x ∈ opusParams, occurrences x.1 params = 1

/-- The parameters that are there are settled. Where there are none, the first line that starts as
the `rtpmap` of the payload type is one of Opus. -/
def Tunable (sdp : String) : Prop :=
  ∀ opusPt, findOpus (sdpLines sdp) = some opusPt →
    (∀ params, fmtpLead opusPt ++ params ∈ sdpLines sdp → Settled params) ∧
    ((∀ params, fmtpLead opusPt ++ params ∉ sdpLines sdp) → ∃ rtpmap,
      (sdpLines sdp).find? (rtpmapLead opusPt).isPrefixOf = some rtpmap ∧
      matchOpus rtpmap = some opusPt)

theorem not_any_isFmtp :
    lines.any (isFmtp opusPt) = false ↔ ∀ params, fmtpLead opusPt ++ params ∉ lines := by
  rw [List.any_eq_false]
  constructor
  · intro none params mem
    exact none _ mem (isFmtp_iff.mpr ⟨params, rfl⟩)
  · intro none line mem fmtp
    obtain ⟨params, rfl⟩ := isFmtp_iff.mp fmtp
    exact none params mem

theorem tuned_tuneLine (opusPt line : List Char) : Tuned opusPt line (tuneLine opusPt line) := by
  cases fmtp : isFmtp opusPt line with
  | false =>
    rw [tuneLine_other fmtp]
    exact .same line
  | true =>
    obtain ⟨params, rfl⟩ := isFmtp_iff.mp fmtp
    rw [tuneLine_fmtp]
    exact .fmtp _ _ fun item => items_tuneParams

theorem eq_of_tuned {tuned : List (List Char)} (none : lines.any (isFmtp opusPt) = false)
    (h : List.Forall₂ (Tuned opusPt) lines tuned) : tuned = lines := by
  induction h with
  | nil => rfl
  | cons first rest ih =>
    rw [List.any_cons, Bool.or_eq_false_iff] at none
    rw [ih none.2]
    cases first with
    | same line => rfl
    | fmtp params params' kept =>
      rw [isFmtp_iff.mpr ⟨params, rfl⟩] at none
      cases none.1

/-- An `fmtp` line of the result is a tuned one, or the new one where there was none. -/
theorem params_of_mem_tuneLines {params : List Char}
    (mem : fmtpLead opusPt ++ params ∈ tuneLines opusPt lines) :
    (∃ old, fmtpLead opusPt ++ old ∈ lines ∧ params = tuneParams old) ∨
      params = enhancedParams.toList := by
  rcases tuneLines_cases opusPt lines with ⟨-, result⟩ | ⟨none, -, result⟩ |
    ⟨none, before, rtpmap, after, whole, -, result⟩
  · rw [result] at mem
    obtain ⟨line, hline, tuned⟩ := List.mem_map.mp mem
    have fmtp : isFmtp opusPt line = true := by
      rw [← isFmtp_tuneLine, tuned]
      exact isFmtp_iff.mpr ⟨params, rfl⟩
    obtain ⟨old, rfl⟩ := isFmtp_iff.mp fmtp
    rw [tuneLine_fmtp] at tuned
    exact .inl ⟨old, hline, (List.append_cancel_left tuned).symm⟩
  · rw [result] at mem
    exact absurd mem (not_any_isFmtp.mp none params)
  · have absent := not_any_isFmtp.mp none params
    rw [result] at mem
    rw [whole] at absent
    simp only [List.mem_append, List.mem_cons, not_or] at mem absent
    rcases mem with left | first | new | right
    · exact absurd left absent.1
    · exact absurd first absent.2.1
    · exact .inr (List.append_cancel_left new)
    · exact absurd right absent.2.2

/-- Lists that differ by one new element each put it behind the same one. -/
theorem eq_of_inserted {α : Type} {before after before' after' : List α} {x x' new added : α}
    (absent : new ∉ before ++ x :: after) (same : before' ++ x' :: after' = before ++ x :: after)
    (inserted : before ++ x :: new :: after = before' ++ x' :: added :: after') : x = x' := by
  have absent' := absent
  rw [← same] at absent'
  have own : new ∈ before' ++ x' :: added :: after' := by
    rw [← inserted]
    simp
  simp only [List.mem_append, List.mem_cons, not_or] at absent absent' own
  obtain rfl : new = added := by
    rcases own with left | first | here | right
    · exact absurd left absent'.1
    · exact absurd first absent'.2.1
    · exact here
    · exact absurd right absent'.2.2
  have front : (before ++ [x]) ++ new :: after = (before' ++ [x']) ++ new :: after' := by
    simpa using inserted
  have left : new ∉ before ++ [x] := by simp [absent.1, absent.2.1]
  obtain ⟨heads, -⟩ := (List.append_cons_inj_of_notMem left absent.2.2).mp front
  exact List.singleton_inj.mp (List.append_inj' heads rfl).2

theorem Tunable.optimized {sdp : String} (h : Tunable sdp) : Optimized sdp where
  idempotent := optimizeAudioSdp_idempotent sdp
  unoffered := optimizeAudioSdp_none
  lines opusPt offered := by
    have result := sdpLines_optimizeAudioSdp offered
    have refl : List.Forall₂ (Tuned opusPt) (sdpLines sdp) (sdpLines sdp) :=
      List.forall₂_same.mpr fun line _ => .same line
    rcases tuneLines_cases opusPt (sdpLines sdp) with ⟨-, lines⟩ | ⟨-, -, lines⟩ |
      ⟨none, before, rtpmap, after, whole, first, lines⟩
    · refine ⟨_, ?_, .inl (result.trans lines)⟩
      exact List.forall₂_map_right_iff.mpr
        (List.forall₂_same.mpr fun line _ => tuned_tuneLine opusPt line)
    · exact ⟨_, refl, .inl (result.trans lines)⟩
    · obtain ⟨rtpmap', first', opus⟩ := (h opusPt offered).2 (not_any_isFmtp.mp none)
      obtain rfl : rtpmap = rtpmap' := Option.some.inj (first.symm.trans first')
      exact ⟨_, refl, .inr ⟨before, rtpmap, after, _, whole, opus, result.trans lines⟩⟩
  carried opusPt again := by
    cases offered : findOpus (sdpLines sdp) with
    | none =>
      rw [optimizeAudioSdp_none offered, offered] at again
      cases again
    | some opusPt' =>
      have result := sdpLines_optimizeAudioSdp offered
      rw [result, findOpus_tuneLines, offered] at again
      cases again
      rw [result]
      constructor
      · rcases tuneLines_cases opusPt (sdpLines sdp) with ⟨fmtp, lines⟩ | ⟨none, absent, -⟩ |
          ⟨-, before, rtpmap, after, -, -, lines⟩
        · obtain ⟨line, mem, fmtp⟩ := List.any_eq_true.mp fmtp
          obtain ⟨params, rfl⟩ := isFmtp_iff.mp fmtp
          refine ⟨tuneParams params, ?_⟩
          rw [lines, ← tuneLine_fmtp]
          exact List.mem_map_of_mem mem
        · obtain ⟨rtpmap, first, -⟩ := (h opusPt offered).2 (not_any_isFmtp.mp none)
          rw [absent] at first
          cases first
        · refine ⟨enhancedParams.toList, ?_⟩
          rw [lines]
          simp [newFmtp]
      · intro params mem x hx
        rcases params_of_mem_tuneLines mem with ⟨old, there, rfl⟩ | rfl
        · exact (settled_iff old).mp ((h opusPt offered).1 old there) x hx
        · exact occurrences_enhanced x hx

theorem Optimized.tunable {sdp : String} (h : Optimized sdp) : Tunable sdp := by
  intro opusPt offered
  have result := sdpLines_optimizeAudioSdp offered
  have again : findOpus (sdpLines (optimizeAudioSdp sdp)) = some opusPt := by
    rw [result, findOpus_tuneLines, offered]
  obtain ⟨⟨params, carries⟩, carried⟩ := h.carried opusPt again
  rw [result] at carries carried
  rcases tuneLines_cases opusPt (sdpLines sdp) with ⟨fmtp, lines⟩ | ⟨none, -, lines⟩ |
    ⟨none, before, rtpmap, after, whole, first, lines⟩
  · constructor
    · intro params mem
      have tuned : fmtpLead opusPt ++ tuneParams params ∈ tuneLines opusPt (sdpLines sdp) := by
        rw [lines, ← tuneLine_fmtp]
        exact List.mem_map_of_mem mem
      exact (settled_iff params).mpr (carried _ tuned)
    · intro none
      rw [not_any_isFmtp.mpr none] at fmtp
      cases fmtp
  · rw [lines] at carries
    exact absurd carries (not_any_isFmtp.mp none params)
  · refine ⟨fun params mem => absurd mem (not_any_isFmtp.mp none params), fun _ => ?_⟩
    refine ⟨rtpmap, first, ?_⟩
    have absent : newFmtp opusPt ∉ before ++ rtpmap :: after := by
      rw [← whole]
      exact not_any_isFmtp.mp none _
    obtain ⟨tuned, kept, same | ⟨before', rtpmap', after', added, split, opus, inserted⟩⟩ :=
      h.lines opusPt offered
    · -- Nothing was added, but the result is longer.
      rw [result, lines, eq_of_tuned none kept, whole] at same
      have length := congrArg List.length same
      simp at length
    · rw [eq_of_tuned none kept, whole] at split
      rw [result, lines] at inserted
      rw [eq_of_inserted absent split.symm inserted]
      exact opus

/-- The optimisation is safe exactly for the descriptions whose Opus parameters are settled, or
which have none behind a plain `rtpmap` of Opus. -/
theorem optimized_iff (sdp : String) : Optimized sdp ↔ Tunable sdp :=
  ⟨Optimized.tunable, Tunable.optimized⟩

/-- An audio section as browsers offer it. -/
def browserOffer : String :=
  "m=audio 9 UDP/TLS/RTP/SAVPF 111\r\na=rtpmap:111 opus/48000/2\r\n" ++
    "a=fmtp:111 minptime=10;useinbandfec=1\r\n"

/-- `minptime` is there, so that `maxptime` is not added. -/
theorem maxptime_not_added :
    findOpus (sdpLines (optimizeAudioSdp browserOffer)) = some "111".toList ∧
      fmtpLead "111".toList ++ ("minptime=10;useinbandfec=1;usedtx=1;" ++
        "maxaveragebitrate=64000;stereo=0;sprop-stereo=0;cbr=1").toList ∈
          sdpLines (optimizeAudioSdp browserOffer) ∧ ¬ Optimized browserOffer := by
  have offered : findOpus (sdpLines browserOffer) = some "111".toList := by rfl
  have result := sdpLines_optimizeAudioSdp offered
  refine ⟨?_, ?_, fun h => ?_⟩
  · rw [result, findOpus_tuneLines, offered]
  · rw [result]
    decide
  · have params : fmtpLead "111".toList ++ "minptime=10;useinbandfec=1".toList ∈
        sdpLines browserOffer := by decide
    have settled := (h.tunable _ offered).1 _ params ("maxptime", "minptime=") (by decide)
    exact absurd settled (by decide)

end GenChat.Client
