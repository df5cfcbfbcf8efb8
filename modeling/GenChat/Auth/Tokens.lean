import GenChat.Auth.Service
import GenChat.Library.Base64Url
import GenChat.Library.JsonText

/-!
# Access tokens

`generateJWT` signs a token. The gateway reads it with `parseAndValidateJWT`, this service with
`VerifyJWT`; the two share all but the last check, where the gateway takes an expiry of zero or
less for none at all.
-/
namespace GenChat.Auth
open Library Ledger BrowserText

/-! ## Tokens -/

/-- HMAC-SHA256 of a message under a secret. -/
abbrev Hmac := String → Bytes → Bytes

inductive TokenError where
  | format (parts : Nat)
  | signatureEncoding
  | signature
  | payloadEncoding
  | payloadJson
  | expired
  deriving DecidableEq

/-- `time.Unix` of a clock in nanoseconds, which is an `int64`. -/
def unix (clock : Int) : Int := (clock / second).bmod (2 ^ 64)

/-- `json.Unmarshal` into the claims. -/
def readClaims (data : Bytes) : Option JWTPayload :=
  (Json.parse data).bind fun j =>
    if j.isStruct then
      (j.readString "sub").bind fun sub => (j.readString "device_id").bind fun deviceID =>
        (j.readInt64 "exp").map fun exp => ⟨sub, deviceID, exp⟩
    else none

/-- What both verifiers do before they look at the clock. -/
def signedClaims (hmac : Hmac) (secret tokenStr : String) : Except TokenError JWTPayload :=
  match (tokenStr.toList.splitOn '.').map String.ofList with
  | [header, payload, signature] =>
    match Base64Url.decodeString signature with
    | none => .error .signatureEncoding
    | some sigBytes =>
      if sigBytes ≠ hmac secret (textEncode (header ++ "." ++ payload)) then .error .signature
      else
        match Base64Url.decodeString payload with
        | none => .error .payloadEncoding
        | some payloadBytes =>
          match readClaims payloadBytes with
          | none => .error .payloadJson
          | some claims => .ok claims
  | parts => .error (.format parts.length)

def parseAndValidateJWT (hmac : Hmac) (clock : Int) (tokenStr secret : String) :
    Except TokenError JWTPayload :=
  (signedClaims hmac secret tokenStr).bind fun claims =>
    if 0 < claims.exp ∧ claims.exp < unix clock then .error .expired else .ok claims

structure AuthHandler where
  jwtSecret : String

def AuthHandler.verifyJWT (h : AuthHandler) (hmac : Hmac) (clock : Int) (tokenString : String) :
    Except TokenError JWTPayload :=
  (signedClaims hmac h.jwtSecret tokenString).bind fun payload =>
    if payload.exp < unix clock then .error .expired else .ok payload

def payloadStr (userID deviceID : String) (exp : Int) : String :=
  "\x7b\"sub\":\"" ++ userID ++ "\",\"device_id\":\"" ++ deviceID ++ "\",\"exp\":" ++
    toString exp ++ "\x7d"

def signToken (hmac : Hmac) (secret payloadStr : String) : String :=
  let header := Base64Url.encodeToString (textEncode "\x7b\"alg\":\"HS256\",\"typ\":\"JWT\"\x7d")
  let payload := Base64Url.encodeToString (textEncode payloadStr)
  let sigBase := header ++ "." ++ payload
  sigBase ++ "." ++ Base64Url.encodeToString (hmac secret (textEncode sigBase))

def generateJWT (hmac : Hmac) (clock : Int) (userID deviceID secret : String) (expiry : Int) :
    String :=
  signToken hmac secret (payloadStr userID deviceID (unix (clock + expiry)))

/-! ## The verifiers -/

theorem bind_check_eq_ok {ε α : Type} {r : Except ε α} {e : ε} {bad : α → Prop}
    [DecidablePred bad] {b : α} :
    (r.bind fun a => if bad a then .error e else .ok a) = .ok b ↔ r = .ok b ∧ ¬ bad b := by
  cases r with
  | error e => simp [Except.bind]
  | ok a =>
    simp only [Except.bind, Except.ok.injEq]
    split_ifs with refused
    · simp only [false_iff]
      rintro ⟨rfl, passed⟩
      exact passed refused
    · simp only [Except.ok.injEq]
      exact ⟨fun same => ⟨same, same ▸ refused⟩, And.left⟩

variable {hmac : Hmac} {clock : Int} {secret tokenStr : String} {claims : JWTPayload}

theorem parseAndValidateJWT_eq_ok : parseAndValidateJWT hmac clock tokenStr secret = .ok claims ↔
    signedClaims hmac secret tokenStr = .ok claims ∧
      (claims.exp ≤ 0 ∨ unix clock ≤ claims.exp) := by
  unfold parseAndValidateJWT
  rw [bind_check_eq_ok]
  apply and_congr_right
  intro
  omega

theorem verifyJWT_eq_ok : AuthHandler.verifyJWT ⟨secret⟩ hmac clock tokenStr = .ok claims ↔
    signedClaims hmac secret tokenStr = .ok claims ∧ unix clock ≤ claims.exp := by
  unfold AuthHandler.verifyJWT
  rw [bind_check_eq_ok]
  apply and_congr_right
  intro
  omega

/-- The tokens that the rest of this service is about. -/
def tokenOf (hmac : Hmac) (secret tokenStr : String) : Token :=
  match signedClaims hmac secret tokenStr with
  | .ok claims => ⟨claims, true⟩
  | .error _ => ⟨⟨"", "", 0⟩, false⟩

theorem unix_ofNat {now : Nat} (h : now < 2 ^ 63 * second) : unix now = (now / second : Nat) := by
  have small : now / second < 2 ^ 63 := Nat.div_lt_of_lt_mul (by rwa [Nat.mul_comm])
  unfold unix
  rw [← Int.natCast_ediv]
  generalize now / second = seconds at small ⊢
  rw [Int.bmod_eq_of_le] <;> omega

/-- On clocks that count from 1970 `VerifyJWT` is the check of the service's requests. -/
theorem verifyJWT_tokenOf {now : Nat} (h : now < 2 ^ 63 * second) :
    verifyJWT now (tokenOf hmac secret tokenStr) =
      (AuthHandler.verifyJWT ⟨secret⟩ hmac now tokenStr).toOption := by
  unfold verifyJWT tokenOf AuthHandler.verifyJWT
  rw [unix_ofNat h]
  cases signedClaims hmac secret tokenStr with
  | error e => rfl
  | ok claims =>
    simp only [Except.bind, true_and]
    split_ifs
    · omega
    · rfl
    · rfl
    · omega

/-! ## Tokens of this service -/

theorem unix_bounds (clock : Int) : -2 ^ 63 ≤ unix clock ∧ unix clock < 2 ^ 63 :=
  ⟨Int.le_bmod (by decide), Int.bmod_lt (by decide)⟩

theorem split_three {a b c : String} (ha : '.' ∉ a.toList) (hb : '.' ∉ b.toList)
    (hc : '.' ∉ c.toList) :
    ((a ++ "." ++ b ++ "." ++ c).toList.splitOn '.').map String.ofList = [a, b, c] := by
  have joined : (a ++ "." ++ b ++ "." ++ c).toList =
      ['.'].intercalate [a.toList, b.toList, c.toList] := by
    simp [List.intercalate, List.intersperse]
  rw [joined, List.splitOn_intercalate '.' (by simp [ha, hb, hc]) (by simp)]
  simp

/-- A signed token is well formed, up to the JSON text that it carries. -/
theorem signedClaims_signToken {payloadStr : String} :
    signedClaims hmac secret (signToken hmac secret payloadStr) =
      match readClaims (textEncode payloadStr) with
      | none => .error .payloadJson
      | some claims => .ok claims := by
  unfold signedClaims signToken
  simp only
  rw [split_three (Base64Url.dot_not_mem _) (Base64Url.dot_not_mem _) (Base64Url.dot_not_mem _)]
  simp only [Base64Url.decodeString_encodeToString]
  rw [if_neg (not_not.mpr rfl)]

def payloadMembers (userID deviceID : String) (exp : Int) : List (String × Json.Scalar) :=
  [("sub", .string userID), ("device_id", .string deviceID), ("exp", .number exp)]

theorem payloadStr_eq (userID deviceID : String) (exp : Int) : payloadStr userID deviceID exp =
    String.ofList (Json.printObject (payloadMembers userID deviceID exp)) := by
  apply String.toList_injective
  simp [payloadStr, Json.printObject, payloadMembers, Json.printMembers, Json.printMember,
    Json.printString, Json.Scalar.print, Json.printInt]

theorem sameKey_payload : ∀ key ∈ ["sub", "device_id", "exp"], ∀ name ∈ ["sub", "device_id", "exp"],
    Json.sameKey key name = decide (key = name) := by decide

/-- The JSON text of plain ids holds them and the expiry. -/
theorem readClaims_payloadStr {userID deviceID : String} {exp : Int} (user : Json.Plain userID)
    (device : Json.Plain deviceID) (range : -2 ^ 63 ≤ exp ∧ exp < 2 ^ 63) :
    readClaims (textEncode (payloadStr userID deviceID exp)) = some ⟨userID, deviceID, exp⟩ := by
  have plain : Json.PlainMembers (payloadMembers userID deviceID exp) := by
    intro m hm
    simp only [payloadMembers, List.mem_cons, List.not_mem_nil, or_false] at hm
    obtain rfl | rfl | rfl := hm
    · exact ⟨(by decide : Json.Plain "sub"), user⟩
    · exact ⟨(by decide : Json.Plain "device_id"), device⟩
    · exact ⟨(by decide : Json.Plain "exp"), trivial⟩
  rw [payloadStr_eq, readClaims, Json.parse_printObject (by simp [payloadMembers]) plain]
  simpa [payloadMembers, Json.isStruct, Json.readString, Json.readInt64, Json.readInt, Json.field,
    sameKey_payload, Json.Scalar.json] using range

theorem signedClaims_plain {issued expiry : Int} {userID deviceID : String}
    (user : Json.Plain userID) (device : Json.Plain deviceID) :
    signedClaims hmac secret (generateJWT hmac issued userID deviceID secret expiry) =
      .ok ⟨userID, deviceID, unix (issued + expiry)⟩ := by
  rw [generateJWT, signedClaims_signToken, readClaims_payloadStr user device (unix_bounds _)]

/-! ## Agreement -/

/-- The subject and the device that a verifier answers with. -/
def identity (r : Except TokenError JWTPayload) : Option (String × String) :=
  r.toOption.map fun claims => (claims.sub, claims.deviceID)

/-- The verifiers agree on a token, and both accept it if it was issued and has not expired. -/
structure VerifiersAgree (hmac : Hmac) (secret tokenStr : String) (clock : Int) : Prop where
  same : identity (parseAndValidateJWT hmac clock tokenStr secret) =
    identity (AuthHandler.verifyJWT ⟨secret⟩ hmac clock tokenStr)
  honoured : ∀ issued userID deviceID expiry,
    tokenStr = generateJWT hmac issued userID deviceID secret expiry →
    unix clock ≤ unix (issued + expiry) →
    (identity (parseAndValidateJWT hmac clock tokenStr secret)).isSome ∧
      (identity (AuthHandler.verifyJWT ⟨secret⟩ hmac clock tokenStr)).isSome

/-- Signed claims without a positive expiry, at a later time than theirs. -/
def Undated (hmac : Hmac) (secret tokenStr : String) (clock : Int) : Prop :=
  ∃ claims, signedClaims hmac secret tokenStr = .ok claims ∧ claims.exp ≤ 0 ∧
    claims.exp < unix clock

/-- If the token was issued and has not expired, then its JSON text can be read, and holds an
expiry that has not passed. -/
def Legible (hmac : Hmac) (secret tokenStr : String) (clock : Int) : Prop :=
  ∀ issued userID deviceID expiry,
    tokenStr = generateJWT hmac issued userID deviceID secret expiry →
    unix clock ≤ unix (issued + expiry) →
    ∃ claims, readClaims (textEncode (payloadStr userID deviceID (unix (issued + expiry)))) =
      some claims ∧ unix clock ≤ claims.exp

theorem identity_eq_none {r : Except TokenError JWTPayload} (h : ∀ claims, r ≠ .ok claims) :
    identity r = none := by
  cases r with
  | error e => rfl
  | ok claims => exact absurd rfl (h claims)

theorem identity_isSome {r : Except TokenError JWTPayload} :
    (identity r).isSome ↔ ∃ claims, r = .ok claims := by
  cases r with
  | error e => simp [identity, Except.toOption]
  | ok claims => simp [identity, Except.toOption]

theorem verifyJWT_subset (h : AuthHandler.verifyJWT ⟨secret⟩ hmac clock tokenStr = .ok claims) :
    parseAndValidateJWT hmac clock tokenStr secret = .ok claims := by
  obtain ⟨signed, timely⟩ := verifyJWT_eq_ok.mp h
  exact parseAndValidateJWT_eq_ok.mpr ⟨signed, .inr timely⟩

theorem same_iff : identity (parseAndValidateJWT hmac clock tokenStr secret) =
    identity (AuthHandler.verifyJWT ⟨secret⟩ hmac clock tokenStr) ↔
      ¬ Undated hmac secret tokenStr clock := by
  constructor
  · rintro same ⟨claims, signed, undated, late⟩
    have taken : parseAndValidateJWT hmac clock tokenStr secret = .ok claims :=
      parseAndValidateJWT_eq_ok.mpr ⟨signed, .inl undated⟩
    have refused : ∀ c, AuthHandler.verifyJWT ⟨secret⟩ hmac clock tokenStr ≠ .ok c := by
      intro c accepted
      obtain ⟨signed', timely⟩ := verifyJWT_eq_ok.mp accepted
      rw [signed] at signed'
      cases signed'
      omega
    rw [taken, identity_eq_none refused] at same
    cases same
  · intro dated
    cases accepted : AuthHandler.verifyJWT ⟨secret⟩ hmac clock tokenStr with
    | ok claims => rw [verifyJWT_subset accepted]
    | error e =>
      apply identity_eq_none
      intro claims taken
      obtain ⟨signed, exp | timely⟩ := parseAndValidateJWT_eq_ok.mp taken
      · by_cases late : claims.exp < unix clock
        · exact dated ⟨claims, signed, exp, late⟩
        · have accepted' := verifyJWT_eq_ok.mpr ⟨signed, not_lt.mp late⟩
          rw [accepted] at accepted'
          cases accepted'
      · have accepted' := verifyJWT_eq_ok.mpr ⟨signed, timely⟩
        rw [accepted] at accepted'
        cases accepted'

theorem accepted_generateJWT {issued expiry : Int} {userID deviceID : String} :
    AuthHandler.verifyJWT ⟨secret⟩ hmac clock
        (generateJWT hmac issued userID deviceID secret expiry) = .ok claims ↔
      readClaims (textEncode (payloadStr userID deviceID (unix (issued + expiry)))) = some claims ∧
        unix clock ≤ claims.exp := by
  rw [verifyJWT_eq_ok, generateJWT, signedClaims_signToken]
  cases readClaims (textEncode (payloadStr userID deviceID (unix (issued + expiry)))) with
  | none => simp
  | some c => simp

theorem verifiers_agree_iff (hmac : Hmac) (secret : String) :
    (∀ tokenStr clock, VerifiersAgree hmac secret tokenStr clock ↔
      ¬ Undated hmac secret tokenStr clock ∧ Legible hmac secret tokenStr clock) ∧
    ∀ issued userID deviceID expiry clock, Json.Plain userID → Json.Plain deviceID →
      unix clock ≤ unix (issued + expiry) →
      let tokenStr := generateJWT hmac issued userID deviceID secret expiry
      let claims : JWTPayload := ⟨userID, deviceID, unix (issued + expiry)⟩
      parseAndValidateJWT hmac clock tokenStr secret = .ok claims ∧
        AuthHandler.verifyJWT ⟨secret⟩ hmac clock tokenStr = .ok claims := by
  constructor
  · intro tokenStr clock
    constructor
    · intro agree
      refine ⟨same_iff.mp agree.same, ?_⟩
      rintro issued userID deviceID expiry rfl timely
      have accepted := (agree.honoured issued userID deviceID expiry rfl timely).2
      obtain ⟨claims, accepted⟩ := identity_isSome.mp accepted
      exact ⟨claims, accepted_generateJWT.mp accepted⟩
    · rintro ⟨dated, legible⟩
      refine ⟨same_iff.mpr dated, ?_⟩
      rintro issued userID deviceID expiry rfl timely
      obtain ⟨claims, read⟩ := legible issued userID deviceID expiry rfl timely
      have accepted : AuthHandler.verifyJWT ⟨secret⟩ hmac clock
          (generateJWT hmac issued userID deviceID secret expiry) = .ok claims :=
        accepted_generateJWT.mpr read
      exact ⟨identity_isSome.mpr ⟨claims, verifyJWT_subset accepted⟩,
        identity_isSome.mpr ⟨claims, accepted⟩⟩
  · intro issued userID deviceID expiry clock user device timely
    have signed : signedClaims hmac secret (generateJWT hmac issued userID deviceID secret expiry) =
        .ok ⟨userID, deviceID, unix (issued + expiry)⟩ := signedClaims_plain user device
    have accepted := verifyJWT_eq_ok.mpr ⟨signed, timely⟩
    exact ⟨verifyJWT_subset accepted, accepted⟩

namespace Sample

/-- HMAC-SHA256 at the token of the sample clock. -/
def datedHmac : Hmac := fun _ _ =>
  [132, 182, 238, 97, 170, 185, 219, 211, 249, 187, 29, 225, 198, 4, 239, 150, 218, 54, 171, 47,
    191, 44, 121, 235, 52, 92, 244, 150, 29, 219, 95, 47]

/-- HMAC-SHA256 at the token without an expiry. -/
def undatedHmac : Hmac := fun _ _ =>
  [74, 10, 20, 198, 8, 37, 128, 38, 50, 78, 88, 201, 140, 101, 114, 238, 123, 204, 62, 205, 57,
    10, 125, 123, 31, 229, 17, 117, 109, 44, 203, 205]

/-- A signed token of Alice's phone that does not say when it expires. -/
def undatedToken : String :=
  signToken undatedHmac "dev-jwt-secret"
    ("\x7b\"sub\":\"" ++ alice.text ++ "\",\"device_id\":\"" ++ alicePhone.text ++ "\"\x7d")

end Sample

/-- A token of a quarter of an hour in its last second. -/
theorem verifiers_agree_sample :
    let tokenStr := generateJWT Sample.datedHmac Sample.clock Sample.alice.text
      Sample.alicePhone.text "dev-jwt-secret" (900 * second)
    let claims : JWTPayload :=
      ⟨Sample.alice.text, Sample.alicePhone.text, unix (Sample.clock + 900 * second)⟩
    parseAndValidateJWT Sample.datedHmac 1714551300999999999 tokenStr "dev-jwt-secret" =
        .ok claims ∧
      AuthHandler.verifyJWT ⟨"dev-jwt-secret"⟩ Sample.datedHmac 1714551300999999999 tokenStr =
        .ok claims :=
  (verifiers_agree_iff Sample.datedHmac "dev-jwt-secret").2 Sample.clock Sample.alice.text
    Sample.alicePhone.text (900 * second) 1714551300999999999 (by rfl)
    (by rfl) (by rfl)

theorem signedClaims_undatedToken :
    signedClaims Sample.undatedHmac "dev-jwt-secret" Sample.undatedToken =
      .ok ⟨Sample.alice.text, Sample.alicePhone.text, 0⟩ := by
  have read : readClaims (textEncode ("\x7b\"sub\":\"" ++ Sample.alice.text ++
      "\",\"device_id\":\"" ++ Sample.alicePhone.text ++ "\"\x7d")) =
      some ⟨Sample.alice.text, Sample.alicePhone.text, 0⟩ := by rfl
  rw [Sample.undatedToken, signedClaims_signToken, read]

/-- The gateway accepts the undated token, which this service refuses. -/
theorem undated_token_accepted :
    (parseAndValidateJWT Sample.undatedHmac Sample.clock Sample.undatedToken "dev-jwt-secret" =
        .ok ⟨Sample.alice.text, Sample.alicePhone.text, 0⟩ ∧
      AuthHandler.verifyJWT ⟨"dev-jwt-secret"⟩ Sample.undatedHmac Sample.clock
        Sample.undatedToken = .error .expired) ∧
    ¬ VerifiersAgree Sample.undatedHmac "dev-jwt-secret" Sample.undatedToken Sample.clock := by
  have late : unix Sample.clock = 1714550400 := by rfl
  have taken : parseAndValidateJWT Sample.undatedHmac Sample.clock Sample.undatedToken
      "dev-jwt-secret" = .ok ⟨Sample.alice.text, Sample.alicePhone.text, 0⟩ :=
    parseAndValidateJWT_eq_ok.mpr ⟨signedClaims_undatedToken, .inl le_rfl⟩
  have refused : AuthHandler.verifyJWT ⟨"dev-jwt-secret"⟩ Sample.undatedHmac Sample.clock
      Sample.undatedToken = .error .expired := by
    rw [AuthHandler.verifyJWT, signedClaims_undatedToken, late]
    rfl
  refine ⟨⟨taken, refused⟩, fun agree => ?_⟩
  have same := agree.same
  rw [taken, refused] at same
  cases same

end GenChat.Auth
