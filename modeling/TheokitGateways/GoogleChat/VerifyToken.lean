import TheokitGateways.Js.Bytes
import TheokitGateways.Js.Header

/-!
# Google Chat: the check of a request's token

A request carries an RS256 token signed by a key of Google's published set, for
this app and from Chat. What the key set answers and the RSA primitive are
variables. `Authentic` says what an accepted header is, and
`verifyChatRequest_eq_accepted_iff` that the check accepts exactly those.
-/

namespace TheokitGateways.GoogleChat
open Js

/-- What the key set answers for a `kid`. -/
inductive KeyLookup (Key : Type) where
  | listed (key : Key)
  | unlisted
  /-- A `KeySetUnavailableError`, with its message. -/
  | unavailable (message : JsString)

inductive TokenVerdict where
  | accepted
  | refused (status : Nat) (reason : JsString)
  deriving DecidableEq

/-- A token split into its parts, with the header and payload decoded. -/
structure DecodedJwt where
  header : Json
  payload : Json
  signedPart : JsString
  signature : List UInt8

/-- The JSON object of a part of a token. -/
def decodePart (part : JsString) : Option Json :=
  (jsonParse (utf8Decode (base64urlDecode part))).filter Json.isObject

def decodeJwt (token : JsString) : Option DecodedJwt :=
  match token.splitOn (unit '.') with
  | [header, payload, signature] => do
    let decodedHeader ← decodePart header
    let decodedPayload ← decodePart payload
    return ⟨decodedHeader, decodedPayload, header ++ [unit '.'] ++ payload,
      base64urlDecode signature⟩
  | _ => none

def issuers : List JsString := [js "https://accounts.google.com", js "accounts.google.com"]

/-- The account Chat signs its requests as. -/
def chatServiceAccount : JsString := js "chat@system.gserviceaccount.com"

/-- Clock skew allowed past a token's `exp`, in milliseconds. -/
def expirySkewMs : JsNumber := 60000

def refuse (reason : String) : TokenVerdict := .refused 401 (js reason)

def isTrue (v : Option Json) : Bool :=
  match v with
  | some (.bool b) => b
  | _ => false

/-- Whether a claim `exp` lies in the past, the skew included; what is no number does. -/
def expired (exp : Option Json) (now : JsNumber) : Bool :=
  match exp with
  | some (.number n) => (n * 1000 + expirySkewMs).le now
  | _ => true

/-- The first claim that disqualifies the token. -/
def claimsFault (claims : Json) (audience : JsString) (now : JsNumber) : Option TokenVerdict :=
  if (optString (claims.get (js "iss"))).all (· ∉ issuers) then some (refuse "wrong issuer")
  else if optString (claims.get (js "aud")) ≠ some audience then some (refuse "wrong audience")
  else if optString (claims.get (js "email")) ≠ some chatServiceAccount then
    some (refuse "not sent by Google Chat")
  else if !isTrue (claims.get (js "email_verified")) then
    some (refuse "the sender's email is not verified")
  else if expired (claims.get (js "exp")) now then some (refuse "the token has expired")
  else none

section
variable {Key : Type}
-- `verify("RSA-SHA256", data, key, signature)`, `none` when it throws, and `keySet.forKid`.
variable (verify : List UInt8 → Key → List UInt8 → Option Bool) (forKid : JsString → KeyLookup Key)

def verifiesRs256 (jwt : DecodedJwt) (key : Key) : Bool :=
  if optString (jwt.header.get (js "alg")) ≠ some (js "RS256") then false
  else (verify (utf8Encode jwt.signedPart) key jwt.signature).getD false

def verifyChatRequest (authorization : Option JsString) (audience : JsString) (now : JsNumber) :
    TokenVerdict :=
  match bearerWord (authorization.getD []) with
  | none => refuse "no bearer token"
  | some token =>
    match decodeJwt token with
    | none => refuse "the token is not a JWT"
    | some jwt =>
      match optString (jwt.header.get (js "kid")) with
      | none => refuse "the token names no key"
      | some kid =>
        match forKid kid with
        | .unavailable message => .refused 503 message
        | .unlisted => refuse "the token's key is not in Google's published set"
        | .listed key =>
          if !verifiesRs256 verify jwt key then refuse "the signature does not verify"
          else (claimsFault jwt.payload audience now).getD .accepted

/-- What the claims of a token must say. -/
structure ClaimsHold (claims : Json) (audience : JsString) (now : JsNumber) : Prop where
  issuer : ∃ iss ∈ issuers, claims.get (js "iss") = some (.string iss)
  audience : claims.get (js "aud") = some (.string audience)
  email : claims.get (js "email") = some (.string chatServiceAccount)
  verified : claims.get (js "email_verified") = some (.bool true)
  unexpired : ∃ exp, claims.get (js "exp") = some (.number exp) ∧
    (exp * 1000 + expirySkewMs).le now = false

/-- A header with a token of three parts, signed under the key its set holds for its `kid`,
whose claims hold. -/
structure Authentic (authorization : Option JsString) (audience : JsString) (now : JsNumber) :
    Prop where
  token : ∃ token header payload signature decodedHeader claims kid key,
    bearerWord (authorization.getD []) = some token ∧
    token.splitOn (unit '.') = [header, payload, signature] ∧
    decodePart header = some decodedHeader ∧ decodePart payload = some claims ∧
    decodedHeader.get (js "alg") = some (.string (js "RS256")) ∧
    decodedHeader.get (js "kid") = some (.string kid) ∧ forKid kid = .listed key ∧
    verify (utf8Encode (header ++ [unit '.'] ++ payload)) key (base64urlDecode signature) =
      some true ∧
    ClaimsHold claims audience now

theorem isTrue_iff {v : Option Json} : isTrue v = true ↔ v = some (.bool true) := by
  rcases v with _ | ⟨_ | b | _ | _ | _ | _⟩ <;> simp [isTrue]

theorem expired_eq_false_iff {exp : Option Json} {now : JsNumber} :
    expired exp now = false ↔
      ∃ n, exp = some (.number n) ∧ (n * 1000 + expirySkewMs).le now = false := by
  rcases exp with _ | ⟨_ | _ | n | _ | _ | _⟩ <;> simp [expired]

theorem claimsFault_eq_none_iff {claims : Json} {audience : JsString} {now : JsNumber} :
    claimsFault claims audience now = none ↔ ClaimsHold claims audience now := by
  constructor
  · intro h
    simp only [claimsFault] at h
    split at h
    · cases h
    split at h
    · cases h
    split at h
    · cases h
    split at h
    · cases h
    split at h
    · cases h
    rename_i hissuer haudience hemail hverified hexpired
    refine ⟨?_, ?_, ?_, ?_, ?_⟩
    · simp only [Option.all_eq_true, Classical.not_forall] at hissuer
      obtain ⟨iss, hiss, hmem⟩ := hissuer
      exact ⟨iss, by simpa using hmem, optString_eq_some.1 hiss⟩
    · exact optString_eq_some.1 (Classical.not_not.1 haudience)
    · exact optString_eq_some.1 (Classical.not_not.1 hemail)
    · exact isTrue_iff.1 (by simpa using hverified)
    · exact expired_eq_false_iff.1 (by simpa using hexpired)
  · rintro ⟨⟨iss, hmem, hiss⟩, haudience, hemail, hverified, hexp⟩
    have hexpired := expired_eq_false_iff.2 hexp
    simp [claimsFault, optString_eq_some.2 hiss, optString_eq_some.2 haudience,
      optString_eq_some.2 hemail, isTrue_iff.2 hverified, hexpired, hmem]

theorem claimsFault_refuses {claims : Json} {audience : JsString} {now : JsNumber}
    {v : TokenVerdict} (h : claimsFault claims audience now = some v) :
    ∃ reason, v = refuse reason := by
  simp only [claimsFault] at h
  repeat' split at h
  all_goals cases h
  all_goals exact ⟨_, rfl⟩

theorem getD_claimsFault_iff {claims : Json} {audience : JsString} {now : JsNumber} :
    (claimsFault claims audience now).getD .accepted = .accepted ↔
      ClaimsHold claims audience now := by
  rw [← claimsFault_eq_none_iff]
  cases h : claimsFault claims audience now with
  | none => simp
  | some v =>
    obtain ⟨reason, rfl⟩ := claimsFault_refuses h
    simp [refuse]

variable {verify forKid}

theorem verifiesRs256_iff {jwt : DecodedJwt} {key : Key} :
    verifiesRs256 verify jwt key = true ↔
      jwt.header.get (js "alg") = some (.string (js "RS256")) ∧
        verify (utf8Encode jwt.signedPart) key jwt.signature = some true := by
  rw [verifiesRs256, ← optString_eq_some]
  by_cases halg : optString (jwt.header.get (js "alg")) = some (js "RS256")
  · cases verify (utf8Encode jwt.signedPart) key jwt.signature <;> simp [halg]
  · simp [halg]

theorem decodeJwt_eq_some_iff {token : JsString} {jwt : DecodedJwt} :
    decodeJwt token = some jwt ↔ ∃ header payload signature,
      token.splitOn (unit '.') = [header, payload, signature] ∧
      decodePart header = some jwt.header ∧ decodePart payload = some jwt.payload ∧
      jwt.signedPart = header ++ [unit '.'] ++ payload ∧
      jwt.signature = base64urlDecode signature := by
  constructor
  · intro h
    simp only [decodeJwt] at h
    split at h
    · rename_i header payload signature hsplit
      simp only [Option.bind_eq_bind, Option.bind_eq_some_iff, Option.pure_def,
        Option.some.injEq] at h
      obtain ⟨decodedHeader, hheader, claims, hpayload, rfl⟩ := h
      exact ⟨header, payload, signature, hsplit, hheader, hpayload, rfl, rfl⟩
    · cases h
  · rintro ⟨header, payload, signature, hsplit, hheader, hpayload, hsigned, hsignature⟩
    simp [decodeJwt, hsplit, hheader, hpayload, ← hsigned, ← hsignature]

/-- The check accepts the authentic headers. -/
theorem verifyChatRequest_eq_accepted_iff {authorization : Option JsString}
    {audience : JsString} {now : JsNumber} :
    verifyChatRequest verify forKid authorization audience now = .accepted ↔
      Authentic verify forKid authorization audience now := by
  constructor
  · intro h
    simp only [verifyChatRequest] at h
    split at h
    · cases h
    rename_i token htoken
    split at h
    · cases h
    rename_i jwt hjwt
    split at h
    · cases h
    rename_i kid hkid
    split at h
    · cases h
    · cases h
    rename_i key hkey
    split at h
    · cases h
    rename_i hverifies
    obtain ⟨header, payload, signature, hsplit, hheader, hpayload, hsigned, hsignature⟩ :=
      decodeJwt_eq_some_iff.1 hjwt
    obtain ⟨halg, hverify⟩ := verifiesRs256_iff.1 (by simpa using hverifies)
    rw [hsigned, hsignature] at hverify
    exact ⟨token, header, payload, signature, jwt.header, jwt.payload, kid, key, htoken, hsplit,
      hheader, hpayload, halg, optString_eq_some.1 hkid, hkey, hverify, getD_claimsFault_iff.1 h⟩
  · rintro ⟨token, header, payload, signature, decodedHeader, claims, kid, key, htoken, hsplit,
      hheader, hpayload, halg, hkid, hkey, hverify, hclaims⟩
    let jwt : DecodedJwt := ⟨decodedHeader, claims, header ++ [unit '.'] ++ payload,
      base64urlDecode signature⟩
    have hjwt : decodeJwt token = some jwt :=
      decodeJwt_eq_some_iff.2 ⟨header, payload, signature, hsplit, hheader, hpayload, rfl, rfl⟩
    have hverifies : verifiesRs256 verify jwt key = true := verifiesRs256_iff.2 ⟨halg, hverify⟩
    have hkid' : optString (jwt.header.get (js "kid")) = some kid := optString_eq_some.2 hkid
    have hclaims' : (claimsFault jwt.payload audience now).getD .accepted = .accepted :=
      getD_claimsFault_iff.2 hclaims
    simp [verifyChatRequest, htoken, hjwt, hkid', hkey, hverifies, hclaims']

end

end TheokitGateways.GoogleChat
