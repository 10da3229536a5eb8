import TheokitGateways.Js.Bytes
import TheokitGateways.Js.Convert

/-!
# Teams: the decisions made without the SDK

Reading the bearer token, the body and the segments of the token, and the checks
of its claims before and after the SDK is asked. The runtime's `toLowerCase` is a
variable.
-/

namespace TheokitGateways.Teams
open Js

inductive ClaimRefusal where
  | audienceMismatch | serviceurlMismatch | channelMismatch | tenantMismatch | tenantUnverified
  deriving DecidableEq

/-- What the verifier is configured with: its options' check refuses an empty `clientId`. -/
structure Expected where
  clientId : JsString
  clientId_ne_nil : clientId ≠ []
  tenantId : Option JsString
  loginEndpoint : JsString

def defaultLoginEndpoint : JsString := js "https://login.microsoftonline.com"

def teamsChannelId : JsString := js "msteams"

/-- The issuer prefix Entra v1 tokens carry. -/
def stsIssuerPrefix : JsString := js "https://sts.windows.net/"

def bearer : JsString := js "Bearer "

def readBearerToken (header : Option JsString) : Option JsString :=
  match header with
  | none => none
  | some header =>
    if header = js "Bearer" then none
    else
      let token := if bearer.isPrefixOf header then header.drop bearer.length else header
      if token = [] then none else some token

structure ReadableActivity where
  activity : Json
  serviceUrl : JsString

/-- A body is an activity when it is a JSON object with a non-empty string `serviceUrl`. -/
def parseActivityBody (text : JsString) : Option ReadableActivity := do
  let value ← (jsonParse text).filter Json.isObject
  let serviceUrl ← optString (value.get (js "serviceUrl"))
  if serviceUrl = [] then none else some ⟨value, serviceUrl⟩

/-- One base64url JSON object segment of a token of three. -/
def decodeSegment (rawToken : JsString) (index : Fin 3) : Option Json :=
  let segments := rawToken.splitOn (unit '.')
  if segments.length ≠ 3 then none
  else (jsonParse (utf8Decode (base64urlDecode (segments.getD index [])))).filter Json.isObject

def decodeVerifiedClaims (rawToken : JsString) : Option Json := decodeSegment rawToken 1

def readTokenKeyId (rawToken : JsString) : Option JsString :=
  (optString (optGet (decodeSegment rawToken 0) (js "kid"))).filter (· ≠ [])

def readTokenAlgorithm (rawToken : JsString) : Option JsString :=
  optString (optGet (decodeSegment rawToken 0) (js "alg"))

/-- The audiences the SDK accepts. -/
def acceptedAudiences (clientId : JsString) : List JsString :=
  [clientId, js "api://botid-" ++ clientId, js "api://" ++ clientId]

def audienceMatches (aud : Option Json) (clientId : JsString) : Bool :=
  (optString aud).any (· ∈ acceptedAudiences clientId)

/-- The clock tolerance the SDK allows on `exp` and `nbf`, in seconds. -/
def sdkClockTolerance : JsNumber := 300

/-- Whether a claim is there and is no number, or one that `late` holds of. -/
def refusesTime (claim : Option Json) (late : JsNumber → Bool) : Bool :=
  match claim with
  | none => false
  | some (.number n) => late n
  | some _ => true

/-- The audiences a token names: `aud` may be an array of them. -/
def audiences (claims : Json) : List (Option Json) :=
  match claims.get (js "aud") with
  | some (.array items) => items.map some
  | aud => [aud]

/-- Whether the SDK would refuse a token on its audience, expiry or not-before claim. -/
def sdkRefusesTokenClaims (rawToken clientId : JsString) (nowSeconds : JsNumber) : Bool :=
  match decodeSegment rawToken 1 with
  | none => false
  | some claims =>
    !(audiences claims).any (audienceMatches · clientId) ||
      refusesTime (claims.get (js "exp")) (fun exp => (exp + sdkClockTolerance).le nowSeconds) ||
      refusesTime (claims.get (js "nbf")) (fun nbf => (nowSeconds + sdkClockTolerance).lt nbf)

def isTenantIssued (iss : Option Json) (loginEndpoint : JsString) : Bool :=
  (optString iss).any fun iss =>
    (loginEndpoint ++ js "/").isPrefixOf iss || stsIssuerPrefix.isPrefixOf iss

def isTenantIssuedToken (rawToken loginEndpoint : JsString) : Bool :=
  isTenantIssued (optGet (decodeSegment rawToken 1) (js "iss")) loginEndpoint

/-- Whether a Bot Framework key may sign an activity on a channel. What is no string names
no channel to endorse. -/
def keyEndorsesChannel (endorsements : Option (List JsString)) (channelId : Option Json) : Bool :=
  match optString channelId with
  | none => true
  | some channel => endorsements.any (channel ∈ ·)

section
variable (toLowerCase : JsString → JsString)

/-- The URL in lower case, without a slash at its end. -/
def normalizeServiceUrl (url : JsString) : JsString :=
  toLowerCase (if url.getLast? = some (unit '/') then url.dropLast else url)

def serviceUrlMatches (claim : Option Json) (expected : JsString) : Bool :=
  (optString claim).any fun url =>
    normalizeServiceUrl toLowerCase url = normalizeServiceUrl toLowerCase expected

def checkTenant (claims : Json) (expected : Expected) : Option ClaimRefusal :=
  match expected.tenantId with
  | none =>
    if isTenantIssued (claims.get (js "iss")) expected.loginEndpoint then some .tenantUnverified
    else none
  | some tenantId =>
    match optString (claims.get (js "tid")) with
    | none => some .tenantUnverified
    | some tid =>
      if toLowerCase tid = toLowerCase tenantId then none else some .tenantMismatch

/-- The tenant refusal a tenant-issued token would get after the SDK accepted it. -/
def tenantRefusalBeforeVerification (rawToken : JsString) (expected : Expected) :
    Option ClaimRefusal :=
  match decodeSegment rawToken 1 with
  | none => none
  | some claims =>
    if !isTenantIssued (claims.get (js "iss")) expected.loginEndpoint then none
    else checkTenant toLowerCase claims expected

/-- The first refusal of the claims of an accepted token and of its activity. -/
def checkVerifiedClaims (claims : Json) (expected : Expected) (serviceUrl : JsString)
    (channelId : Option Json) : Option ClaimRefusal :=
  if !audienceMatches (claims.get (js "aud")) expected.clientId then some .audienceMismatch
  else if !serviceUrlMatches toLowerCase (claims.get (js "serviceurl")) serviceUrl then
    some .serviceurlMismatch
  else if optString channelId ≠ some teamsChannelId then some .channelMismatch
  else checkTenant toLowerCase claims expected

/-- What the claims of an accepted token say of the configuration and the activity. -/
structure ClaimsMatch (claims : Json) (expected : Expected) (serviceUrl : JsString)
    (channelId : Option Json) : Prop where
  audience : ∃ aud ∈ acceptedAudiences expected.clientId,
    claims.get (js "aud") = some (.string aud)
  serviceUrl : ∃ url, claims.get (js "serviceurl") = some (.string url) ∧
    normalizeServiceUrl toLowerCase url = normalizeServiceUrl toLowerCase serviceUrl
  channel : channelId = some (.string teamsChannelId)
  /-- With a tenant configured, the token names it. -/
  tenant : ∀ tenantId, expected.tenantId = some tenantId →
    ∃ tid, claims.get (js "tid") = some (.string tid) ∧ toLowerCase tid = toLowerCase tenantId
  /-- With none configured, no tenant issued the token. -/
  untenanted : expected.tenantId = none →
    isTenantIssued (claims.get (js "iss")) expected.loginEndpoint = false

variable {toLowerCase}

theorem checkTenant_eq_none_iff {claims : Json} {expected : Expected} :
    checkTenant toLowerCase claims expected = none ↔
      (∀ tenantId, expected.tenantId = some tenantId → ∃ tid,
        claims.get (js "tid") = some (.string tid) ∧ toLowerCase tid = toLowerCase tenantId) ∧
      (expected.tenantId = none →
        isTenantIssued (claims.get (js "iss")) expected.loginEndpoint = false) := by
  rw [checkTenant]
  cases expected.tenantId with
  | none => simp
  | some tenantId =>
    cases htid : optString (claims.get (js "tid")) with
    | none =>
      simp only [reduceCtorEq, Option.some.injEq, forall_eq', false_implies, and_true,
        false_iff, not_exists, not_and]
      intro tid hget
      rw [hget] at htid
      cases htid
    | some tid =>
      have hget := optString_eq_some.1 htid
      simp [hget]

theorem optString_any {v : Option Json} {p : JsString → Bool} :
    (optString v).any p = true ↔ ∃ s, v = some (.string s) ∧ p s = true := by
  simp [Option.any_eq_true, optString_eq_some]

/-- The claims pass when they match. -/
theorem checkVerifiedClaims_eq_none_iff {claims : Json} {expected : Expected}
    {serviceUrl : JsString} {channelId : Option Json} :
    checkVerifiedClaims toLowerCase claims expected serviceUrl channelId = none ↔
      ClaimsMatch toLowerCase claims expected serviceUrl channelId := by
  constructor
  · intro h
    simp only [checkVerifiedClaims] at h
    split at h
    · cases h
    split at h
    · cases h
    split at h
    · cases h
    rename_i haudience hurl hchannel
    have haudience' : audienceMatches (claims.get (js "aud")) expected.clientId = true := by
      simpa using haudience
    have hurl' : serviceUrlMatches toLowerCase (claims.get (js "serviceurl")) serviceUrl = true :=
      by simpa using hurl
    obtain ⟨aud, haud, hmem⟩ := optString_any.1 haudience'
    obtain ⟨url, hget, hsame⟩ := optString_any.1 hurl'
    obtain ⟨htenant, huntenanted⟩ := checkTenant_eq_none_iff.1 h
    exact ⟨⟨aud, by simpa using hmem, haud⟩, ⟨url, hget, by simpa using hsame⟩,
      optString_eq_some.1 (Classical.not_not.1 hchannel), htenant, huntenanted⟩
  · rintro ⟨⟨aud, hmem, haud⟩, ⟨url, hget, hsame⟩, hchannel, htenant, huntenanted⟩
    have haudience : audienceMatches (claims.get (js "aud")) expected.clientId = true :=
      optString_any.2 ⟨aud, haud, by simpa using hmem⟩
    have hurl : serviceUrlMatches toLowerCase (claims.get (js "serviceurl")) serviceUrl = true :=
      optString_any.2 ⟨url, hget, by simpa using hsame⟩
    simp [checkVerifiedClaims, haudience, hurl, optString_eq_some.2 hchannel,
      checkTenant_eq_none_iff.2 ⟨htenant, huntenanted⟩]

/-- The tenant check made before the SDK is asked refuses no token whose claims pass. -/
theorem tenantRefusal_sound {rawToken : JsString} {expected : Expected} {r : ClaimRefusal}
    (h : tenantRefusalBeforeVerification toLowerCase rawToken expected = some r) :
    ∃ claims, decodeVerifiedClaims rawToken = some claims ∧ ∀ serviceUrl channelId,
      checkVerifiedClaims toLowerCase claims expected serviceUrl channelId ≠ none := by
  simp only [tenantRefusalBeforeVerification] at h
  split at h
  · cases h
  rename_i claims hclaims
  split at h
  · cases h
  refine ⟨claims, hclaims, fun serviceUrl channelId hpass => ?_⟩
  obtain ⟨_, _, _, htenant, huntenanted⟩ := checkVerifiedClaims_eq_none_iff.1 hpass
  rw [checkTenant_eq_none_iff.2 ⟨htenant, huntenanted⟩] at h
  cases h

end

end TheokitGateways.Teams
