import TheokitGateways.Js.Any
import TheokitGateways.Teams.VerifiedClaims

/-!
# Teams: the verdict on one activity

`verifyActivity` reads a request, checks its token against the key sets it reads
itself, asks the SDK, and checks the claims. What the key sets and the SDK's
`check()` answer are given. An accepted activity is genuine whatever they
answer; a verdict is missing only when `check()` throws a value that throws on
being inspected (`verifiesActivity_iff`).
-/

namespace TheokitGateways.Teams
open Js

inductive RefusalReason where
  | missingAuthorization | malformedBody | bodyAlreadyRead | validatorUnavailable | invalidToken
  | keySetUnavailable | claims (refusal : ClaimRefusal)
  deriving DecidableEq

/-- The default message of each reason. -/
def messages : RefusalReason → JsString
  | .missingAuthorization =>
    js "no Authorization header: the request carries no Bot Framework token"
  | .malformedBody =>
    js "the request body is over 1 MiB or is not a readable JSON activity with a non-empty " ++
    js "string serviceUrl"
  | .bodyAlreadyRead =>
    js "the request body was already read or is locked by another reader, so the verifier could " ++
    js "not read the activity: this is the route's fault, not the sender's; pass the verifier an " ++
    js "unread request, for example request.clone()"
  | .validatorUnavailable => js "the Teams SDK token validator could not be loaded"
  | .invalidToken =>
    js "the Teams SDK did not accept the token (bad signature, unknown key, wrong audience or " ++
    js "issuer, expired, or a serviceurl it compared and found different)"
  | .keySetUnavailable =>
    js "the published signing keys could not be read, so the token's signature could not be " ++
    js "checked; a retry may succeed"
  | .claims .audienceMismatch => js "the token's aud claim is not this bot's app id"
  | .claims .serviceurlMismatch =>
    js "the token's serviceurl claim is absent or differs from the activity's serviceUrl"
  | .claims .channelMismatch =>
    js "the activity's channelId is absent or is not msteams: the token is the bot's, but the " ++
    js "activity did not come from Teams"
  | .claims .tenantMismatch =>
    js "the token's tid claim names a tenant other than the configured one"
  | .claims .tenantUnverified =>
    js "the token's tenant cannot be confirmed: no tid with a tenant configured, or a " ++
    js "tenant-issued token with none configured"

structure Refusal where
  reason : RefusalReason
  message : JsString
  deriving DecidableEq

def refuse (reason : RefusalReason) : Refusal := ⟨reason, messages reason⟩

def noKeyId : JsString :=
  js "the token is not a JWT whose header names its signing key (a non-empty string kid), so the " ++
  js "Teams SDK was not asked"

def notRs256 : JsString :=
  js "the token's header does not name RS256, the one algorithm the Teams SDK accepts, so the " ++
  js "Teams SDK was not asked"

def keyNotPublished : JsString :=
  js "the token names a signing key the published key set, as last read, does not list, so the " ++
  js "Teams SDK was not asked"

def keyNotEndorsed : JsString :=
  js "the token's Bot Framework signing key is not endorsed for the activity's channel, so the " ++
  js "Teams SDK was not asked"

def badSignature : JsString :=
  js "the token's RS256 signature does not verify against the published key it names, so the " ++
  js "Teams SDK was not asked"

def noEntraPath : JsString :=
  js "the token is tenant-issued and the loaded Teams SDK validator (2.0.x " ++
  js "ServiceTokenValidator) has no path that accepts one, so the Teams SDK was not asked"

def sdkWouldRefuse : JsString :=
  js "the token's audience is not this app's, or it is expired or not yet valid beyond the SDK's " ++
  js "300-second tolerance, so the Teams SDK was not asked"

def sdkKeysUnreadable : JsString :=
  js "the Teams SDK could not read the published signing keys to check the token, so it could " ++
  js "not judge it; a retry may succeed"

/-- What the read of a request's body came to. -/
inductive BodyRead where
  | alreadyRead
  | text (text : JsString)
  | overLimit
  | failed

structure Request where
  authorization : Option JsString
  body : BodyRead

/-- A published signing key and the channels it is endorsed for. -/
structure PublishedKey (Key : Type) where
  publicKey : Key
  endorsements : Option (List JsString)

inductive KeyLookup (Key : Type) where
  | listed (key : PublishedKey Key)
  | unlisted
  | unavailable (message : JsString)

inductive KeySetName where
  | botFramework | tenant
  deriving DecidableEq

/-- A call of `check()`: what it came to, and the first two arguments of each `error` it
logged. -/
structure CheckRun where
  outcome : Except JsAny JsAny
  logged : List (JsAny × JsAny)

/-- The loaded validator. Only 2.1.x's accepts a token a tenant issued. -/
structure Validator where
  check : (header : JsString) → (activity : Json) → CheckRun
  acceptsTenantIssued : Bool

/-- What loading the SDK came to: the validator, or why there is none. -/
abbrev Loaded := Except JsString Validator

structure ResolvedToken where
  appId : JsString
  serviceUrl : JsString

/-- The SDK's verdict: the token it resolved, a refusal of the token, or no verdict. -/
inductive SdkVerdict where
  | resolved (token : ResolvedToken)
  | refused
  | failed (refusal : Refusal)

inductive TeamsActivityVerifyResult where
  | accepted (activity : Json) (token : ResolvedToken)
  | refused (refusal : Refusal)

structure ReadRequest where
  header : JsString
  rawToken : JsString
  body : ReadableActivity

def readBody (body : BodyRead) : Except Refusal ReadableActivity :=
  match body with
  | .alreadyRead => .error (refuse .bodyAlreadyRead)
  | .overLimit | .failed => .error (refuse .malformedBody)
  | .text text =>
    match parseActivityBody text with
    | none => .error (refuse .malformedBody)
    | some activity => .ok activity

def readRequest (request : Request) : Except Refusal ReadRequest :=
  match request.authorization, readBearerToken request.authorization with
  | some header, some rawToken => do
    let body ← readBody request.body
    return ⟨header, rawToken, body⟩
  | _, _ => .error (refuse .missingAuthorization)

/-! ## The SDK's answer -/

/-- Whether the logger noted that the SDK could not read the signing key. -/
def notesKeyReadFailure (text cause : JsAny) : Bool :=
  match text.asString with
  | none => false
  | some text =>
    (js "Failed to get signing key").isPrefixOf text &&
      match cause.readOptional (js "name") with
      | .ok name => name.asString ≠ some (js "SigningKeyNotFoundError")
      | .error _ => false

def isIdentifier (s : JsString) : Bool :=
  let letter (c : UInt16) : Bool :=
    (unit 'A' ≤ c && c ≤ unit 'Z') || (unit 'a' ≤ c && c ≤ unit 'z')
  s.head?.any letter && s.length ≤ 64 &&
    s.all fun c => letter c || (unit '0' ≤ c && c ≤ unit '9') || c = unit '_'

/-- The class and the code of a caught failure. -/
def errorKind (error : JsAny) : Except JsAny JsString :=
  if error.typeOf ≠ js "object" then .ok (js "a thrown " ++ error.typeOf)
  else
    match error with
    | .null => .ok (js "a thrown object")
    | error => do
      let name ← error.read (js "name")
      let code ← error.read (js "code")
      let kind := (name.asString.filter (isIdentifier ·)).getD (js "an unnamed error")
      return match code.asString.filter (isIdentifier ·) with
        | some code => kind ++ js " " ++ code
        | none => kind

/-- Whether a throw is the SDK refusing the token, with a plain `Error`. -/
def isTokenRefusal (error : JsAny) : Except JsAny Bool := do
  if ← error.instanceOfError then
    return (← error.read (js "constructor")).isErrorConstructor
  else return false

/-- The token fields of what `check()` answered, `none` when they are no strings. -/
def resolvedToken (result : JsAny) : Except JsAny (Option ResolvedToken) := do
  let appId ← result.readOptional (js "appId")
  let serviceUrl ← result.readOptional (js "serviceUrl")
  return do return ⟨← appId.asString, ← serviceUrl.asString⟩

/-- What a failure of `check()` is taken for; the error escapes the handler that caught it. -/
def judgeFailure (error : JsAny) : Except JsAny SdkVerdict := do
  if ← isTokenRefusal error then return .refused
  else
    let kind ← errorKind error
    return .failed ⟨.validatorUnavailable,
      js "the Teams SDK token validator failed instead of judging the token (" ++ kind ++ js ")"⟩

def sdkVerdict (outcome : Except JsAny JsAny) : Except JsAny SdkVerdict :=
  match outcome >>= resolvedToken with
  | .ok (some token) => .ok (.resolved token)
  | .ok none => .ok .refused
  | .error error => judgeFailure error

def sdkCheck (run : CheckRun) : Except JsAny SdkVerdict := do
  match ← sdkVerdict run.outcome with
  | .refused =>
    if run.logged.any fun e => notesKeyReadFailure e.1 e.2 then
      return .failed ⟨.keySetUnavailable, sdkKeysUnreadable⟩
    else return .refused
  | verdict => return verdict

/-! ## Admission -/

/-- The key set a token is checked against, chosen by its unverified `iss`. -/
def keySetFor (rawToken : JsString) (expected : Expected) (acceptsTenantIssued : Bool) :
    Except Refusal KeySetName :=
  if !isTenantIssuedToken rawToken expected.loginEndpoint then .ok .botFramework
  else if expected.tenantId = none then .error (refuse (.claims .tenantUnverified))
  else if acceptsTenantIssued then .ok .tenant
  else .error ⟨.invalidToken, noEntraPath⟩

section
variable {Key : Type}
-- `verify("RSA-SHA256", data, key, signature)`, `none` when it throws; what a key set answers
-- for a `kid`; and the runtime's `toLowerCase`.
variable (verify : List UInt8 → Key → List UInt8 → Option Bool)
variable (lookup : KeySetName → JsString → KeyLookup Key)
variable (toLowerCase : JsString → JsString)

def verifiesRs256 (rawToken : JsString) (publicKey : Key) : Bool :=
  match rawToken.splitOn (unit '.') with
  | header :: payload :: signature :: _ =>
    (verify (utf8Encode (header ++ [unit '.'] ++ payload)) publicKey
      (base64urlDecode signature)).getD false
  | _ => false

/-- The checks on the key a lookup returned; `none` when the token passes them. -/
def refuseListedKey (rawToken : JsString) (listed : KeyLookup Key) (isBotFrameworkKey : Bool)
    (channelId : Option Json) : Option Refusal :=
  match listed with
  | .unlisted => some ⟨.invalidToken, keyNotPublished⟩
  | .unavailable message => some ⟨.keySetUnavailable, message⟩
  | .listed key =>
    if isBotFrameworkKey && !keyEndorsesChannel key.endorsements channelId then
      some ⟨.invalidToken, keyNotEndorsed⟩
    else if !verifiesRs256 verify rawToken key.publicKey then some ⟨.invalidToken, badSignature⟩
    else none

/-- The refusal that needs no SDK work; `none` when the SDK may be asked about the token. -/
def admitToSdk (rawToken : JsString) (expected : Expected) (channelId : Option Json)
    (acceptsTenantIssued : Bool) (nowSeconds : JsNumber) : Option Refusal :=
  match readTokenKeyId rawToken with
  | none => some ⟨.invalidToken, noKeyId⟩
  | some kid =>
    match tenantRefusalBeforeVerification toLowerCase rawToken expected with
    | some refusal => some (refuse (.claims refusal))
    | none =>
      match keySetFor rawToken expected acceptsTenantIssued with
      | .error refusal => some refusal
      | .ok set =>
        if readTokenAlgorithm rawToken ≠ some (js "RS256") then some ⟨.invalidToken, notRs256⟩
        else
          match refuseListedKey verify rawToken (lookup set kid) (set = .botFramework)
            channelId with
          | some refusal => some refusal
          | none =>
            if sdkRefusesTokenClaims rawToken expected.clientId nowSeconds then
              some ⟨.invalidToken, sdkWouldRefuse⟩
            else none

/-! ## The verdict -/

/-- The verdict on a token the SDK resolved. -/
def judgeVerifiedToken (token : ResolvedToken) (rawToken : JsString) (body : ReadableActivity)
    (expected : Expected) : TeamsActivityVerifyResult :=
  match decodeVerifiedClaims rawToken with
  | none => .refused (refuse .invalidToken)
  | some claims =>
    match checkVerifiedClaims toLowerCase claims expected body.serviceUrl
      (body.activity.get (js "channelId")) with
    | some refusal => .refused (refuse (.claims refusal))
    | none => .accepted body.activity token

def judgeSdkVerdict (verdict : SdkVerdict) (rawToken : JsString) (body : ReadableActivity)
    (expected : Expected) : TeamsActivityVerifyResult :=
  match verdict with
  | .failed refusal => .refused refusal
  | .refused => .refused (refuse .invalidToken)
  | .resolved token => judgeVerifiedToken toLowerCase token rawToken body expected

/-- Why the SDK is not asked about a request, or the request and the validator it is asked by. -/
def reachSdk (expected : Expected) (loaded : Loaded) (nowSeconds : JsNumber) (request : Request) :
    Except Refusal (ReadRequest × Validator) := do
  let read ← readRequest request
  match loaded with
  | .error unavailable => .error ⟨.validatorUnavailable, unavailable⟩
  | .ok validator =>
    match admitToSdk verify lookup toLowerCase read.rawToken expected
      (read.body.activity.get (js "channelId")) validator.acceptsTenantIssued nowSeconds with
    | some refusal => .error refusal
    | none => .ok (read, validator)

/-- The verifier's answer to a request; the error is what its promise rejects with. -/
def verifyActivity (expected : Expected) (loaded : Loaded) (nowSeconds : JsNumber)
    (request : Request) : Except JsAny TeamsActivityVerifyResult :=
  match reachSdk verify lookup toLowerCase expected loaded nowSeconds request with
  | .error refusal => .ok (.refused refusal)
  | .ok (read, validator) => do
    let verdict ← sdkCheck (validator.check read.header read.body.activity)
    return judgeSdkVerdict toLowerCase verdict read.rawToken read.body expected

end

end TheokitGateways.Teams
