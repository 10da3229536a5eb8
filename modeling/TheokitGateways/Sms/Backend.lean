import TheokitGateways.Js.Header
import TheokitGateways.Js.OrderedMap
import TheokitGateways.Js.Uri

/-!
# SMS: the three providers' webhooks

Each backend checks a request's signature through its provider's library and
parses the body itself. The libraries, and the one that reads phone numbers, are
fields of `Libraries`; `none` is a call that throws.
-/

namespace TheokitGateways.Sms
open Js

/-- What the peer dependencies export. A module may lack the function asked for. -/
structure Libraries where
  /-- `twilio.validateRequest(authToken, signature, url, params)`. -/
  validateRequest : (authToken signature url : JsString) → OrderedMap JsString JsString →
    Option Bool
  /-- `plivo.validateV3Signature(method, uri, nonce, authToken, signature)`. -/
  validateV3Signature : Option ((method uri nonce authToken signature : JsString) → Option Bool)
  /-- `vonage.Auth.verifySignature(token, secret)`. -/
  verifySignature : Option ((token secret : JsString) → Option Bool)
  /-- `parsePhoneNumberFromString(input, country)` with the E.164 form of a valid number; the
  error is the message it throws. -/
  parsePhoneNumber : Json → Option JsString → Except JsString (Option JsString)

inductive BackendKind where
  | twilio | plivo | vonage
  deriving DecidableEq

def BackendKind.name : BackendKind → JsString
  | .twilio => js "twilio"
  | .plivo => js "plivo"
  | .vonage => js "vonage"

/-- A backend of an adapter, whose constructor refuses an empty signing secret. -/
structure SMSBackend where
  kind : BackendKind
  /-- Whether `connect()` has loaded the provider's library. -/
  loaded : Bool
  /-- The auth token, or Vonage's signature secret. -/
  secret : JsString
  secret_ne_nil : secret ≠ []
  defaultCountry : Option JsString

structure SignatureContext where
  /-- Lower-cased names and their values. -/
  headers : List (JsString × JsString)
  rawBody : JsString
  url : JsString

/-- Ids and text are what the provider posted, whatever their type. -/
structure SMSInbound where
  sender : JsString
  recipient : JsString
  body : Json
  messageId : Json
  receivedAt : JsNumber
  raw : Json

structure ConfigurationError where
  code : JsString
  message : JsString
  detail : Json

inductive Thrown where
  | configuration (e : ConfigurationError)
  | other (message : JsString)

/-- Whether `v.length === 0`. -/
def lengthIsZero : Json → Bool
  | .string s => s = []
  | .array items => items.isEmpty
  | .object members =>
    match members.lookup (js "length") with
    | some (.number n) => n = .finite 0
    | _ => false
  | _ => false

def normalizeE164 (lib : Libraries) (input : Json) (defaultCountry : Option JsString) :
    Except Thrown JsString :=
  if lengthIsZero input then
    .error (.configuration
      ⟨js "invalid_phone_number", js "gateway-sms: phone number is empty",
        .string (js "<empty>")⟩)
  else
    match lib.parsePhoneNumber input defaultCountry with
    | .error message => .error (.other message)
    | .ok (some e164) => .ok e164
    | .ok none =>
      .error (.configuration
        ⟨js "invalid_phone_number", js "gateway-sms: invalid phone number " ++ input.stringify,
          input⟩)

/-- `params[key] = value` on a plain object: a string under `__proto__` is ignored. -/
def assign (params : OrderedMap JsString JsString) (key value : JsString) :
    OrderedMap JsString JsString :=
  if key = js "__proto__" then params else params.set key value

/-- A form field with `+` for a space; the error is a `URIError`. -/
def decodeField (s : JsString) : Except Thrown JsString :=
  match decodeURIComponent (replaceUnit (unit '+') (unit ' ') s) with
  | some t => .ok t
  | none => .error (.other (js "URI malformed"))

/-- The key and the value of `key=value`. -/
def splitPair (pair : JsString) : JsString × JsString :=
  (pair.takeWhile (· ≠ unit '='), (pair.dropWhile (· ≠ unit '=')).drop 1)

def parseFormUrlEncoded (body : JsString) : Except Thrown (OrderedMap JsString JsString) :=
  (body.splitOn (unit '&')).foldlM
    (fun params pair =>
      if pair = [] then .ok params
      else do
        let key ← decodeField (splitPair pair).1
        let value ← decodeField (splitPair pair).2
        return assign params key value)
    .empty

/-- The form as the object the source keeps it in. -/
def formObject (params : OrderedMap JsString JsString) : Json :=
  .object (params.entries.map fun e => (e.1, .string e.2))

/-- `params.key`. -/
def readField (params : Json) (key : JsString) : Except Thrown (Option Json) :=
  match params with
  | .null => .error (.other (js "Cannot read properties of null (reading '" ++ key ++ js "')"))
  | params => .ok (params.get key)

/-- `params.first ?? params.second ?? ""`. -/
def readEither (params : Json) (first second : JsString) : Except Thrown Json := do
  let v ← readField params first
  let w ← readField params second
  return Json.orElse v (Json.orElse w (.string []))

/-- The fields of an inbound message, under the names a provider gives them. -/
def inboundOf (lib : Libraries) (b : SMSBackend) (params : Json)
    (sender recipient body messageId : JsString × JsString) (now : JsNumber) :
    Except Thrown SMSInbound := do
  let sender ← normalizeE164 lib (← readEither params sender.1 sender.2) b.defaultCountry
  let recipient ← normalizeE164 lib (← readEither params recipient.1 recipient.2) b.defaultCountry
  let body ← readEither params body.1 body.2
  let messageId ← readEither params messageId.1 messageId.2
  return ⟨sender, recipient, body, messageId, now, params⟩

namespace TwilioBackend

def verifySignature (lib : Libraries) (b : SMSBackend) (ctx : SignatureContext) :
    Except Thrown Bool :=
  if !b.loaded then .ok false
  else
    match ctx.headers.lookup (js "x-twilio-signature") with
    | none => .ok false
    | some signature => do
      let params ← parseFormUrlEncoded ctx.rawBody
      return (lib.validateRequest b.secret signature ctx.url params).getD false

def parseInbound (lib : Libraries) (b : SMSBackend) (ctx : SignatureContext) (now : JsNumber) :
    Except Thrown SMSInbound := do
  let params ← parseFormUrlEncoded ctx.rawBody
  inboundOf lib b (formObject params) (js "From", js "From") (js "To", js "To")
    (js "Body", js "Body") (js "MessageSid", js "SmsMessageSid") now

end TwilioBackend

namespace PlivoBackend

def verifySignature (lib : Libraries) (b : SMSBackend) (ctx : SignatureContext) :
    Except Thrown Bool :=
  .ok <|
    match b.loaded, lib.validateV3Signature, ctx.headers.lookup (js "x-plivo-signature-v3"),
      ctx.headers.lookup (js "x-plivo-signature-v3-nonce") with
    | true, some validate, some signature, some nonce =>
      (validate (js "POST") ctx.url nonce b.secret signature).getD false
    | _, _, _, _ => false

/-- Plivo posts JSON or a form. A body that is no JSON reads as an empty object. -/
def readParams (ctx : SignatureContext) : Except Thrown Json :=
  if includes (js "application/json") ((ctx.headers.lookup (js "content-type")).getD []) then
    .ok ((jsonParse ctx.rawBody).getD (.object []))
  else (parseFormUrlEncoded ctx.rawBody).map formObject

def parseInbound (lib : Libraries) (b : SMSBackend) (ctx : SignatureContext) (now : JsNumber) :
    Except Thrown SMSInbound := do
  let params ← readParams ctx
  inboundOf lib b params (js "From", js "From") (js "To", js "To") (js "Text", js "text")
    (js "MessageUUID", js "message_uuid") now

end PlivoBackend

namespace VonageBackend

def verifySignature (lib : Libraries) (b : SMSBackend) (ctx : SignatureContext) :
    Except Thrown Bool :=
  .ok <|
    match (ctx.headers.lookup (js "authorization")).bind bearerRest, b.loaded,
      lib.verifySignature with
    | some token, true, some verify => (verify token b.secret).getD false
    | _, _, _ => false

def parseInbound (lib : Libraries) (b : SMSBackend) (ctx : SignatureContext) (now : JsNumber) :
    Except Thrown SMSInbound :=
  inboundOf lib b ((jsonParse ctx.rawBody).getD (.object [])) (js "msisdn", js "from")
    (js "to", js "to") (js "text", js "text") (js "messageId", js "message-id") now

end VonageBackend

namespace SMSBackend

def verifySignature (lib : Libraries) (b : SMSBackend) (ctx : SignatureContext) :
    Except Thrown Bool :=
  match b.kind with
  | .twilio => TwilioBackend.verifySignature lib b ctx
  | .plivo => PlivoBackend.verifySignature lib b ctx
  | .vonage => VonageBackend.verifySignature lib b ctx

def parseInbound (lib : Libraries) (b : SMSBackend) (ctx : SignatureContext) (now : JsNumber) :
    Except Thrown SMSInbound :=
  match b.kind with
  | .twilio => TwilioBackend.parseInbound lib b ctx now
  | .plivo => PlivoBackend.parseInbound lib b ctx now
  | .vonage => VonageBackend.parseInbound lib b ctx now

end SMSBackend

end TheokitGateways.Sms
