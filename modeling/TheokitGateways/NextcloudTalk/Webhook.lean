import TheokitGateways.Js.Bytes
import TheokitGateways.Js.Convert
import TheokitGateways.Js.JsonLex

/-!
# Nextcloud Talk: a signed webhook

Talk signs the random value followed by the raw body, with nothing between them.
The signature check therefore accepts every other split of the same text. None
of them delivers a message: a longer body does not start as an object's text
does, and a shorter one is a proper suffix of an object's text.
-/

namespace TheokitGateways.NextcloudTalk
open Js

/-- The two headers Talk signs a webhook with. -/
structure TalkSignatureHeaders where
  random : Option JsString
  signature : Option JsString

/-- `NextcloudTalkMessageEvent`. The ids are what the body holds, whatever their type: the
source checks that they are there and copies them. -/
structure NextcloudTalkMessageEvent where
  id : Json
  senderId : Json
  displayName : Json
  channelId : Json
  text : JsString
  receivedAt : JsNumber
  replyToId : Option Json
  raw : Json

inductive TalkBodyOutcome where
  | event (event : NextcloudTalkMessageEvent)
  | ignored
  | unreadable (reason : JsString)

/-- The `message` of Talk's JSON `content`. `JSON.parse` converts what is no string. -/
def messageOf (content : Option Json) : Option JsString :=
  match content with
  | none => none
  | some content =>
    match content.toStr with
    | .error _ => none
    | .ok text =>
      match (jsonParse text).bind (·.get (js "message")) with
      | some (.string message) => some message
      | _ => none

/-- Reads a verified body; the error is that of a template over a value without a text. -/
def talkBodyToMessageEvent (body : Json) (receivedAt : JsNumber) :
    Except JsString TalkBodyOutcome :=
  let actor := body.get (js "actor")
  let object := body.get (js "object")
  let target := body.get (js "target")
  match body.get (js "type"), optGet actor (js "type") with
  | some (.string type), some (.string actorType) =>
    if type = js "Create" ∧ actorType = js "Person" then
      match optGet actor (js "id"), optGet object (js "id"), optGet target (js "id") with
      | some actorId, some objectId, some targetId =>
        match messageOf (optGet object (js "content")) with
        | none => do
          let id ← objectId.toStr
          return .unreadable (js "message " ++ id ++ js ": its content is not Talk's JSON")
        | some text =>
          return .event
            { id := objectId
              senderId := actorId
              displayName := Json.orElse (optGet actor (js "name")) actorId
              channelId := targetId
              text := text
              receivedAt := receivedAt
              replyToId := optGet (optGet (optGet object (js "inReplyTo")) (js "object")) (js "id")
              raw := body }
      | _, _, _ => return .unreadable (js "a Create without actor.id, object.id or target.id")
    else return .ignored
  | _, _ => return .ignored

def parseObject (rawBody : JsString) : Option Json :=
  (jsonParse rawBody).filter Json.isObject

def minSecret : Nat := 40
def maxSecret : Nat := 128

/-- The adapter as a webhook meets it. Its constructor refuses any other secret. -/
structure NextcloudTalkAdapter where
  secret : JsString
  secret_length : minSecret ≤ secret.length ∧ secret.length ≤ maxSecret
  /-- Whether an inbound handler is registered. -/
  handler : Bool

/-- `new NextcloudTalkAdapter(opts)`; the error is the message it throws. -/
def NextcloudTalkAdapter.create (secret : JsString) : Except JsString NextcloudTalkAdapter :=
  if h : minSecret ≤ secret.length ∧ secret.length ≤ maxSecret then .ok ⟨secret, h, false⟩
  else .error (js "gateway-nextcloud-talk: opts.secret must be 40 to 128 characters, as " ++
    js "occ talk:bot:install requires; got " ++ natText secret.length)

/-- The answer to a webhook: `error` is the member of that name in its body, `log` what it
writes to stderr, `delivered` the event its handler is called with. -/
structure TalkAnswer where
  status : Nat
  error : Option JsString := none
  log : Option JsString := none
  delivered : Option NextcloudTalkMessageEvent := none

section
-- The runtime's HMAC-SHA256 of bytes under a secret, and its `toLowerCase`.
variable (hmacSha256 : JsString → List UInt8 → List UInt8) (toLowerCase : JsString → JsString)

def talkSignature (secret random payload : JsString) : JsString :=
  hexText (hmacSha256 secret (utf8Encode (random ++ payload)))

def verifyTalkSignature (secret : JsString) (random : Option JsString) (rawBody : JsString)
    (signature : Option JsString) : Bool :=
  match random, signature with
  | some random, some signature =>
    if random = [] ∨ signature = [] then false
    else
      utf8Encode (talkSignature hmacSha256 secret random rawBody) =
        utf8Encode (toLowerCase signature)
  | _, _ => false

/-- `handleRequest`; the error is the message its promise rejects with. -/
def handleRequest (adapter : NextcloudTalkAdapter) (headers : TalkSignatureHeaders)
    (rawBody : JsString) (now : JsNumber) : Except JsString TalkAnswer := do
  if !verifyTalkSignature hmacSha256 toLowerCase adapter.secret headers.random rawBody
      headers.signature then
    return {
      status := 401
      error := some (js "invalid signature")
      log := some (js "[gateway-nextcloud-talk] refused a webhook (401): signature missing " ++
        js "or wrong\n") }
  match parseObject rawBody with
  | none => return { status := 400, error := some (js "the body is not a JSON object") }
  | some body =>
    match ← talkBodyToMessageEvent body now with
    | .unreadable reason =>
      return {
        status := 200
        log := some (js "[gateway-nextcloud-talk] dropped a webhook: " ++ reason ++ js "\n") }
    | .ignored => return { status := 200 }
    | .event event =>
      if adapter.handler then return { status := 200, delivered := some event }
      else return { status := 503, error := some (js "no handler") }

/-- The event a request hands to the handler. -/
def delivered (adapter : NextcloudTalkAdapter) (headers : TalkSignatureHeaders)
    (rawBody : JsString) (now : JsNumber) : Option NextcloudTalkMessageEvent :=
  match handleRequest hmacSha256 toLowerCase adapter headers rawBody now with
  | .ok answer => answer.delivered
  | .error _ => none

variable {hmacSha256 toLowerCase}

/-- The signature sees the random value and the body only joined. -/
theorem talkSignature_congr {secret random random' body body' : JsString}
    (h : random' ++ body' = random ++ body) :
    talkSignature hmacSha256 secret random' body' =
      talkSignature hmacSha256 secret random body := by
  simp [talkSignature, h]

theorem verifyTalkSignature_congr {secret random random' body body' signature : JsString}
    (h : random' ++ body' = random ++ body) (hne : random' ≠ [])
    (hv : verifyTalkSignature hmacSha256 toLowerCase secret (some random) body
      (some signature) = true) :
    verifyTalkSignature hmacSha256 toLowerCase secret (some random') body' (some signature) =
      true := by
  simp_all [verifyTalkSignature, talkSignature_congr h]

/-- Only an object's text is delivered. -/
theorem delivered_eq_none {rawBody : JsString} (h : parseObject rawBody = none)
    (adapter : NextcloudTalkAdapter) (headers : TalkSignatureHeaders) (now : JsNumber) :
    delivered hmacSha256 toLowerCase adapter headers rawBody now = none := by
  unfold delivered handleRequest
  cases verifyTalkSignature hmacSha256 toLowerCase adapter.secret headers.random rawBody
    headers.signature <;> simp [h] <;> rfl

end

theorem parseObject_eq_none {rawBody : JsString}
    (h : ∀ v, jsonParse rawBody = some v → v.isObject = false) : parseObject rawBody = none := by
  cases hv : jsonParse rawBody with
  | none => simp [parseObject, hv]
  | some v => simp [parseObject, hv, h v hv]

/-- Moving the end of the random value changes which text is parsed: it is no object's. -/
theorem parseObject_resplit {random body random' body' : JsString} {v : Json}
    (hrandom : ∀ c ∈ random, c ≠ JsonParser.openBrace ∧ JsonParser.isWs c = false)
    (hopen : body.head? = some JsonParser.openBrace) (hbody : jsonParse body = some v)
    (hobj : v.isObject = true) (hsplit : random' ++ body' = random ++ body)
    (hne : body' ≠ body) : parseObject body' = none := by
  refine parseObject_eq_none fun u hu => ?_
  obtain ⟨t, rfl, rfl⟩ | ⟨t, rfl, rfl⟩ := List.append_eq_append_iff.1 hsplit
  · -- the body took over the end of the random value
    cases t with
    | nil => simp at hne
    | cons c t =>
      have hc := hrandom c (by simp)
      refine Bool.eq_false_iff.2 fun hu' => ?_
      obtain hws | hbrace := JsonLex.head_of_jsonParse hu hu'
      · simp [hc.2] at hws
      · exact hc.1 hbrace
  · -- the random value took over the start of the body
    have ht : t ≠ [] := by
      rintro rfl
      simp at hne
    exact JsonLex.not_object_of_suffix ht hopen hbody hobj hu

/-- Every re-split of a signed request passes the signature check and delivers nothing. -/
theorem resplit_delivers_nothing (hmacSha256 : JsString → List UInt8 → List UInt8)
    (toLowerCase : JsString → JsString) (adapter : NextcloudTalkAdapter)
    (random body random' body' signature : JsString) (now : JsNumber)
    (hsigned : verifyTalkSignature hmacSha256 toLowerCase adapter.secret (some random) body
      (some signature) = true)
    (hrandom : ∀ c ∈ random, c ≠ JsonParser.openBrace ∧ JsonParser.isWs c = false)
    (hopen : body.head? = some JsonParser.openBrace)
    (hbody : (jsonParse body).any Json.isObject = true)
    (hsplit : random' ++ body' = random ++ body) (hne : body' ≠ body) :
    (random' ≠ [] → verifyTalkSignature hmacSha256 toLowerCase adapter.secret (some random')
        body' (some signature) = true) ∧
      delivered hmacSha256 toLowerCase adapter ⟨some random', some signature⟩ body' now =
        none := by
  obtain ⟨v, hv, hobj⟩ := (Option.any_eq_true _ _).1 hbody
  exact ⟨fun hr => verifyTalkSignature_congr hsplit hr hsigned,
    delivered_eq_none (parseObject_resplit hrandom hopen hv hobj hsplit hne) adapter _ now⟩

def leaveSecret : JsString := js "0123456789012345678901234567890123456789"

def leaveBody : JsString := js "\x7b\"type\":\"Leave\",\"note\":\"\x7b\x7d\"\x7d"

/-- The HMAC-SHA256 of `r1` and `leaveBody` under `leaveSecret`. -/
def leaveDigest : List UInt8 :=
  [0xc7, 0xa3, 0x4d, 0x67, 0x20, 0xbc, 0x33, 0x25, 0xfe, 0xa2, 0xf6, 0x49, 0xb0, 0x27, 0x3d, 0x18,
    0x35, 0x90, 0x7b, 0xd9, 0xe5, 0x52, 0xe1, 0xb6, 0x15, 0x52, 0x71, 0xb8, 0xa9, 0x4c, 0x59, 0xd0]

def leaveAdapter : NextcloudTalkAdapter := ⟨leaveSecret, by decide, true⟩

/-- The random value of a cut inside a string literal of `leaveBody`. -/
def cutRandom : JsString := js "r1\x7b\"type\":\"Leave\",\"note\":\""

/-- What follows the cut looks like an object. -/
def cutBody : JsString := js "\x7b\x7d\"\x7d"

theorem resplit_delivers_nothing_leave :
    (cutRandom ≠ [] →
      verifyTalkSignature (fun _ _ => leaveDigest) id leaveAdapter.secret (some cutRandom) cutBody
        (some (hexText leaveDigest)) = true) ∧
      delivered (fun _ _ => leaveDigest) id leaveAdapter
        ⟨some cutRandom, some (hexText leaveDigest)⟩ cutBody 0 = none :=
  resplit_delivers_nothing (fun _ _ => leaveDigest) id leaveAdapter (js "r1") leaveBody cutRandom
    cutBody (hexText leaveDigest) 0 (by decide +kernel) (forall_mem_of_all rfl) (by decide +kernel)
    (by decide +kernel) (by decide) (by decide)

end TheokitGateways.NextcloudTalk
