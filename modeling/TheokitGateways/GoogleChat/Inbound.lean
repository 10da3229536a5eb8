import TheokitGateways.GoogleChat.VerifyToken
import TheokitGateways.Gateway.MessageEvent
import TheokitGateways.Js.Members

/-!
# Google Chat: one inbound request

A request is answered after its token is verified and its body read as an
event. The body is JSON from the network, and the source reads its fields
unchecked, so an event's fields are JSON values here. Only the text can fail to
be read: `argumentText` is trimmed whatever it is. `handlesRequest_iff` says
that this is the one way in which a request goes unanswered.
-/

namespace TheokitGateways.GoogleChat
open Js Gateway

/-- The block of fields only Google Chat has. -/
structure ChatFields where
  messageName : Json
  spaceName : Json
  spaceType : Option Json
  threadName : Option Json
  raw : Json

structure GoogleChatMessageEvent where
  id : Json
  platform : JsString := js "google_chat"
  senderId : Json
  displayName : Option Json
  channelId : Json
  channelType : ChannelType
  text : Json
  receivedAt : JsNumber
  googleChat : ChatFields

/-- `v?.trim() ?? ""`; the error is a `TypeError`. -/
def trimmed (v : Option Json) : Except JsString JsString :=
  match v with
  | none | some .null => .ok []
  | some (.string s) => .ok (trim s)
  | some _ => .error (js "message?.argumentText?.trim is not a function")

/-- `argumentText` trimmed when it holds anything, else `text`, else empty. -/
def textOf (message : Option Json) : Except JsString Json := do
  let argument ← trimmed (optGet message (js "argumentText"))
  return if argument = [] then Json.orElse (optGet message (js "text")) (.string [])
    else .string argument

/-- A DM by the deprecated `type` or by the current `spaceType`. -/
def isDirectMessage (space : Option Json) : Bool :=
  optString (optGet space (js "type")) = some (js "DM") ||
    optString (optGet space (js "spaceType")) = some (js "DIRECT_MESSAGE")

def chatFields (body messageName spaceName : Json) : ChatFields where
  messageName := messageName
  spaceName := spaceName
  spaceType := optGet (body.get (js "space")) (js "spaceType")
  threadName := optGet (optGet (body.get (js "message")) (js "thread")) (js "name")
  raw := body

/-- The event of a message whose names are all there, unless its text is empty. -/
def namedEvent (body : Json) (text : Json) (receivedAt : JsNumber) :
    Option GoogleChatMessageEvent := do
  let messageName ← optGet (body.get (js "message")) (js "name")
  let spaceName ← optGet (body.get (js "space")) (js "name")
  let senderId ← optGet (body.get (js "user")) (js "name")
  if text.asString = some [] then none
  else
    return {
      id := messageName
      senderId := senderId
      displayName := (optGet (body.get (js "user")) (js "displayName")).filter Json.truthy
      channelId := spaceName
      channelType := if isDirectMessage (body.get (js "space")) then .dm else .group
      text := text
      receivedAt := receivedAt
      googleChat := chatFields body messageName spaceName }

/-- The error is what reading the text throws: it is read before the names are checked. -/
def chatEventToMessageEvent (body : Json) (receivedAt : JsNumber) :
    Except JsString (Option GoogleChatMessageEvent) :=
  if optString (body.get (js "type")) ≠ some (js "MESSAGE") then .ok none
  else do
    let text ← textOf (body.get (js "message"))
    return namedEvent body text receivedAt

/-- The answer to a request: `error` is the member of that name in its body, `log` what it
writes to stderr, `delivered` the event its handler is called with. -/
structure ChatAnswer where
  status : Nat
  error : Option JsString := none
  log : Option JsString := none
  delivered : Option GoogleChatMessageEvent := none

/-- Without a handler nobody would see the message: Chat is told it was not delivered. -/
def answerEvent (handler : Bool) : Option GoogleChatMessageEvent → ChatAnswer
  | none => { status := 200 }
  | some event =>
    if handler then { status := 200, delivered := some event }
    else { status := 503, error := some (js "no handler") }

/-- What a request with an accepted token is answered. -/
def answerBody (handler : Bool) (rawBody : JsString) (receivedAt : JsNumber) :
    Except JsString ChatAnswer :=
  match jsonParse rawBody with
  | none => .ok { status := 400, error := some (js "the body is not JSON") }
  | some body =>
    if !body.isObject then
      .ok { status := 400, error := some (js "the body is not a JSON object") }
    else (chatEventToMessageEvent body receivedAt).map (answerEvent handler)

section
variable {Key : Type}
variable (verify : List UInt8 → Key → List UInt8 → Option Bool) (forKid : JsString → KeyLookup Key)

/-- `handleRequest` of an adapter for `audience`; the error is what its promise rejects with.
The clock is read for the token and again for the event. -/
def handleRequest (audience : JsString) (handler : Bool) (authorization : Option JsString)
    (rawBody : JsString) (verifiedAt receivedAt : JsNumber) : Except JsString ChatAnswer :=
  match verifyChatRequest verify forKid authorization audience verifiedAt with
  | .refused status reason =>
    .ok {
      status := status
      error := some reason
      log := some (js "[gateway-google-chat] refused a request (" ++ natText status ++
        js "): " ++ reason ++ js "\n") }
  | .accepted => answerBody handler rawBody receivedAt

/-- What a request is promised: an answer, no handler for a token that is not authentic, and
none under an answer that refuses. -/
structure HandlesRequest (audience : JsString) (handler : Bool) (authorization : Option JsString)
    (rawBody : JsString) (verifiedAt receivedAt : JsNumber) : Prop where
  resolves : ∃ answer,
    handleRequest verify forKid audience handler authorization rawBody verifiedAt receivedAt =
      .ok answer
  delivers_authentic : ∀ answer event,
    handleRequest verify forKid audience handler authorization rawBody verifiedAt receivedAt =
      .ok answer → answer.delivered = some event →
    Authentic verify forKid authorization audience verifiedAt
  refusal_delivers_nothing : ∀ answer,
    handleRequest verify forKid audience handler authorization rawBody verifiedAt receivedAt =
      .ok answer → answer.status ∈ [400, 401, 503] → answer.delivered = none

/-- A `MESSAGE` body whose message has an `argumentText` that is there and is no string. -/
def TextMalformed (rawBody : JsString) : Prop :=
  ∃ body argument, jsonParse rawBody = some body ∧ body.isObject = true ∧
    body.get (js "type") = some (.string (js "MESSAGE")) ∧
    optGet (body.get (js "message")) (js "argumentText") = some argument ∧
    argument ≠ .null ∧ argument.isString = false

theorem trimmed_resolves_iff {v : Option Json} :
    (∃ t, trimmed v = .ok t) ↔ ¬∃ argument, v = some argument ∧ argument ≠ .null ∧
      argument.isString = false := by
  rcases v with _ | ⟨_ | _ | _ | _ | _ | _⟩ <;> simp [trimmed, Json.isString]

theorem textOf_resolves_iff {message : Option Json} :
    (∃ text, textOf message = .ok text) ↔
      ∃ t, trimmed (optGet message (js "argumentText")) = .ok t := by
  constructor
  · rintro ⟨text, h⟩
    obtain ⟨t, ht, _⟩ := bind_eq_ok.1 h
    exact ⟨t, ht⟩
  · rintro ⟨t, ht⟩
    exact ⟨_, bind_eq_ok.2 ⟨t, ht, rfl⟩⟩

theorem chatEvent_resolves_iff {body : Json} {receivedAt : JsNumber} :
    (∃ event, chatEventToMessageEvent body receivedAt = .ok event) ↔
      (body.get (js "type") = some (.string (js "MESSAGE")) →
        ∃ text, textOf (body.get (js "message")) = .ok text) := by
  rw [chatEventToMessageEvent, ← optString_eq_some]
  by_cases htype : optString (body.get (js "type")) = some (js "MESSAGE")
  · simp only [htype, ne_eq, not_true_eq_false, if_false, forall_const]
    constructor
    · rintro ⟨event, h⟩
      obtain ⟨text, htext, _⟩ := bind_eq_ok.1 h
      exact ⟨text, htext⟩
    · rintro ⟨text, htext⟩
      exact ⟨_, bind_eq_ok.2 ⟨text, htext, rfl⟩⟩
  · simp [htype]

/-- A body is answered unless its text is malformed. -/
theorem answerBody_resolves_iff {handler : Bool} {rawBody : JsString} {receivedAt : JsNumber} :
    (∃ answer, answerBody handler rawBody receivedAt = .ok answer) ↔ ¬TextMalformed rawBody := by
  rw [answerBody]
  cases hparse : jsonParse rawBody with
  | none => simp [TextMalformed, hparse]
  | some body =>
    by_cases hobject : body.isObject = true
    · simp only [hobject, Bool.not_true, Bool.false_eq_true, if_false, map_eq_ok]
      constructor
      · rintro ⟨answer, event, hevent, _⟩ ⟨body', argument, hbody', _, htype, hargument⟩
        cases hparse.symm.trans hbody'
        obtain ⟨text, htext⟩ := chatEvent_resolves_iff.1 ⟨event, hevent⟩ htype
        exact trimmed_resolves_iff.1 (textOf_resolves_iff.1 ⟨text, htext⟩) ⟨argument, hargument⟩
      · intro hwell
        obtain ⟨event, hevent⟩ := chatEvent_resolves_iff.2 fun htype =>
          textOf_resolves_iff.2 (trimmed_resolves_iff.2 fun ⟨argument, hargument⟩ =>
            hwell ⟨body, argument, hparse, hobject, htype, hargument⟩)
        exact ⟨_, event, hevent, rfl⟩
    · simp [TextMalformed, hparse, hobject]

theorem answerEvent_refuses {handler : Bool} {event : Option GoogleChatMessageEvent}
    (h : (answerEvent handler event).status ∈ [400, 401, 503]) :
    (answerEvent handler event).delivered = none := by
  cases event with
  | none => rfl
  | some event => cases handler <;> simp_all [answerEvent]

theorem answerBody_refuses {handler : Bool} {rawBody : JsString} {receivedAt : JsNumber}
    {answer : ChatAnswer} (h : answerBody handler rawBody receivedAt = .ok answer)
    (hstatus : answer.status ∈ [400, 401, 503]) : answer.delivered = none := by
  simp only [answerBody] at h
  split at h
  · cases h
    rfl
  split at h
  · cases h
    rfl
  obtain ⟨event, _, rfl⟩ := map_eq_ok.1 h
  exact answerEvent_refuses hstatus

/-- Every request is handled as promised, except one with an authentic token and a text that
cannot be trimmed. -/
theorem handlesRequest_iff {audience : JsString} {handler : Bool}
    {authorization : Option JsString} {rawBody : JsString} {verifiedAt receivedAt : JsNumber} :
    HandlesRequest verify forKid audience handler authorization rawBody verifiedAt receivedAt ↔
      ¬(Authentic verify forKid authorization audience verifiedAt ∧ TextMalformed rawBody) := by
  constructor
  · rintro ⟨⟨answer, hanswer⟩, _, _⟩ ⟨hauthentic, hmalformed⟩
    rw [handleRequest, verifyChatRequest_eq_accepted_iff.2 hauthentic] at hanswer
    exact answerBody_resolves_iff.1 ⟨answer, hanswer⟩ hmalformed
  intro hwell
  cases hverdict : verifyChatRequest verify forKid authorization audience verifiedAt with
  | refused status reason =>
    refine ⟨⟨_, by rw [handleRequest, hverdict]⟩, fun answer event h hdelivered => ?_,
      fun answer h _ => ?_⟩
    · rw [handleRequest, hverdict] at h
      cases h
      cases hdelivered
    · rw [handleRequest, hverdict] at h
      cases h
      rfl
  | accepted =>
    have hauthentic := verifyChatRequest_eq_accepted_iff.1 hverdict
    refine ⟨?_, fun _ _ _ _ => hauthentic, fun answer h hstatus => ?_⟩
    · obtain ⟨answer, hanswer⟩ := answerBody_resolves_iff.2 fun hmalformed =>
        hwell ⟨hauthentic, hmalformed⟩
      exact ⟨answer, by rw [handleRequest, hverdict, hanswer]⟩
    · rw [handleRequest, hverdict] at h
      exact answerBody_refuses h hstatus

end

/-- The header and payload of a token of Chat's for the app `app`, under the key `k1`. -/
def chatTokenSigned : JsString :=
  js "eyJhbGciOiJSUzI1NiIsImtpZCI6ImsxIn0.eyJpc3MiOiJhY2NvdW50cy5nb29nbGUuY29tIiwiYXVkIjoiYXBw" ++
  js "IiwiZW1haWwiOiJjaGF0QHN5c3RlbS5nc2VydmljZWFjY291bnQuY29tIiwiZW1haWxfdmVyaWZpZWQiOnRydWUs" ++
  js "ImV4cCI6MjAwMDAwMDAwMH0"

/-- Its signature by a key of 512 bits. -/
def chatTokenSignature : JsString :=
  js "KFkQi8mtgTAnXfXhptGfr3QhUtylARBHcuDgyGZSrFl8HVPiMjVXO3hlJvNophDvO3dgKlmJVKyxawZQYlCmCQ"

/-- An `argumentText` that is a number leaves a request with a valid token unanswered. -/
theorem numeric_text_is_not_answered :
    ¬HandlesRequest
      (fun data (_ : Unit) signature =>
        some (data = utf8Encode chatTokenSigned ∧ signature = base64urlDecode chatTokenSignature))
      (fun kid => if kid = js "k1" then .listed () else .unlisted)
      (js "app") true (some (js "Bearer " ++ chatTokenSigned ++ js "." ++ chatTokenSignature))
      (js "\x7b\"type\":\"MESSAGE\",\"message\":\x7b\"argumentText\":5\x7d\x7d")
      1900000000000 1900000000000 := by
  rintro ⟨⟨answer, hanswer⟩, _, _⟩
  have hresolved := congrArg Except.isOk hanswer
  rw [show (Except.ok answer : Except JsString ChatAnswer).isOk = true from rfl] at hresolved
  revert hresolved
  decide +kernel

end TheokitGateways.GoogleChat
