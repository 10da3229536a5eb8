import TheokitGateways.Gateway.Outbound
import TheokitGateways.RenderedBodies

/-!
# Mattermost: `sendMessage` and `editMessage`

The client is read again before each post, so a `disconnect` in the middle of a send
ends it with an error. Whenever it does, what Mattermost has taken is the first of
the bodies, and an edit carries what a send of one post does (`mattermost_sends_and_edits`).
-/

namespace TheokitGateways.Mattermost
open Js Gateway Async Prog

/-- What a call of the client rejects with, as far as the adapter reads it. -/
structure MattermostRestError where
  statusCode : Option Nat := none
  message : Option JsString := none
  /-- The message of an error, else its text. -/
  text : JsString := []

inductive MattermostCall where
  /-- Reading `this.handle`: whether there is one. -/
  | handle
  | createPost (channelId message : JsString) (rootId : Option JsString)
  | patchPost (id message : JsString)

/-- The call only reads. -/
def MattermostCall.Reads : MattermostCall → Prop
  | .handle => True
  | .createPost .. | .patchPost .. => False

/-- What a call answers: a post, its id. -/
abbrev MattermostCall.Answer : MattermostCall → Type
  | .handle => Bool
  | .createPost .. => JsString
  | .patchPost .. => Unit

abbrev MattermostEvent := Event MattermostCall MattermostCall.Answer MattermostRestError Empty

abbrev MattermostProg (α : Type) :=
  Prog MattermostCall MattermostCall.Answer MattermostRestError Empty α

def mapMattermostError (e : MattermostRestError) : SendResult :=
  let status := e.statusCode.getD 0
  if status = 429 then .failure (js "rate_limit") (e.message.getD (js "Mattermost rate limit"))
  else if status = 401 ∨ status = 403 then
    .failure (js "permission_denied") (e.message.getD (js "Mattermost auth/permission error"))
  else if status = 400 then
    .failure (js "invalid_request") (e.message.getD (js "Mattermost rejected request"))
  else .failure (js "send_failed") (e.message.getD e.text)

/-- An error of which only the message is read. -/
def messageOnly (message : JsString) : MattermostRestError :=
  { message := some message, text := message }

/-- The client of a handle that is gone. -/
def clientOfUndefined : MattermostRestError :=
  messageOnly (js "Cannot read properties of undefined (reading 'client')")

def editPartsRefusal (partCount : Nat) : SendResult :=
  partsRefusal (js "Mattermost posts") partCount

def emptyText : SendResult := .failure (js "empty_text") (js "outbound text is empty")

def notConnected : SendResult :=
  .failure (js "not_connected") (js "MattermostAdapter.connect() not called")

/-- The post that a message goes under. -/
def rootOf (out : OutboundMessage) : Option JsString :=
  if out.channel.type = .thread then out.channel.topicId else none

def handlePresent : MattermostProg Bool :=
  .call MattermostCall.handle fun
    | .ok true => .ret true
    | _ => .ret false

def createPost (channelId message : JsString) (rootId : Option JsString) :
    MattermostProg (Except MattermostRestError JsString) :=
  settle (MattermostCall.createPost channelId message rootId)

def patchPost (id message : JsString) : MattermostProg (Except MattermostRestError Unit) :=
  settle (MattermostCall.patchPost id message)

/-- One pass of the loop. -/
def post (out : OutboundMessage) (_ : Option JsString) (message : JsString) :
    MattermostProg (Except SendResult (Option JsString)) := do
  if ← handlePresent then
    match ← createPost out.channel.id message (rootOf out) with
    | .ok id => return .ok (some id)
    | .error err => return .error (mapMattermostError err)
  else return .error (mapMattermostError clientOfUndefined)

/-- `sendMessage` once there is a handle. -/
def postMessages (out : OutboundMessage) : MattermostProg SendResult :=
  match renderPosts out with
  | .error message => return mapMattermostError (messageOnly message)
  | .ok messages => do
    let sent ← inTurn (post out) none messages
    return answerOf sent

def sendMessage (out : OutboundMessage) : MattermostProg SendResult :=
  if out.text = [] then return emptyText
  else do
    if ← handlePresent then postMessages out else return notConnected

/-- `editMessage` once the text is rendered. -/
def patchOne (messageId : JsString) : List JsString → MattermostProg SendResult
  | [message] => do
    match ← patchPost messageId message with
    | .error err => return mapMattermostError err
    | .ok () => return { ok := true, messageId := some messageId }
  | posts => return editPartsRefusal posts.length

def editMessage (messageId : JsString) (out : OutboundMessage) : MattermostProg SendResult :=
  if out.text = [] then return emptyText
  else do
    if ← handlePresent then
      if messageId = [] then
        return .failure (js "invalid_message_id") (js "message id is empty")
      else
        match renderPosts out with
        | .error message => .throw (messageOnly message)
        | .ok posts => patchOne messageId posts
    else return notConnected

/-- The body that Mattermost has taken with an event, and the id of its post. -/
def posted : MattermostEvent → Option (JsString × JsString)
  | .answered (.createPost _ message _) (.ok id) => some (message, id)
  | _ => none

/-- The body that Mattermost has put in the place of a post with an event. -/
def patched (messageId : JsString) : MattermostEvent → Option (JsString × Unit)
  | .answered (.patchPost id message) (.ok ()) =>
    if id = messageId then some (message, ()) else none
  | _ => none

/-- There is a client, and Mattermost answers a call of it with what it asks for. -/
def Granted : (c : MattermostCall) → Except MattermostRestError c.Answer → Prop
  | .handle, r => r = .ok true
  | .createPost .., r => ∃ id, r = .ok id
  | .patchPost .., r => r = .ok ()

theorem not_ok_mapMattermostError (e : MattermostRestError) :
    (mapMattermostError e).ok = false := by
  unfold mapMattermostError
  dsimp only
  split
  · rfl
  · split
    · rfl
    · split <;> rfl

theorem takes_post (out : OutboundMessage) (a : Option JsString) (message : JsString) :
    Takes posted (fun _ id => some id) a message (·.ok = false) (post out a message) := by
  intro present
  refine .inl ⟨rfl, ?_⟩
  obtain _ | _ | _ := present
  · exact not_ok_mapMattermostError clientOfUndefined
  · exact not_ok_mapMattermostError clientOfUndefined
  · intro r
    cases r with
    | error err => exact .inl ⟨rfl, not_ok_mapMattermostError err⟩
    | ok id => exact .inr ⟨id, rfl, rfl⟩

/-- The requests of a send are for its channel, and under its post. -/
def IsOf (out : OutboundMessage) : MattermostCall → Prop
  | .handle => True
  | .createPost channelId _ rootId => channelId = out.channel.id ∧ rootId = rootOf out
  | .patchPost .. => False

theorem callsIn_sendMessage (out : OutboundMessage) : (sendMessage out).CallsIn (IsOf out) := by
  have hpost (a : Option JsString) (message : JsString) :
      (post out a message).CallsIn (IsOf out) := by
    refine ⟨trivial, fun present => ?_⟩
    obtain _ | _ | _ := present
    · trivial
    · trivial
    · refine ⟨⟨rfl, rfl⟩, fun r => ?_⟩
      cases r <;> trivial
  unfold sendMessage
  split
  · trivial
  · refine ⟨trivial, fun present => ?_⟩
    obtain _ | _ | _ := present
    · trivial
    · trivial
    · show CallsIn (IsOf out) (postMessages out)
      unfold postMessages
      split
      · trivial
      · exact (callsIn_inTurn hpost none _).bind fun _ => trivial

variable {out : OutboundMessage} {t : List MattermostEvent} {q : MattermostProg SendResult}

/-- What Mattermost has taken of a message, whenever one looks and whatever has become of the
connection, is the first of the bodies that carry it. -/
theorem sendsParts_sendMessage (hne : out.text ≠ []) {bodies : List JsString}
    (hbodies : bodies ≠ []) (hrendered : renderPosts out = .ok bodies) :
    SendsParts posted List.getLast? bodies (sendMessage out) := by
  rw [sendMessage, if_neg hne]
  refine sendsParts_call hbodies fun present => ⟨rfl, ?_⟩
  obtain _ | _ | _ := present
  · exact sendsParts_refusal hbodies rfl
  · exact sendsParts_refusal hbodies rfl
  · show SendsParts posted List.getLast? bodies (postMessages out)
    rw [postMessages, hrendered]
    exact sendsParts_last (takes_post out) bodies

/-- A send that is granted its calls posts all bodies. -/
theorem delivers_sendMessage (hne : out.text ≠ []) {bodies : List JsString} (hbodies : bodies ≠ [])
    (hrendered : renderPosts out = .ok bodies) :
    Delivers Granted posted List.getLast? bodies (sendMessage out) := by
  refine ⟨sendsParts_sendMessage hne hbodies hrendered, ?_⟩
  have hpost (a : Option JsString) (message : JsString) :
      (post out a message).ReturnsUnder Granted fun r => ∃ a', r = .ok a' := by
    rintro _ rfl _ ⟨id, rfl⟩
    exact ⟨some id, rfl⟩
  rw [sendMessage, if_neg hne]
  rintro _ rfl
  show (postMessages out).ReturnsUnder Granted (·.ok = true)
  rw [postMessages, hrendered]
  exact returnsUnder_finish hpost (fun _ => rfl) none bodies

theorem editsAs_editMessage {messageId : JsString} (hid : messageId ≠ []) (hne : out.text ≠ [])
    {bodies : List JsString} (hbodies : bodies ≠ []) (hrendered : renderPosts out = .ok bodies) :
    EditsAs Granted (patched messageId) messageId bodies MattermostCall.Reads
      (editMessage messageId out) := by
  have hone (body : JsString) :
      Delivers Granted (patched messageId) (fun _ => some messageId) [body]
        (patchOne messageId [body]) := by
    refine ⟨sendsParts_once fun r => ?_, ?_⟩
    · cases r with
      | error err => exact ⟨_, rfl, .inl ⟨rfl, not_ok_mapMattermostError err⟩⟩
      | ok => exact ⟨_, rfl, .inr ⟨(), if_pos rfl, rfl, rfl⟩⟩
    · rintro _ rfl
      exact rfl
  have hedits : EditsAs Granted (patched messageId) messageId bodies MattermostCall.Reads
      (patchOne messageId bodies) :=
    editsAs_of_bodies (patchOne messageId) hbodies hone fun _ _ _ =>
      ⟨trivial, not_ok_partsRefusal _ _⟩
  rw [editMessage, if_neg hne, if_neg hid, hrendered]
  refine editsAs_call hbodies (show MattermostCall.handle.Reads from trivial) fun present =>
    And.intro ?_ ?_
  · rfl
  · obtain _ | _ | _ := present
    · exact .inr ⟨(fun h => nomatch h), _, rfl, rfl⟩
    · exact .inr ⟨(fun h => nomatch h), _, rfl, rfl⟩
    · exact .inl hedits

theorem refuses_editMessage (out : OutboundMessage) :
    OnlyRefuses MattermostCall.Reads (editMessage [] out) := by
  unfold editMessage
  split
  · exact ⟨trivial, rfl⟩
  · refine ⟨⟨trivial, fun present => ?_⟩, fun present => ?_⟩
    all_goals obtain _ | _ | _ := present
    all_goals trivial

/-- The bodies of a text that is not empty carry it; a send posts them in order, each once, answers
`ok` under the id of the last exactly when all are posted, and posts them all when it is granted its
calls; an edit puts the only one in the place of its post, or only reads whether there is a
connection, and it does no more under an empty id. -/
theorem mattermost_sends_and_edits (messageId : JsString) (out : OutboundMessage)
    (hne : out.text ≠ []) : ∃ bodies, renderPosts out = .ok bodies ∧
      Carries mattermostMaxPost out bodies ∧
      ((sendMessage out).CallsIn (IsOf out) ∧
        Delivers Granted posted List.getLast? bodies (sendMessage out)) ∧
      (messageId ≠ [] → EditsAs Granted (patched messageId) messageId bodies MattermostCall.Reads
        (editMessage messageId out)) ∧
      (messageId = [] → OnlyRefuses MattermostCall.Reads (editMessage messageId out)) := by
  obtain ⟨bodies, hrendered, hcarries⟩ := renderPosts_carries hne
  have hbodies := hcarries.ne_nil hne
  refine ⟨bodies, hrendered, hcarries,
    ⟨callsIn_sendMessage out, delivers_sendMessage hne hbodies hrendered⟩,
    fun hid => editsAs_editMessage hid hne hbodies hrendered, ?_⟩
  rintro rfl
  exact refuses_editMessage out

/-- More than one post takes. -/
def longText : OutboundMessage where
  channel := { id := js "c1", type := .group }
  text := letters 16384

/-- Mattermost with every id. -/
def granting : (c : MattermostCall) → Except MattermostRestError c.Answer
  | .handle => .ok true
  | .createPost .. => .ok (js "p1")
  | .patchPost .. => .ok ()

theorem granted_granting (c : MattermostCall) : Granted c (granting c) := by
  cases c with
  | handle => exact rfl
  | createPost => exact ⟨js "p1", rfl⟩
  | patchPost => exact rfl

theorem mattermost_sends_and_edits_longText : longText.text ≠ [] ∧
    ∃ bodies, renderPosts longText = .ok bodies ∧ 1 < bodies.length ∧
      Carries mattermostMaxPost longText bodies ∧
      (∃ t r, Runs (sendMessage longText) t (.ret r) ∧ r.ok = true ∧
        (t.filterMap posted).map Prod.fst = bodies) ∧
      OnlyRefuses MattermostCall.Reads (editMessage (js "p1") longText) ∧
      OnlyRefuses MattermostCall.Reads (editMessage [] longText) := by
  have hne : longText.text ≠ [] := letters_ne_nil (by decide)
  have hid : js "p1" ≠ [] := by decide
  obtain ⟨bodies, hrendered, hcarries, ⟨_, hdelivers⟩, hedits, _⟩ :=
    mattermost_sends_and_edits (js "p1") longText hne
  obtain ⟨_, _, _, _, _, hempty⟩ := mattermost_sends_and_edits [] longText hne
  have hlong : 1 < bodies.length := by
    refine hcarries.one_lt_length (by decide) ?_
    rw [longText, countP_letters]
    decide
  exact ⟨hne, bodies, hrendered, hlong, hcarries, hdelivers.exists_run granted_granting,
    (hedits hid).refuses hlong, hempty rfl⟩

end TheokitGateways.Mattermost
