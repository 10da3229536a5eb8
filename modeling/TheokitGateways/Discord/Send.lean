import TheokitGateways.Gateway.Outbound
import TheokitGateways.RenderedBodies

/-!
# Discord: `sendMessage` and `editMessage`

A send fetches its channel, and posts the bodies of the text one after another. An
edit is one request that puts one body in the place of a message: it is made for
exactly the texts that a send posts as one message, and with the body that a send
posts (`discord_sends_and_edits`).
-/

namespace TheokitGateways.Discord
open Js Gateway Async Prog

/-- What a call of the client rejects with, as far as the adapter reads it. -/
structure DiscordError where
  /-- The code and the status of a `DiscordAPIError`. -/
  api : Option (JsString × Nat) := none
  message : JsString

/-- What `client.channels.fetch` answers: nothing, or a channel that can be sent to or not. -/
inductive FetchedChannel where
  | null
  | channel (sends : Bool)

inductive DiscordCall where
  | fetch (channelId : JsString)
  /-- `send` of the channel that was fetched. -/
  | send (channelId content : JsString) (reply : Option JsString)
  | patch (channelId messageId content : JsString)

/-- What a call answers: a send, the id of the message. -/
abbrev DiscordCall.Answer : DiscordCall → Type
  | .fetch _ => FetchedChannel
  | .send .. => JsString
  | .patch .. => Unit

abbrev DiscordEvent := Event DiscordCall DiscordCall.Answer DiscordError Empty

abbrev DiscordProg (α : Type) := Prog DiscordCall DiscordCall.Answer DiscordError Empty α

def mapSendError (err : DiscordError) : SendResult :=
  match err.api with
  | some (code, status) =>
    if code = js "50007" then .failure (js "dm_blocked") err.message
    else if code = js "50001" ∨ code = js "50013" then .failure (js "no_permission") err.message
    else if status = 429 then .failure (js "rate_limited") err.message
    else .failure (js "discord_" ++ code) err.message
  | none => .failure (js "unknown") err.message

def editPartsRefusal (partCount : Nat) : SendResult :=
  partsRefusal (js "Discord messages") partCount

def emptyText : SendResult := .failure (js "empty_text") (js "text is empty")

/-- `renderMessages`, which throws what the splitter does. -/
def rendered (out : OutboundMessage) : DiscordProg (List JsString) :=
  match renderMessages out with
  | .ok bodies => .ret bodies
  | .error message => .throw { message := message }

def fetchChannel (channelId : JsString) : DiscordProg (Except DiscordError FetchedChannel) :=
  settle (DiscordCall.fetch channelId)

def createMessage (channelId content : JsString) (reply : Option JsString) :
    DiscordProg (Except DiscordError JsString) := settle (DiscordCall.send channelId content reply)

def patchMessage (channelId messageId content : JsString) :
    DiscordProg (Except DiscordError Unit) :=
  settle (DiscordCall.patch channelId messageId content)

/-- Post one body. -/
def post (out : OutboundMessage) (_ : Option JsString) (chunk : JsString) :
    DiscordProg (Except SendResult (Option JsString)) := do
  match ← createMessage out.channel.id chunk out.replyTo with
  | .ok id => return .ok (some id)
  | .error err => return .error (mapSendError err)

/-- `sendMessage` once it has a channel to send to. -/
def postChunks (out : OutboundMessage) : DiscordProg SendResult := do
  let chunks ← rendered out
  let sent ← inTurn (post out) none chunks
  return answerOf sent

def sendMessage (out : OutboundMessage) : DiscordProg SendResult :=
  if out.text = [] then return emptyText
  else do
    match ← fetchChannel out.channel.id with
    | .error err => return .failure (js "channel_fetch_failed") err.message
    | .ok (.channel true) => postChunks out
    | .ok .null | .ok (.channel false) =>
      return .failure (js "channel_not_sendable")
        (js "channel \"" ++ out.channel.id ++ js "\" not text-based or missing")

/-- `editMessage` once the text is rendered. -/
def patchOne (messageId : JsString) (out : OutboundMessage) : List JsString → DiscordProg SendResult
  | [content] => do
    match ← patchMessage out.channel.id messageId content with
    | .error err => return mapSendError err
    | .ok () => return { ok := true, messageId := some messageId }
  | messages => return editPartsRefusal messages.length

def editMessage (messageId : JsString) (out : OutboundMessage) : DiscordProg SendResult :=
  if out.text = [] then return emptyText
  else if messageId = [] then
    return .failure (js "invalid_message_id") (js "message id is empty")
  else do
    let messages ← rendered out
    patchOne messageId out messages

/-- The body that Discord has taken with an event, and the id of its message. -/
def posted : DiscordEvent → Option (JsString × JsString)
  | .answered (.send _ content _) (.ok id) => some (content, id)
  | _ => none

/-- The body that Discord has put in the place of a message with an event. -/
def patched (messageId : JsString) (out : OutboundMessage) : DiscordEvent → Option (JsString × Unit)
  | .answered (.patch channelId id content) (.ok ()) =>
    if channelId = out.channel.id ∧ id = messageId then some (content, ()) else none
  | _ => none

/-- Discord answers a call with what it asks for. -/
def Granted : (c : DiscordCall) → Except DiscordError c.Answer → Prop
  | .fetch _, r => r = .ok (.channel true)
  | .send .., r => ∃ id, r = .ok id
  | .patch .., r => r = .ok ()

theorem not_ok_mapSendError (err : DiscordError) : (mapSendError err).ok = false := by
  unfold mapSendError
  split
  · split
    · rfl
    · split
      · rfl
      · split <;> rfl
  · rfl

theorem takes_post (out : OutboundMessage) (a : Option JsString) (chunk : JsString) :
    Takes posted (fun _ id => some id) a chunk (·.ok = false) (post out a chunk) := by
  intro r
  cases r with
  | error err => exact .inl ⟨rfl, not_ok_mapSendError err⟩
  | ok id => exact .inr ⟨id, rfl, rfl⟩

/-- The requests of a send are for its channel, and its messages answer the same one. -/
def IsOf (out : OutboundMessage) : DiscordCall → Prop
  | .fetch channelId => channelId = out.channel.id
  | .send channelId _ reply => channelId = out.channel.id ∧ reply = out.replyTo
  | .patch .. => False

theorem callsIn_postChunks (out : OutboundMessage) : (postChunks out).CallsIn (IsOf out) := by
  have hpost (a : Option JsString) (chunk : JsString) : (post out a chunk).CallsIn (IsOf out) := by
    refine ⟨⟨rfl, rfl⟩, fun r => ?_⟩
    cases r <;> trivial
  refine CallsIn.bind ?_ fun chunks => (callsIn_inTurn hpost none chunks).bind fun _ => trivial
  unfold rendered
  split <;> trivial

theorem callsIn_sendMessage (out : OutboundMessage) : (sendMessage out).CallsIn (IsOf out) := by
  unfold sendMessage
  split
  · trivial
  · refine ⟨rfl, fun fetched => ?_⟩
    obtain err | _ | _ | _ := fetched
    · trivial
    · trivial
    · trivial
    · exact callsIn_postChunks out

variable {out : OutboundMessage} {t : List DiscordEvent} {q : DiscordProg SendResult}

theorem rendered_eq {bodies : List JsString} (h : renderMessages out = .ok bodies) :
    rendered out = .ret bodies := by
  rw [rendered, h]

/-- What Discord has taken of a message, whenever one looks, is the first of the bodies that carry
it. -/
theorem sendsParts_sendMessage (hne : out.text ≠ []) {bodies : List JsString}
    (hbodies : bodies ≠ []) (hrendered : renderMessages out = .ok bodies) :
    SendsParts posted List.getLast? bodies (sendMessage out) := by
  rw [sendMessage, if_neg hne]
  refine sendsParts_call hbodies fun fetched => ⟨rfl, ?_⟩
  obtain err | _ | _ | _ := fetched
  · exact sendsParts_refusal hbodies rfl
  · exact sendsParts_refusal hbodies rfl
  · exact sendsParts_refusal hbodies rfl
  · show SendsParts posted List.getLast? bodies (postChunks out)
    rw [postChunks, rendered_eq hrendered]
    exact sendsParts_last (takes_post out) bodies

/-- A send that Discord grants its calls posts all bodies. -/
theorem delivers_sendMessage (hne : out.text ≠ []) {bodies : List JsString} (hbodies : bodies ≠ [])
    (hrendered : renderMessages out = .ok bodies) :
    Delivers Granted posted List.getLast? bodies (sendMessage out) := by
  refine ⟨sendsParts_sendMessage hne hbodies hrendered, ?_⟩
  have hpost (a : Option JsString) (chunk : JsString) :
      (post out a chunk).ReturnsUnder Granted fun r => ∃ a', r = .ok a' := by
    rintro _ ⟨id, rfl⟩
    exact ⟨some id, rfl⟩
  rw [sendMessage, if_neg hne]
  rintro _ rfl
  show (postChunks out).ReturnsUnder Granted (·.ok = true)
  rw [postChunks, rendered_eq hrendered]
  exact returnsUnder_finish hpost (fun _ => rfl) none bodies

theorem editsAs_editMessage {messageId : JsString} (hid : messageId ≠ []) (hne : out.text ≠ [])
    {bodies : List JsString} (hbodies : bodies ≠ [])
    (hrendered : renderMessages out = .ok bodies) :
    EditsAs Granted (patched messageId out) messageId bodies (fun _ => False)
      (editMessage messageId out) := by
  have hone (body : JsString) :
      Delivers Granted (patched messageId out) (fun _ => some messageId) [body]
        (patchOne messageId out [body]) := by
    refine ⟨sendsParts_once fun r => ?_, ?_⟩
    · cases r with
      | error err => exact ⟨_, rfl, .inl ⟨rfl, not_ok_mapSendError err⟩⟩
      | ok => exact ⟨_, rfl, .inr ⟨(), if_pos ⟨rfl, rfl⟩, rfl, rfl⟩⟩
    · rintro _ rfl
      exact rfl
  rw [editMessage, if_neg hne, if_neg hid, rendered_eq hrendered]
  exact editsAs_of_bodies (patchOne messageId out) hbodies hone fun _ _ _ =>
    ⟨trivial, not_ok_partsRefusal _ _⟩

theorem refuses_editMessage (out : OutboundMessage) :
    OnlyRefuses (fun _ => False) (editMessage [] out) := by
  unfold editMessage
  split <;> exact ⟨trivial, rfl⟩

/-- The bodies of a text that is not empty carry it; a send posts them to its channel in order, each
once, answers `ok` under the id of the last exactly when all are posted, and posts them all when it
is granted its calls; an edit puts the only one in the place of its message, or makes no request,
and it makes none under an empty id. -/
theorem discord_sends_and_edits (messageId : JsString) (out : OutboundMessage)
    (hne : out.text ≠ []) : ∃ bodies, renderMessages out = .ok bodies ∧
      Carries discordMaxMessage out bodies ∧
      ((sendMessage out).CallsIn (IsOf out) ∧
        Delivers Granted posted List.getLast? bodies (sendMessage out)) ∧
      (messageId ≠ [] → EditsAs Granted (patched messageId out) messageId bodies (fun _ => False)
        (editMessage messageId out)) ∧
      (messageId = [] → OnlyRefuses (fun _ => False) (editMessage messageId out)) := by
  obtain ⟨bodies, hrendered, hcarries⟩ := renderMessages_carries hne
  have hbodies := hcarries.ne_nil hne
  refine ⟨bodies, hrendered, hcarries,
    ⟨callsIn_sendMessage out, delivers_sendMessage hne hbodies hrendered⟩,
    fun hid => editsAs_editMessage hid hne hbodies hrendered, ?_⟩
  rintro rfl
  exact refuses_editMessage out

/-- More than one message takes. -/
def longText : OutboundMessage where
  channel := { id := js "c1", type := .group }
  text := letters 2001

/-- Discord with every channel and every id. -/
def granting : (c : DiscordCall) → Except DiscordError c.Answer
  | .fetch _ => .ok (.channel true)
  | .send .. => .ok (js "m1")
  | .patch .. => .ok ()

theorem granted_granting (c : DiscordCall) : Granted c (granting c) := by
  cases c with
  | fetch => exact rfl
  | send => exact ⟨js "m1", rfl⟩
  | patch => exact rfl

theorem discord_sends_and_edits_longText : longText.text ≠ [] ∧
    ∃ bodies, renderMessages longText = .ok bodies ∧ 1 < bodies.length ∧
      Carries discordMaxMessage longText bodies ∧
      (∃ t r, Runs (sendMessage longText) t (.ret r) ∧ r.ok = true ∧
        (t.filterMap posted).map Prod.fst = bodies) ∧
      OnlyRefuses (fun _ => False) (editMessage (js "m1") longText) ∧
      OnlyRefuses (fun _ => False) (editMessage [] longText) := by
  have hne : longText.text ≠ [] := letters_ne_nil (by decide)
  have hid : js "m1" ≠ [] := by decide
  obtain ⟨bodies, hrendered, hcarries, ⟨_, hdelivers⟩, hedits, _⟩ :=
    discord_sends_and_edits (js "m1") longText hne
  obtain ⟨_, _, _, _, _, hempty⟩ := discord_sends_and_edits [] longText hne
  have hlong : 1 < bodies.length := by
    refine hcarries.one_lt_length (by decide) ?_
    rw [longText, countP_letters]
    decide
  exact ⟨hne, bodies, hrendered, hlong, hcarries, hdelivers.exists_run granted_granting,
    (hedits hid).refuses hlong, hempty rfl⟩

end TheokitGateways.Discord
