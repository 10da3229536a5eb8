import TheokitGateways.Js.Convert
import TheokitGateways.Js.OrderedMap
import TheokitGateways.Matrix.Adapter

/-!
# Matrix: `sendMessage`

`MatrixState` is the adapter together with the sends it has under way. A send finds out
the room its message goes to, asking the client when it is given an alias, and goes
on later: it refuses an encrypted room, and sends the text plain or as HTML. HTML
that the homeserver finds malformed is sent again as plain text. `trace` records,
latest first, what the adapter asked of the client, wrote and answered.
-/

namespace TheokitGateways.Matrix
open Js Gateway

/-- The methods a client may lack. Whether a room is encrypted is told at once. -/
structure ClientKind where
  sendMessage : Bool
  isRoomEncrypted : Option (JsString → Except JsAny Bool)

/-- What a client call rejects with, as far as the adapter reads it. -/
structure MatrixRestError where
  httpStatus : Option Nat := none
  errcode : Option JsString := none
  message : Option JsString := none
  /-- The message of an error, else its text. -/
  text : JsString := []

/-- The homeserver judged the request malformed, as opposed to refusing the sender. -/
def isMalformedRequest (e : MatrixRestError) : Bool :=
  e.httpStatus = some 400 &&
    (e.errcode = some (js "M_BAD_JSON") || e.errcode = some (js "M_INVALID_PARAM"))

def mapMatrixError (e : MatrixRestError) : SendResult :=
  let status := e.httpStatus.getD 0
  if status = 429 ∨ e.errcode = some (js "M_LIMIT_EXCEEDED") then
    .failure (js "rate_limit") (e.message.getD (js "Matrix rate limit"))
  else if status = 401 ∨ status = 403 ∨ e.errcode = some (js "M_FORBIDDEN") then
    .failure (js "permission_denied") (e.message.getD (js "Matrix permission error"))
  else if status = 404 ∨ e.errcode = some (js "M_NOT_FOUND") then
    .failure (js "not_found") (e.message.getD (js "Matrix resource not found"))
  else .failure (js "send_failed") (e.message.getD e.text)

/-- An error of which only the message is read. -/
def messageOnly (message : JsString) : MatrixRestError :=
  { message := some message, text := message }

/-- How a client call settles. Reading the fields of a rejection can itself throw. -/
inductive ApiOutcome where
  | resolved (id : JsString)
  | rejected (e : MatrixRestError)
  | unreadable (thrown : MatrixRestError)

inductive Observed where
  /-- `getRoomIdForAlias`, `sendTextMessage` and `sendMessage` of the client. -/
  | resolved (roomAlias : JsString)
  | sentText (roomId text : JsString)
  | sentHtml (roomId text : JsString)
  | wrote (line : JsString)
  | answered (out : OutboundMessage) (result : SendResult)
  | threw (out : OutboundMessage)

/-- Where a send stands: it waits for the room of an alias, goes on with a room, or waits for the
message to be sent. -/
inductive Stage where
  | resolving
  | resolved (roomId : JsString)
  | html (roomId : JsString)
  | text

structure Sending where
  out : OutboundMessage
  stage : Stage

structure MatrixState where
  adapter : MatrixAdapter := {}
  aliasCache : OrderedMap JsString JsString := .empty
  warnedEncrypted : List JsString := []
  warnedAboutFormat : Bool := false
  sends : List Sending := []
  trace : List Observed := []

inductive Step where
  | act (action : Action)
  | send (out : OutboundMessage)
  | advance (i : Nat) (outcome : ApiOutcome)

def formatName : Format → JsString
  | .plain => js "plain"
  | .markdown => js "markdown"
  | .html => js "html"

namespace MatrixState

def observe (m : MatrixState) (o : Observed) : MatrixState := { m with trace := o :: m.trace }

def answer (m : MatrixState) (out : OutboundMessage) (result : SendResult) : MatrixState :=
  m.observe (.answered out result)

def await (m : MatrixState) (out : OutboundMessage) (stage : Stage) : MatrixState :=
  { m with sends := ⟨out, stage⟩ :: m.sends }

/-- Says once that Matrix has no markdown. -/
def warnFormatUnsupported (m : MatrixState) (format : Option Format) : MatrixState :=
  match format with
  | none | some .plain | some .html => m
  | some format =>
    if m.warnedAboutFormat then m
    else
      { m with warnedAboutFormat := true }.observe
        (.wrote (js "[gateway-matrix] format=\"" ++ formatName format ++
          js "\" was declared, and Matrix has no markdown mode — " ++
          js "its only markup type is HTML. Sending as plain text; this is logged once.\n"))

def warnEncryptedOnce (m : MatrixState) (roomId : JsString) : MatrixState :=
  if roomId ∈ m.warnedEncrypted then m
  else
    { m with warnedEncrypted := m.warnedEncrypted ++ [roomId] }.observe
      (.wrote (js "[gateway-matrix] room " ++ roomId ++
        js " is end-to-end encrypted; skipping (E2EE deferred to v0.2)\n"))

/-- The room a reference names: an id names itself, an alias is looked up or asked for. -/
def resolve (m : MatrixState) (out : OutboundMessage) : MatrixState :=
  let refOrId := out.channel.id
  if (js "!").isPrefixOf refOrId then m.await out (.resolved refOrId)
  else if !(js "#").isPrefixOf refOrId then
    m.answer out (mapMatrixError (messageOnly
      (js "gateway-matrix: invalid room reference " ++ Json.quoteString refOrId ++
        js " — expected '!' (room id) or '#' (alias)")))
  else
    match m.aliasCache.get refOrId with
    | some roomId => m.await out (.resolved roomId)
    | none => (m.observe (.resolved refOrId)).await out .resolving

def notConnected : SendResult :=
  .failure (js "not_connected") (js "MatrixAdapter.connect() not called")

/-- `sendMessage` up to its first `await`. -/
def sendMessage (m : MatrixState) (out : OutboundMessage) : MatrixState :=
  if out.text = [] then
    m.answer out (.failure (js "empty_text") (js "outbound text is empty"))
  else
    match m.adapter.client with
    | none => m.answer out notConnected
    | some _ => m.resolve out

/-- The room of an alias is told. -/
def aliasResolved (m : MatrixState) (out : OutboundMessage) : ApiOutcome → MatrixState
  | .resolved roomId =>
    { m with aliasCache := m.aliasCache.set out.channel.id roomId }.await out (.resolved roomId)
  | .rejected e => m.answer out (mapMatrixError e)
  | .unreadable _ => m.observe (.threw out)

section
variable (kind : ClientKind)

def isEncrypted (m : MatrixState) (roomId : JsString) : Bool :=
  match m.adapter.client, kind.isRoomEncrypted with
  | some _, some isRoomEncrypted =>
    match isRoomEncrypted roomId with
    | .ok encrypted => encrypted
    | .error _ => false
  | _, _ => false

/-- A call of a method of the client after `disconnect` has let go of it. -/
def methodOfUndefined (method : JsString) : MatrixRestError :=
  messageOnly (js "Cannot read properties of undefined (reading '" ++ method ++ js "')")

def sendHonouringFormat (m : MatrixState) (out : OutboundMessage) (roomId : JsString) :
    MatrixState :=
  match m.adapter.client with
  | none =>
    if out.format = some .html then
      m.answer out (mapMatrixError (methodOfUndefined (js "sendMessage")))
    else
      (m.warnFormatUnsupported out.format).answer out
        (mapMatrixError (methodOfUndefined (js "sendTextMessage")))
  | some _ =>
    if out.format ≠ some .html ∨ kind.sendMessage = false then
      ((m.warnFormatUnsupported out.format).observe (.sentText roomId out.text)).await out .text
    else (m.observe (.sentHtml roomId out.text)).await out (.html roomId)

/-- `sendMessage` once the room is known. -/
def goOn (m : MatrixState) (out : OutboundMessage) (roomId : JsString) : MatrixState :=
  if m.isEncrypted kind roomId then
    (m.warnEncryptedOnce roomId).answer out
      (.failure (js "encrypted_room_unsupported")
        (js "Matrix room " ++ roomId ++ js " is encrypted; E2EE deferred to v0.2"))
  else m.sendHonouringFormat kind out roomId

/-- `sendMessage` of the client settles. -/
def htmlSettled (m : MatrixState) (out : OutboundMessage) (roomId : JsString) :
    ApiOutcome → MatrixState
  | .resolved eventId => m.answer out { ok := true, messageId := some eventId }
  | .rejected e =>
    if isMalformedRequest e then
      (((m.observe (.wrote (js "[gateway-matrix] homeserver rejected the formatted body; " ++
        js "retrying as plain text\n"))).observe (.sentText roomId out.text)).await out .text)
    else m.answer out (mapMatrixError e)
  | .unreadable thrown => m.answer out (mapMatrixError thrown)

def textSettled (m : MatrixState) (out : OutboundMessage) : ApiOutcome → MatrixState
  | .resolved eventId => m.answer out { ok := true, messageId := some eventId }
  | .rejected e => m.answer out (mapMatrixError e)
  | .unreadable _ => m.observe (.threw out)

/-- A send goes on: `outcome` is how the call settled that it waits for. -/
def advance (m : MatrixState) (sending : Sending) (outcome : ApiOutcome) : MatrixState :=
  match sending.stage with
  | .resolving => m.aliasResolved sending.out outcome
  | .resolved roomId => m.goOn kind sending.out roomId
  | .html roomId => m.htmlSettled sending.out roomId outcome
  | .text => m.textSettled sending.out outcome

/-- What the adapter does apart from its sends. -/
def act (m : MatrixState) (clientFactory : Bool) (action : Action) : Option MatrixState :=
  (m.adapter.step clientFactory action).map fun adapter =>
    { m with
      adapter := adapter
      aliasCache :=
        match action with
        | .disconnect => if m.adapter.connected then .empty else m.aliasCache
        | _ => m.aliasCache }

def step (clientFactory : Bool) (m : MatrixState) : Step → Option MatrixState
  | .act action => m.act clientFactory action
  | .send out => some (m.sendMessage out)
  | .advance i outcome =>
    (m.sends[i]?).map fun sending =>
      { m with sends := m.sends.eraseIdx i }.advance kind sending outcome

end

end MatrixState
end TheokitGateways.Matrix
