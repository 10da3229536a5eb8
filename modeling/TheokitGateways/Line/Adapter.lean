import TheokitGateways.Gateway.Adapter
import TheokitGateways.Gateway.Chunk
import TheokitGateways.Line.Normalize
import TheokitGateways.Line.ReplyCache
import TheokitGateways.Transition

/-!
# LINE: the adapter and its runs

`LineState` is the adapter together with what it has under way: calls of `connect`,
webhook batches between two of their events, and sends between two of their
parts. A step is one of these going on, or a call that the application makes;
every order of steps is a run. `trace` records, latest first, what the adapter
did that can be seen from outside.

A reply token is cached under the id of its sender and looked up under the id of
the channel a message goes to. The two ids agree for direct messages only.
-/

namespace TheokitGateways.Line
open Js Gateway

/-- The options the adapter's inbound and outbound paths read. -/
structure LineAdapterOptions where
  botUserId : Option JsString := none
  requireMention : Option Bool := none

/-- Handlers are told apart by identity, as the unsubscribe function does. -/
abbrev Handler := Nat

structure LineAdapter where
  opts : LineAdapterOptions
  replyCache : ReplyTokenCache := .new
  client : Bool := false
  inboundHandler : Option Handler := none
  connected : Bool := false
  warnedAboutFormat : Bool := false

/-- What a client call rejects with, as far as the adapter reads it. -/
structure LineRestError where
  statusCode : Option Nat := none
  status : Option Nat := none
  responseStatus : Option Nat := none
  message : Option JsString := none
  /-- The message of an error, else its text. -/
  text : JsString := []

def mapLineError (e : LineRestError) : SendResult :=
  let status := ((e.statusCode.or e.status).or e.responseStatus).getD 0
  if status = 429 then .failure (js "rate_limit") (e.message.getD (js "LINE rate limit"))
  else if status = 401 ∨ status = 403 then
    .failure (js "permission_denied") (e.message.getD (js "LINE auth error"))
  else if status = 400 then
    .failure (js "invalid_request") (e.message.getD (js "LINE rejected request"))
  else .failure (js "send_failed") (e.message.getD e.text)

/-- How a client call settles. Reading the fields of a rejection can itself throw. -/
inductive ApiOutcome where
  | resolved
  | rejected (e : LineRestError)
  | unreadable

inductive Observed where
  | heard (event : LineMessageEvent)
  | handed (handler : Handler) (event : LineMessageEvent)
  | took (target token : JsString)
  | replied (token text : JsString)
  | pushed (target text : JsString)
  | answered (target : JsString) (result : SendResult)
  | threw (target : JsString)

/-- A batch whose current event is being handled. -/
structure Batch where
  handler : Option Handler
  rest : List (LineWebhookEvent × Option LineMessageEvent)

/-- A send whose part `index` is on its way, with the parts after it. -/
structure Sending where
  target : JsString
  index : Nat
  rest : List JsString

structure LineState where
  adapter : LineAdapter
  /-- Calls of `connect` that have no client yet, and those that wait for `getBotInfo`. -/
  connecting : Nat := 0
  checking : Nat := 0
  batches : List Batch := []
  sends : List Sending := []
  trace : List Observed := []

def passesMentionGuard (a : LineAdapter) (event : LineMessageEvent) : Bool :=
  if event.platform ≠ js "line" then true
  else if !a.opts.requireMention.getD true then true
  else if event.channel.type = .dm then true
  else
    match a.opts.botUserId with
    | none => true
    | some botUserId => event.mentionees.contains botUserId

/-- The first half of `dispatchSingleEvent`: the reply token goes under the sender's id. -/
def LineState.hear (w : LineState) (ev : LineWebhookEvent) (event : LineMessageEvent) (now : Nat) :
    LineState :=
  let replyCache :=
    match ev.replyToken with
    | some token =>
      if event.sender.id ≠ [] then w.adapter.replyCache.put event.sender.id token now
      else w.adapter.replyCache
    | none => w.adapter.replyCache
  { w with
    adapter := { w.adapter with replyCache := replyCache }
    trace := .heard event :: w.trace }

/-- The second half: the handler gets what passes the mention guard. -/
def LineState.hand (w : LineState) (event : LineMessageEvent) (handler : Option Handler) :
    LineState :=
  match handler with
  | some handler =>
    if passesMentionGuard w.adapter event then
      { w with trace := .handed handler event :: w.trace }
    else w
  | none => w

/-- `dispatchSingleEvent` up to its handler's answer. -/
def LineState.dispatchSingleEvent (w : LineState) (ev : LineWebhookEvent)
    (normalized : Option LineMessageEvent) (handler : Option Handler) (now : Nat) : LineState :=
  match normalized with
  | none => w
  | some event => (w.hear ev event now).hand event handler

/-- Goes on with a batch: its next event, if there is one. -/
def LineState.advanceBatch (w : LineState) (batch : Batch) (now : Nat) : LineState :=
  match batch.rest with
  | [] => w
  | (ev, normalized) :: rest =>
    let w := { w with batches := ⟨batch.handler, rest⟩ :: w.batches }
    w.dispatchSingleEvent ev normalized batch.handler now

def LineState.dispatchWebhookBody (w : LineState) (envelope : List LineWebhookEvent) (now : Nat) :
    LineState :=
  let handler := w.adapter.inboundHandler
  let events := envelope.map fun ev => (ev, lineEventToMessageEvent ev now)
  let deliverable := events.any fun e => e.2.any (passesMentionGuard w.adapter)
  if handler = none ∧ deliverable then w
  else w.advanceBatch ⟨handler, events⟩ now

section
-- The runtime's grapheme segmenter.
variable (segment : JsString → List JsString)

/-- `chunkByGrapheme` with one limit: LINE's of code units, which is positive. -/
def splitForLine (text : JsString) (limit : Nat := 5000) : List JsString :=
  graphemeParts segment text limit limit

def LineState.answer (w : LineState) (target : JsString) (result : SendResult) : LineState :=
  { w with trace := .answered target result :: w.trace }

/-- The call for a part that no reply token goes with, or the answer after the last part. -/
def LineState.pushPart (w : LineState) (target : JsString) (index : Nat)
    (messageId : Option JsString) :
    List JsString → LineState
  | [] => w.answer target { ok := true, messageId := messageId }
  | part :: rest =>
    if w.adapter.client then
      { w with
        sends := ⟨target, index, rest⟩ :: w.sends
        trace := .pushed target part :: w.trace }
    else
      w.answer target (.failure (js "send_failed")
        (js "Cannot read properties of undefined (reading 'pushMessage')"))

/-- Says once that a format has nowhere to go. -/
def LineAdapter.warnFormatUnsupported (a : LineAdapter) (format : Option Format) : LineAdapter :=
  match format with
  | none | some .plain => a
  | some _ => { a with warnedAboutFormat := true }

@[simp] theorem warnFormatUnsupported_replyCache (a : LineAdapter) (format : Option Format) :
    (a.warnFormatUnsupported format).replyCache = a.replyCache := by
  cases format with
  | none => rfl
  | some f => cases f <;> rfl

/-- Takes the reply token of a channel, which only the first part can use. -/
def LineState.takeToken (w : LineState) (target : JsString) (now : Nat) : LineState :=
  let (replyCache, token) := w.adapter.replyCache.take target now
  let w := { w with adapter := { w.adapter with replyCache := replyCache } }
  match token with
  | none => w
  | some token => { w with trace := .took target token :: w.trace }

/-- The first client call of a send: the reply API when there is a token. -/
def LineState.sendFirst (w : LineState) (target : JsString) (token : Option JsString) :
    List JsString → LineState
  | [] => w.pushPart target 0 none []
  | part :: rest =>
    match token with
    | none => w.pushPart target 0 none (part :: rest)
    | some token =>
      { w with
        sends := ⟨target, 0, rest⟩ :: w.sends
        trace := .replied token part :: w.trace }

/-- `sendMessage` up to its first client call. -/
def LineState.sendMessage (w : LineState) (out : OutboundMessage) (now : Nat) : LineState :=
  let target := out.channel.id
  if out.text = [] then
    w.answer target (.failure (js "empty_text") (js "outbound text is empty"))
  else if !w.adapter.client then
    w.answer target (.failure (js "not_connected") (js "LineAdapter.connect() not called"))
  else
    let token := w.adapter.replyCache.held target now
    let w := { w with adapter := w.adapter.warnFormatUnsupported out.format }
    (w.takeToken target now).sendFirst target token (splitForLine segment out.text)

/-- What follows when the call for a part settles. -/
def LineState.settlePart (w : LineState) (sending : Sending) (outcome : ApiOutcome) (now : Nat) :
    LineState :=
  match outcome with
  | .resolved =>
    let messageId := js "line-" ++ natText now ++ js "-" ++ natText sending.index
    w.pushPart sending.target (sending.index + 1) (some messageId) sending.rest
  | .rejected e => w.answer sending.target (mapLineError e)
  | .unreadable => { w with trace := .threw sending.target :: w.trace }

/-- Calls of the application, and events that go on with what is under way. `now` is the clock
a step reads. -/
inductive Action where
  | connect
  | clientMade (made : Bool)
  | botInfo (answered : Bool)
  | disconnect
  | onInbound (handler : Handler)
  | unsubscribe (handler : Handler)
  | webhook (envelope : List LineWebhookEvent) (now : Nat)
  | handled (batch : Nat) (now : Nat)
  | reportFailed (batch : Nat)
  | send (out : OutboundMessage) (now : Nat)
  | settled (sending : Nat) (outcome : ApiOutcome) (now : Nat)

def LineState.step (w : LineState) : Action → Option LineState
  | .connect =>
    some (if w.adapter.connected then w else { w with connecting := w.connecting + 1 })
  | .clientMade made =>
    match w.connecting with
    | 0 => none
    | n + 1 =>
      some (if made then
        { w with
          connecting := n
          checking := w.checking + 1
          adapter := { w.adapter with client := true } }
      else { w with connecting := n })
  | .botInfo answered =>
    match w.checking with
    | 0 => none
    | n + 1 =>
      some (if answered then
        { w with checking := n, adapter := { w.adapter with connected := true } }
      else { w with checking := n })
  | .disconnect =>
    some { w with
      adapter := { w.adapter with
        connected := false
        client := false
        inboundHandler := none
        replyCache := w.adapter.replyCache.clear } }
  | .onInbound handler =>
    some { w with adapter := { w.adapter with inboundHandler := some handler } }
  | .unsubscribe handler =>
    some (if w.adapter.inboundHandler = some handler then
      { w with adapter := { w.adapter with inboundHandler := none } } else w)
  | .webhook envelope now => some (w.dispatchWebhookBody envelope now)
  | .handled i now =>
    (w.batches[i]?).map fun batch =>
      LineState.advanceBatch { w with batches := w.batches.eraseIdx i } batch now
  | .reportFailed i => (w.batches[i]?).map fun _ => { w with batches := w.batches.eraseIdx i }
  | .send out now => some (w.sendMessage segment out now)
  | .settled i outcome now =>
    (w.sends[i]?).map fun sending =>
      LineState.settlePart { w with sends := w.sends.eraseIdx i } sending outcome now

end

/-- An adapter that has done nothing yet. -/
def LineState.new (opts : LineAdapterOptions) : LineState := { adapter := { opts := opts } }

end TheokitGateways.Line
