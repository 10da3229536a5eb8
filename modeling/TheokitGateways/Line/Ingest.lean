import TheokitGateways.Js.Members
import TheokitGateways.Line.Adapter

/-!
# LINE: a payload nobody has checked

`lineChannel.webhook.ingest` casts what it is given to a batch of webhook events.
Here a payload is any JSON value, and every read of it does what the language
does with a value of another type than the one declared.
-/

namespace TheokitGateways.Line.Ingest
open Js Gateway

/-- What `ingest` rejects with. -/
inductive Fault where
  /-- Reading the payload threw. -/
  | payload (fault : TypeFault)
  /-- The text of what a handler threw did. -/
  | handler (err : JsAny)

structure LineJsonEvent where
  id : Json
  sender : Json
  channel : Json
  channelType : ChannelType
  text : Json
  receivedAt : Json
  sourceType : Option Json
  sourceId : Json
  messageId : Json
  mentionees : List Json
  replyToken : Option Json
  raw : Json

/-- The members of a source that name who spoke and where. -/
structure SourceIds where
  userId : Option Json
  groupId : Option Json
  roomId : Option Json

namespace SourceIds

def read (source : Json) : Except TypeFault SourceIds := do
  let userId ← source.read (js "userId")
  let groupId ← source.read (js "groupId")
  let roomId ← source.read (js "roomId")
  return ⟨userId, groupId, roomId⟩

def sourceId (ids : SourceIds) : Option Json :=
  Json.coalesce (Json.coalesce ids.userId ids.groupId) ids.roomId

def channelId (ids : SourceIds) (sourceId : Json) : Json :=
  Json.orElse (Json.coalesce (Json.coalesce ids.groupId ids.roomId) ids.userId) sourceId

def sender (ids : SourceIds) (sourceId : Json) : Json := ids.userId.getD sourceId

end SourceIds

/-- The user id of a mention, if it is a nonempty one. -/
def mentioneeId (m : Json) : Except TypeFault (Option Json) := do
  match ← m.read (js "userId") with
  | none => return none
  | some userId => return if ← Json.isPositive (← userId.readLength) then some userId else none

def mentioneeIds (message : Json) : Except TypeFault (List Json) := do
  let mentionees ← message.read (js "mentionees")
  let items ← (Json.orElse mentionees (.array [])).iterate
  return (← items.mapM mentioneeId).filterMap id

/-- `message.id`, else a text made of the time. -/
def eventId (event message : Json) (now : Nat) : Except TypeFault Json := do
  match Json.coalesce (← message.read (js "id")) none with
  | some id => return id
  | none =>
    let timestamp := Json.orElse (event.get (js "timestamp")) (.number (.ofInt now))
    return .string (js "line-" ++ (← timestamp.interpolate))

/-- The event for a text message from a source with an id. -/
def messageEvent (event message source : Json) (ids : SourceIds) (sourceId : Json) (now : Nat) :
    Except TypeFault LineJsonEvent := do
  let sourceType := source.get (js "type")
  let mentionees ← mentioneeIds message
  let id ← eventId event message now
  return {
    id := id
    sender := ids.sender sourceId
    channel := ids.channelId sourceId
    -- A type that is no string is not `"user"` either.
    channelType := (optString sourceType).elim .group mapSourceType
    text := Json.orElse (message.get (js "text")) (.string [])
    receivedAt := Json.orElse (event.get (js "timestamp")) (.number (.ofInt now))
    sourceType := sourceType
    sourceId := sourceId
    messageId := Json.orElse (message.get (js "id")) (.string [])
    mentionees := mentionees
    replyToken := event.get (js "replyToken")
    raw := event }

/-- The event for a text message from a source, if the source has an id. -/
def sourceEvent (event message source : Json) (now : Nat) :
    Except TypeFault (Option LineJsonEvent) := do
  let ids ← SourceIds.read source
  match ids.sourceId with
  | none => return none
  | some sourceId =>
    if Json.isZero (← sourceId.readLength) then return none
    return some (← messageEvent event message source ids sourceId now)

/-- `now` is what `Date.now()` answers. -/
def lineEventToMessageEvent (event : Json) (now : Nat) :
    Except TypeFault (Option LineJsonEvent) := do
  if !Json.isText (event.get (js "type")) (js "message") then return none
  match event.get (js "message") with
  | none => return none
  | some message =>
    if !Json.isText (← message.read (js "type")) (js "text") then return none
    match event.get (js "source") with
    | none => return none
    | some source => sourceEvent event message source now

def passesMentionGuard (opts : LineAdapterOptions) (event : LineJsonEvent) : Bool :=
  if !opts.requireMention.getD true then true
  else if event.channelType = .dm then true
  else
    match opts.botUserId with
    | none => true
    | some botUserId => event.mentionees.any fun m => Json.isText (some m) botUserId

/-- What a batch did: the reply tokens it put into the cache, each with its key, and the
events it handed to the handler. -/
structure Done where
  cached : List (Json × Json) := []
  handed : List (Handler × LineJsonEvent) := []

/-- The reply token goes under the sender's id, unless that is empty. -/
def cacheReplyToken (batch : Done) (event : LineJsonEvent) : Except TypeFault Done :=
  match event.replyToken with
  | none => .ok batch
  | some token => do
    if ← Json.isPositive (← event.sender.readLength) then
      return { batch with cached := batch.cached ++ [(event.sender, token)] }
    else return batch

section
variable (opts : LineAdapterOptions) (handler : Option Handler)
  -- How each call of the handler settles.
  (results : Nat → Except JsAny Unit)

/-- The handler gets what passes the mention guard; what it throws is written out. -/
def hand (batch : Done) (event : LineJsonEvent) : Done × Except Fault Unit :=
  match handler with
  | none => (batch, .ok ())
  | some handler =>
    if passesMentionGuard opts event then
      let after := { batch with handed := batch.handed ++ [(handler, event)] }
      match results batch.handed.length with
      | .ok () => (after, .ok ())
      | .error err => (after, ((thrownText err).map fun _ => ()).mapError .handler)
    else (batch, .ok ())

def dispatchSingleEvent (batch : Done) (normalized : Option LineJsonEvent) :
    Done × Except Fault Unit :=
  match normalized with
  | none => (batch, .ok ())
  | some event =>
    match cacheReplyToken batch event with
    | .error fault => (batch, .error (.payload fault))
    | .ok batch => hand opts handler results batch event

def dispatchEvents : Done → List (Option LineJsonEvent) → Done × Except Fault Unit
  | batch, [] => (batch, .ok ())
  | batch, normalized :: rest =>
    match dispatchSingleEvent opts handler results batch normalized with
    | (batch, .error fault) => (batch, .error fault)
    | (batch, .ok ()) => dispatchEvents batch rest

inductive DispatchResult where
  | ok | noHandler
  deriving DecidableEq

def dispatchWebhookBody (envelope : List Json) (now : Nat) : Done × Except Fault DispatchResult :=
  match envelope.mapM fun ev => lineEventToMessageEvent ev now with
  | .error fault => ({}, .error (.payload fault))
  | .ok events =>
    if handler.isNone && events.any (·.any (passesMentionGuard opts)) then ({}, .ok .noHandler)
    else
      let (batch, result) := dispatchEvents opts handler results {} events
      (batch, result.map fun _ => .ok)

/-- The events of a payload that is an envelope. -/
def envelopeOf (payload : Json) : Option (List Json) :=
  match payload.get (js "events") with
  | some (.array events) => if events.all Json.isObjectLike then some events else none
  | _ => none

inductive IngestResult where
  | delivered | malformed | noHandler
  deriving DecidableEq

/-- `ingest`: what it does, and how it settles. -/
def ingest (payload : Json) (now : Nat) : Done × Except Fault IngestResult :=
  match envelopeOf payload with
  | none => ({}, .ok .malformed)
  | some envelope =>
    let (batch, result) := dispatchWebhookBody opts handler results envelope now
    (batch, result.map fun outcome => if outcome = .noHandler then .noHandler else .delivered)

end

end TheokitGateways.Line.Ingest
