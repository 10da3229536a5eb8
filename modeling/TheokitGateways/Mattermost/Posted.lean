import TheokitGateways.Gateway.Dialect
import TheokitGateways.Gateway.MessageEvent
import TheokitGateways.Js.Members
import TheokitGateways.Js.Occurrence
import TheokitGateways.Js.OrderedMap

/-!
# Mattermost: one posted event

What the listener of the websocket does with one message: the post is parsed, its
channel looked up, the rules asked whether the bot should respond, and the handler
called. The post's own fields are checked when it is parsed, its `metadata` is
not, and stays a JSON value; a `mentions` in it that has no `includes` makes the
rules throw.
-/

namespace TheokitGateways.Mattermost
open Js Gateway

structure MattermostPost where
  id : JsString
  userId : JsString
  channelId : JsString
  rootId : JsString
  message : JsString
  createAt : JsNumber
  metadata : Option Json

structure MattermostChannel where
  id : JsString
  teamId : JsString
  type : JsString
  deriving DecidableEq

structure WSMessage where
  event : JsString
  data : Option Json

/-- What `connectMattermost` returns, without the client and the websocket. -/
structure ClientHandle where
  botUserId : JsString
  botUsername : JsString
  channelCache : OrderedMap JsString MattermostChannel := .empty

/-! ## The post and its channel -/

/-- `none` when the text is no JSON or a field that has to be a string is none. -/
def parsePostFromWS (msg : WSMessage) : Option MattermostPost := do
  let raw ← optString (optGet msg.data (js "post"))
  let parsed ← jsonParse raw
  let id ← optString (parsed.get (js "id"))
  let userId ← optString (parsed.get (js "user_id"))
  let channelId ← optString (parsed.get (js "channel_id"))
  let message ← optString (parsed.get (js "message"))
  return {
    id := id
    userId := userId
    channelId := channelId
    rootId := (optString (parsed.get (js "root_id"))).getD []
    message := message
    createAt :=
      match parsed.get (js "create_at") with
      | some (.number n) => n
      | _ => 0
    metadata := parsed.get (js "metadata") }

/-- `fetched` is what `getChannel` answers, `none` when it fails. Of 200 channels the oldest is
dropped. -/
def getChannelCached (handle : ClientHandle) (channelId : JsString)
    (fetched : Option MattermostChannel) : Option MattermostChannel × ClientHandle :=
  match handle.channelCache.get channelId with
  | some cached => (some cached, handle)
  | none =>
    match fetched with
    | none => (none, handle)
    | some channel =>
      let kept :=
        if 200 ≤ handle.channelCache.size then
          match handle.channelCache.firstKey with
          | some firstKey => handle.channelCache.delete firstKey
          | none => handle.channelCache
        else handle.channelCache
      (some channel, { handle with channelCache := kept.set channelId channel })

def normalizeMattermostType (channel : Option MattermostChannel) : JsString :=
  (channel.map MattermostChannel.type).getD (js "O")

/-- A reply in a thread is one whatever channel it sits in. -/
def mapChannelType (rawType : JsString) (hasRootId : Bool) : ChannelType :=
  if hasRootId then .thread
  else if rawType = js "D" then .dm
  else .group

/-! ## The rules -/

/-- `\w`, for a character. -/
def isWord : JsString → Bool
  | [u] => isWordUnit u
  | _ => false

/-- `(^|[^\w])` before a mention and `(?![\w.])` after it. -/
def mentionBoundary : Boundary JsString where
  behind prev := !prev.any isWord
  ahead after := !after.head?.any fun ch => isWord ch || ch = js "."

/-- `@` and the username, as characters: the pattern has the flag `u`. -/
def mentionWord (botUsername : JsString) : List JsString := js "@" :: characters botUsername

def hasMentionWithBoundary (text botUsername : JsString) : Bool :=
  mentionBoundary.search (mentionWord botUsername) (characters text)

/-- `mentions?.includes(botUserId) ?? false`; the error is a `TypeError`. -/
def mentionsInclude (mentions : Option Json) (botUserId : JsString) : Except JsString Bool :=
  match mentions with
  | none | some .null => .ok false
  | some (.array items) => .ok (items.any fun item => Json.isText (some item) botUserId)
  | some (.string s) => .ok (includes botUserId s)
  | some _ => .error (js "post.metadata?.mentions?.includes is not a function")

def shouldRespond (post : MattermostPost) (channelType : ChannelType)
    (botUserId botUsername : JsString) (requireMention : Bool) : Except JsString Bool :=
  if post.userId = botUserId then .ok false
  else if channelType = .dm then .ok true
  else if !requireMention then .ok true
  else do
    let mentioned ← mentionsInclude (optGet post.metadata (js "mentions")) botUserId
    return mentioned ||
      (botUsername ≠ [] && hasMentionWithBoundary post.message botUsername)

/-! ## The event -/

/-- The block of fields only Mattermost has. -/
structure MattermostFields where
  postId : JsString
  channelId : JsString
  teamId : JsString
  rootId : Option JsString
  channelType : JsString
  raw : MattermostPost

structure MattermostMessageEvent extends BaseMessageEvent where
  mattermost : MattermostFields

def postToMessageEvent (post : MattermostPost) (channel : Option MattermostChannel)
    (senderUsername : Option JsString) (now : JsNumber) : MattermostMessageEvent :=
  let rawType := normalizeMattermostType channel
  let channelType := mapChannelType rawType (post.rootId ≠ [])
  { id := post.id
    platform := js "mattermost"
    sender := { id := post.userId, username := senderUsername }
    channel :=
      { id := post.channelId, type := channelType,
        topicId := if channelType = .thread then some post.rootId else none }
    text := post.message
    receivedAt := if JsNumber.lt 0 post.createAt then post.createAt else now
    mattermost :=
      { postId := post.id
        channelId := post.channelId
        teamId := (channel.map MattermostChannel.teamId).getD []
        rootId := if post.rootId ≠ [] then some post.rootId else none
        channelType := rawType
        raw := post } }

/-- `sender_name` without an `@` in front. -/
def senderUsername (msg : WSMessage) : Option JsString :=
  (optString (optGet msg.data (js "sender_name"))).map fun name =>
    if name.head? = some (unit '@') then name.drop 1 else name

/-- What a message leaves: the handle, the event the handler is called with, and what is written
to stderr unless the handler throws. -/
structure Processed where
  handle : ClientHandle
  called : Option MattermostMessageEvent := none
  log : Option JsString := none

section
variable (requireMention : Option Bool) (handler : Bool) (now : JsNumber)

/-- The rules are asked after the channel was looked up, and then whether there is a handler. -/
def processPost (post : MattermostPost) (channel : Option MattermostChannel) (handle : ClientHandle)
    (msg : WSMessage) : Processed :=
  let channelType := mapChannelType (normalizeMattermostType channel) (post.rootId ≠ [])
  match shouldRespond post channelType handle.botUserId handle.botUsername
      (requireMention.getD true) with
  | .error thrown =>
    { handle := handle
      log := some (js "[gateway-mattermost] processPostedEvent failed: " ++ thrown ++ js "\n") }
  | .ok responds =>
    { handle := handle
      called :=
        if responds && handler then
          some (postToMessageEvent post channel (senderUsername msg) now)
        else none }

def processPostedEvent (handle : ClientHandle) (fetched : Option MattermostChannel)
    (msg : WSMessage) : Processed :=
  match parsePostFromWS msg with
  | none => { handle := handle }
  | some post =>
    let (channel, handle) := getChannelCached handle post.channelId fetched
    processPost requireMention handler now post channel handle msg

/-- The listener `attachWsListener` adds. -/
def wsListener (handle : ClientHandle) (fetched : Option MattermostChannel) (msg : WSMessage) :
    Processed :=
  if msg.event = js "posted" then
    processPostedEvent requireMention handler now handle fetched msg
  else { handle := handle }

end

end TheokitGateways.Mattermost
