import TheokitGateways.Gateway.MessageEvent
import TheokitGateways.Js.Convert

/-!
# Telegram: the two ways an update comes in

A polled update reaches the handler through grammY's context and the adapter's
own rules; an update that arrives by webhook is parsed by `parseInbound` and
handed over by `deliver`. One function, `buildEvent`, makes the event on both
ways. The webhook narrows the fields it passes to it, polling passes them as they
are, and only polling applies the rules on who may write.
-/

namespace TheokitGateways.Telegram
open Js Gateway

/-- `TelegramMessageEvent`. What the mapping copies unchecked is whatever it was given. -/
structure TelegramMessageEvent (ρ : Type) where
  id : JsString
  platform : JsString := js "telegram"
  senderId : JsString
  username : Option Json
  displayName : Option Json
  channelId : JsString
  channelType : ChannelType
  topicId : Option JsString
  text : Json
  receivedAt : JsNumber
  replyTo : Option JsString
  chatId : Option Json
  messageId : Option Json
  threadId : Option Json
  raw : ρ

/-- The event apart from `telegram.raw`. -/
def TelegramMessageEvent.withoutRaw {ρ : Type} (e : TelegramMessageEvent ρ) :
    TelegramMessageEvent Unit :=
  { e with raw := () }

/-- `v` in a template. -/
def templateText : Option Json → Except JsString JsString
  | none => .ok (js "undefined")
  | some v => v.toStr

/-- `v !== undefined ? String(v) : undefined`. -/
def optText : Option Json → Except JsString (Option JsString)
  | none => .ok none
  | some v => v.toStr.map some

/-- `Number(v)`. -/
def numberOf : Option Json → Except JsString JsNumber
  | none => .ok .nan
  | some v => v.toNumber

/-- `String(from?.id ?? fallback)`. -/
def senderIdText (sender : Option Json) (fallback : JsString) : Except JsString JsString :=
  (Json.orElse (optGet sender (js "id")) (.string fallback)).toStr

def messageText (msg : Json) : Json :=
  Json.orElse (msg.get (js "text")) (Json.orElse (msg.get (js "caption")) (.string []))

def channelTypeOf (type threadId : Option Json) : ChannelType :=
  match type with
  | some (.string s) =>
    if s = js "private" then .dm else if threadId.isSome then .thread else .group
  | _ => if threadId.isSome then .thread else .group

/-- The single mapping. The error is the message it throws; no caller has a null message. -/
def buildEvent {ρ : Type} (chat msg : Json) (sender : Option Json) (raw : ρ) :
    Except JsString (TelegramMessageEvent ρ) :=
  match chat with
  | .null => .error (js "Cannot read properties of null (reading 'type')")
  | chat => do
    let threadId := msg.get (js "message_thread_id")
    let chatText ← templateText (chat.get (js "id"))
    let messageText' ← templateText (msg.get (js "message_id"))
    let senderId ← senderIdText sender (js "anonymous")
    let topicId ← optText threadId
    let date ← numberOf (msg.get (js "date"))
    let replyTo ← optText (optGet (msg.get (js "reply_to_message")) (js "message_id"))
    return {
      id := js "tg-" ++ chatText ++ js "-" ++ messageText'
      senderId := senderId
      username := optGet sender (js "username")
      displayName := optGet sender (js "first_name")
      channelId := chatText
      channelType := channelTypeOf (chat.get (js "type")) threadId
      topicId := topicId
      text := messageText msg
      receivedAt := date * 1000
      replyTo := replyTo
      chatId := chat.get (js "id")
      messageId := msg.get (js "message_id")
      threadId := threadId
      raw := raw }

def keepString (v : Option Json) : Option Json := v.filter Json.isString

/-- A number other than an infinity; `NaN` is no JSON value. -/
def isFiniteNumber : Json → Bool
  | .number n => n.isFinite
  | _ => false

def keepNumber (v : Option Json) : Option Json := v.filter isFiniteNumber

/-- The optional fields, each dropped unless it has the type the event declares. -/
def narrowMessage (msg : Json) (messageId date : JsNumber) : Json :=
  .ofOptional
    [(js "message_id", some (.number messageId)),
      (js "date", some (.number date)),
      (js "text", keepString (msg.get (js "text"))),
      (js "caption", keepString (msg.get (js "caption"))),
      (js "message_thread_id", keepNumber (msg.get (js "message_thread_id"))),
      (js "reply_to_message",
        (keepNumber (optGet (msg.get (js "reply_to_message")) (js "message_id"))).map
          fun id => .object [(js "message_id", id)])]

/-- The sender, dropped when it carries no usable id. -/
def narrowSender (value : Option Json) : Option Json :=
  (keepNumber (optGet value (js "id"))).map fun id =>
    .ofOptional
      [(js "id", some id),
        (js "username", keepString (optGet value (js "username"))),
        (js "first_name", keepString (optGet value (js "first_name")))]

/-- What `parseInbound` requires of an update. -/
structure Required where
  message : Json
  messageId : JsNumber
  date : JsNumber
  chatId : JsNumber
  chatType : JsString

/-- A value that is no record has none of the members read here. -/
def readRequired (payload : Json) : Option Required := do
  let msg ← payload.get (js "message")
  match msg.get (js "message_id"), msg.get (js "date") with
  | some (.number messageId), some (.number date) =>
    -- the date in milliseconds is what has to be finite
    if messageId.isFinite ∧ (date * 1000).isFinite then
      let chat ← msg.get (js "chat")
      match chat.get (js "id"), chat.get (js "type") with
      | some (.number chatId), some (.string chatType) =>
        if chatId.isFinite then some ⟨msg, messageId, date, chatId, chatType⟩ else none
      | _, _ => none
    else none
  | _, _ => none

def Required.chat (r : Required) : Json :=
  .object [(js "id", .number r.chatId), (js "type", .string r.chatType)]

/-- `parseInbound`; `none` is its `null`. -/
def parseInbound (payload : Json) : Except JsString (Option (TelegramMessageEvent Json)) :=
  match readRequired payload with
  | none => .ok none
  | some r =>
    (buildEvent r.chat (narrowMessage r.message r.messageId r.date)
      (narrowSender (r.message.get (js "from"))) payload).map some

/-- The adapter as an update meets it. -/
structure TelegramAdapter where
  /-- Whether an inbound handler is registered. -/
  handler : Bool
  allowedUsers : List JsString

/-- grammY's context, as far as the adapter reads it. -/
structure Context where
  message : Option Json
  chat : Option Json
  sender : Option Json

/-- `ctx.from?.is_bot === true`. -/
def isBot (sender : Option Json) : Bool :=
  match optGet sender (js "is_bot") with
  | some (.bool true) => true
  | _ => false

def normalizeEvent (ctx : Context) : Except JsString (Option (TelegramMessageEvent Context)) :=
  match ctx.chat, ctx.message with
  | some chat, some msg => (buildEvent chat msg ctx.sender ctx).map some
  | _, _ => .ok none

/-- The event `handleInbound` gives the handler; the error is the message it rejects with. -/
def handleInbound (a : TelegramAdapter) (ctx : Context) :
    Except JsString (Option (TelegramMessageEvent Context)) :=
  if !a.handler then .ok none
  else if isBot ctx.sender then .ok none
  else if a.allowedUsers ≠ [] then do
    let senderId ← senderIdText ctx.sender []
    if senderId ∈ a.allowedUsers then normalizeEvent ctx else .ok none
  else normalizeEvent ctx

/-- The event `deliver` gives the handler. -/
def deliver {ρ : Type} (a : TelegramAdapter) (event : TelegramMessageEvent ρ) :
    Option (TelegramMessageEvent ρ) :=
  if a.handler then some event else none

/-- What reaches the handler of an update that arrives by webhook. -/
def webhooked (a : TelegramAdapter) (update : Json) : Option (TelegramMessageEvent Unit) :=
  match parseInbound update with
  | .ok (some event) => (deliver a event).map (·.withoutRaw)
  | _ => none

/-- What reaches it of a polled update, given the context `bot.on("message")` makes. -/
def polled (a : TelegramAdapter) (context : Json → Option Context) (update : Json) :
    Option (TelegramMessageEvent Unit) :=
  match context update with
  | none => none
  | some ctx =>
    match handleInbound a ctx with
    | .ok (some event) => some event.withoutRaw
    | _ => none

end TheokitGateways.Telegram
