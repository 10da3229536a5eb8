import TheokitGateways.Gateway.MessageEvent
import TheokitGateways.Js.Convert

/-!
# LINE: from a webhook event to a message event

Only a text message with a source becomes an event. The sender is the user id
when LINE gives one; the channel is the group, the room or, failing both, the
user. In a direct message the two are therefore the same id.
-/

namespace TheokitGateways.Line
open Js Gateway

structure LineSource where
  type : JsString
  userId : Option JsString := none
  groupId : Option JsString := none
  roomId : Option JsString := none

structure LineMessage where
  type : JsString
  id : Option JsString := none
  text : Option JsString := none
  /-- The user id of each mention, when it has one. -/
  mentionees : List (Option JsString) := []

structure LineWebhookEvent where
  type : JsString
  timestamp : Option JsNumber := none
  source : Option LineSource := none
  replyToken : Option JsString := none
  message : Option LineMessage := none

structure LineMessageEvent extends BaseMessageEvent where
  sourceType : JsString
  sourceId : JsString
  messageId : JsString
  mentionees : List JsString
  replyToken : Option JsString
  raw : LineWebhookEvent

def mapSourceType (sourceType : JsString) : ChannelType :=
  if sourceType = js "user" then .dm else .group

/-- The id a source goes by; an empty one is no id. -/
def LineSource.sourceId (source : LineSource) : Option JsString :=
  match (source.userId.or source.groupId).or source.roomId with
  | some (c :: cs) => some (c :: cs)
  | _ => none

/-- `now` is what `Date.now()` answers. -/
def lineEventToMessageEvent (event : LineWebhookEvent) (now : Nat) : Option LineMessageEvent :=
  if event.type ≠ js "message" then none
  else
    match event.message, event.source with
    | some message, some source =>
      if message.type ≠ js "text" then none
      else
        source.sourceId.map fun sourceId =>
          let channelId := ((source.groupId.or source.roomId).or source.userId).getD sourceId
          let receivedAt := event.timestamp.getD (.ofInt now)
          { id := message.id.getD (js "line-" ++ receivedAt.toStr)
            platform := js "line"
            sender := { id := source.userId.getD sourceId }
            channel := { id := channelId, type := mapSourceType source.type }
            text := message.text.getD []
            receivedAt := receivedAt
            sourceType := source.type
            sourceId := sourceId
            messageId := message.id.getD []
            mentionees := message.mentionees.filterMap fun userId => userId.filter (· ≠ [])
            replyToken := event.replyToken
            raw := event }
    | _, _ => none

/-- An event goes out under a nonempty sender id. -/
theorem sender_ne_nil {event : LineWebhookEvent} {now : Nat} {e : LineMessageEvent}
    (h : lineEventToMessageEvent event now = some e) : e.sender.id ≠ [] := by
  simp only [lineEventToMessageEvent, Option.ite_none_left_eq_some] at h
  obtain ⟨_, h⟩ := h
  split at h
  · rename_i message source hm hs
    simp only [Option.ite_none_left_eq_some, Option.map_eq_some_iff] at h
    obtain ⟨_, sourceId, hid, rfl⟩ := h
    simp only [LineSource.sourceId] at hid
    split at hid
    · rename_i c cs heq
      obtain ⟨⟩ := hid
      cases hu : source.userId with
      | none => simp
      | some u => simp_all
    · simp at hid
  · simp at h

end TheokitGateways.Line
