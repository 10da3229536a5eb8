import TheokitGateways.Gateway.MessageEvent
import TheokitGateways.JsonRpc.LineClient

/-!
# Signal: an envelope as an event

`signalEnvelopeToMessageEvent` builds the event for one envelope of `signal-cli`,
unless it carries no message text or names no sender. The envelope is whatever
JSON value the child wrote. Nothing but the ids and the time is made into text,
and only that, or an envelope that is null, can throw.
-/

namespace TheokitGateways.Signal
open Js Gateway JsonRpc

structure SignalFields where
  timestamp : Json
  sourceNumber : Option Json
  sourceUuid : Option Json
  groupId : Option Json
  raw : Json

structure SignalMessageEvent where
  id : JsString
  sender : Json
  displayName : Option Json
  channel : Json
  channelType : ChannelType
  text : JsString
  receivedAt : Nat
  signal : SignalFields

/-- The `channel.id` prefix that marks a Signal group. -/
def GROUP_PREFIX : JsString := js "group."

/-- The message text, unless it is empty. -/
def messageText (envelope : Json) : Option JsString :=
  (optString (optGet (envelope.get (js "dataMessage")) (js "message"))).filter (· ≠ [])

/-- When the sender sent it. -/
def sentAt (envelope : Json) (receivedAt : Nat) : Json :=
  Json.orElse
    (Json.coalesce (envelope.get (js "timestamp"))
      (optGet (envelope.get (js "dataMessage")) (js "timestamp")))
    (.number (.ofInt receivedAt))

def numberOf (envelope : Json) : Option Json :=
  Json.coalesce (envelope.get (js "sourceNumber")) (envelope.get (js "source"))

def senderIdOf (envelope : Json) : Option Json :=
  Json.coalesce (envelope.get (js "sourceUuid")) (numberOf envelope)

def groupIdOf (envelope : Json) : Option Json :=
  optGet (optGet (envelope.get (js "dataMessage")) (js "groupInfo")) (js "groupId")

/-- A group channel when the envelope names a group, else a dm. -/
def channelOf (groupId : Option Json) (dmId : Json) : Except TypeFault (Json × ChannelType) :=
  match groupId with
  | none => .ok (dmId, .dm)
  | some groupId => do return (.string (GROUP_PREFIX ++ (← groupId.interpolate)), .group)

def signalEnvelopeToMessageEvent (envelope : Json) (receivedAt : Nat) :
    Except TypeFault (Option SignalMessageEvent) := do
  let _ ← envelope.read (js "dataMessage")
  match messageText envelope, senderIdOf envelope with
  | some text, some senderId =>
    let timestamp := sentAt envelope receivedAt
    let sender ← senderId.interpolate
    let time ← timestamp.interpolate
    let (channel, channelType) ←
      channelOf (groupIdOf envelope) (Json.orElse (numberOf envelope) senderId)
    return some {
      id := sender ++ js ":" ++ time
      sender := senderId
      displayName := (envelope.get (js "sourceName")).filter Json.truthy
      channel := channel
      channelType := channelType
      text := text
      receivedAt := receivedAt
      signal := {
        timestamp := timestamp
        sourceNumber := numberOf envelope
        sourceUuid := envelope.get (js "sourceUuid")
        groupId := groupIdOf envelope
        raw := envelope } }
  | _, _ => return none

/-- The event for the handler, if the notification is of one. -/
def onNotification (now : Nat) (notification : RpcNotification) :
    Except TypeFault (Option SignalMessageEvent) :=
  if notification.method ≠ js "receive" then .ok none
  else
    match optGet notification.params (js "envelope") with
    | none => .ok none
    | some envelope => signalEnvelopeToMessageEvent envelope now

end TheokitGateways.Signal
