import TheokitGateways.Gateway.MessageEvent
import TheokitGateways.Js.Convert

/-!
# A Messages row as an event

`imessageRowToMessageEvent` builds the event for one row of `imsg`, unless the
handler must not see it: a row the signed-in account sent, a row with no text, a
row with no chat, guid or sender.
-/

namespace TheokitGateways.IMessage
open Js Gateway

/-- The fields of an `imsg` row that are read. -/
structure IMessageRow where
  /-- The row id, which the cursor resumes after. -/
  id : Int
  chatId : Option JsNumber := none
  guid : Option JsString := none
  sender : Option JsString := none
  isFromMe : Option Bool := none
  text : Option JsString := none
  isGroup : Option Bool := none
  participants : Option (List JsString) := none
  deriving DecidableEq

/-- What the platform adds to an event. -/
structure IMessageFields where
  chatId : JsNumber
  guid : JsString
  isGroup : Bool
  participants : List JsString
  raw : IMessageRow
  deriving DecidableEq

structure IMessageMessageEvent extends BaseMessageEvent where
  imessage : IMessageFields
  deriving DecidableEq

def imessageRowToMessageEvent (row : IMessageRow) (receivedAt : JsNumber) :
    Option IMessageMessageEvent := do
  if row.isFromMe ≠ some false then none
  else
    let text ← row.text
    if text = [] then none
    else
      let chatId ← row.chatId
      let guid ← row.guid
      let sender ← row.sender
      let isGroup := row.isGroup = some true
      some {
        id := guid
        platform := js "imessage"
        sender := { id := sender }
        channel := { id := chatId.toStr, type := if isGroup then .group else .dm }
        text := text
        receivedAt := receivedAt
        imessage := ⟨chatId, guid, isGroup, row.participants.getD [], row⟩ }

end TheokitGateways.IMessage
