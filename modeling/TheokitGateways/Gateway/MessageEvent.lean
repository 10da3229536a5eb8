import TheokitGateways.Js.Text
import TheokitGateways.Js.Number

/-!
# The canonical inbound event

`BaseMessageEvent` holds the fields every platform's event shares. The fields a
platform adds stay with that platform's adapter. `platform` is a string: the
registry the source derives it from is open to other packages.
-/

namespace TheokitGateways.Gateway
open Js

inductive ChannelType where
  | dm | group | thread
  deriving DecidableEq

structure Sender where
  id : JsString
  username : Option JsString := none
  displayName : Option JsString := none
  deriving DecidableEq

structure Channel where
  id : JsString
  type : ChannelType
  topicId : Option JsString := none
  deriving DecidableEq

structure BaseMessageEvent where
  id : JsString
  platform : JsString
  sender : Sender
  channel : Channel
  text : JsString
  receivedAt : JsNumber
  replyTo : Option JsString := none
  deriving DecidableEq

/-- The platforms the registry declares. -/
def platformNames : List JsString :=
  [js "telegram", js "discord", js "slack", js "whatsapp", js "teams", js "email", js "sms",
    js "mattermost", js "line", js "matrix", js "signal", js "imessage", js "google_chat",
    js "irc", js "nextcloud_talk"]

end TheokitGateways.Gateway
