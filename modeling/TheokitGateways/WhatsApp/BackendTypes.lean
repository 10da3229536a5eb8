import TheokitGateways.Gateway.MessageEvent
import TheokitGateways.Js.Any
import TheokitGateways.Js.Json

/-!
# What passes between a WhatsApp backend and the adapter

Every backend normalizes what its platform sends to a `WhatsAppInboundEvent`.
The raw envelope is kept as the JSON value it was read from.
-/

namespace TheokitGateways.WhatsApp
open Js Gateway

/-- Handlers are told apart by identity, as the unsubscribe functions do. -/
abbrev Handler := Nat

inductive BackendKind where
  | cloud | web | baileys
  deriving DecidableEq

structure WhatsAppInboundEvent where
  wamid : JsString
  fromPhone : JsString
  phoneNumberId : Option JsString := none
  contactName : Option JsString := none
  conversationType : ChannelType
  channelId : JsString
  channelJid : Option JsString := none
  text : JsString
  receivedAt : JsNumber
  /-- Absent means that somebody else wrote it. -/
  fromSelf : Option Bool := none
  backend : BackendKind
  raw : Json

structure WhatsAppStatusReceipt where
  wamid : JsString
  status : JsString
  recipient : JsString
  timestamp : JsNumber
  phoneNumberId : Option JsString := none

structure WhatsAppOutboundMessage where
  /-- `to`. -/
  recipient : JsString
  isGroup : Bool
  text : JsString

structure WhatsAppError where
  code : JsString
  message : JsString
  deriving DecidableEq

structure WhatsAppSendResult where
  ok : Bool
  wamid : Option JsString := none
  error : Option WhatsAppError := none
  deriving DecidableEq

/-- `{ ok: false, error: { code, message } }`. -/
def WhatsAppSendResult.failure (code message : JsString) : WhatsAppSendResult :=
  { ok := false, error := some ⟨code, message⟩ }

/-- A `ConfigurationError` of this package. -/
def configurationError (code message : JsString) : JsAny :=
  .ofMembers .plain true
    [(js "name", .string (js "ConfigurationError")), (js "code", .string code),
      (js "message", .string message)]
    (js "ConfigurationError: " ++ message)

end TheokitGateways.WhatsApp
