import TheokitGateways.WhatsApp.CloudBackend

/-!
# The WhatsApp adapter over its backend

What the adapter makes of the events a backend hands to its bridge, and of an
envelope that a route hands to `toDeliverableEvents`. `delivered` is what a bridge
passed on for a webhook call.
-/

namespace TheokitGateways.WhatsApp
open Js Gateway

structure WhatsAppAdapterCommonOptions where
  requireMention : Option Bool := none
  botPhoneId : Option JsString := none
  /-- Comma-separated; an empty text admits nobody. -/
  allowedSenders : Option JsString := none

structure WhatsAppAdapter where
  /-- The number that the backend declares. -/
  ownPhoneNumberId : Option JsString
  rules : InboundRules

namespace WhatsAppAdapter

/-- The constructor. -/
def new (phoneNumberId : Option JsString) (opts : WhatsAppAdapterCommonOptions) :
    WhatsAppAdapter where
  ownPhoneNumberId := phoneNumberId
  rules := {
    requireMention := opts.requireMention.getD true
    botPhoneId := digitsOnly (opts.botPhoneId.getD [])
    allowedSenders := opts.allowedSenders.map parseAllowedSenders }

def fromCloud (phoneNumberId : JsString) (opts : WhatsAppAdapterCommonOptions) : WhatsAppAdapter :=
  new (some phoneNumberId) { opts with botPhoneId := some (opts.botPhoneId.getD phoneNumberId) }

def decide (adapter : WhatsAppAdapter) (inbound : WhatsAppInboundEvent) :
    Option WhatsAppMessageEvent :=
  decideForOwnNumber inbound adapter.ownPhoneNumberId adapter.rules

def toDeliverableEvent (adapter : WhatsAppAdapter) (inbound : WhatsAppInboundEvent) :
    Except JsAny (Option WhatsAppMessageEvent) := do
  if inbound.backend = .cloud then
    let _ ← requireOwnPhoneNumberId adapter.ownPhoneNumberId (js "toDeliverableEvent")
  return adapter.decide inbound

/-- What normalizing throws is a `TypeError`. -/
def toDeliverableEvents (adapter : WhatsAppAdapter) (envelope : MetaWebhookEnvelope)
    (now : JsNumber) : Except JsAny (List WhatsAppMessageEvent) := do
  let _ ← requireOwnPhoneNumberId adapter.ownPhoneNumberId (js "toDeliverableEvents")
  let inbounds ← (normalizeInboundMessages envelope now).mapError Call.typeError
  collect (fun inbound => (adapter.toDeliverableEvent inbound).map Option.toList) inbounds

/-- What the bridge of a handler passes on to it for a webhook call. -/
def delivered (adapter : WhatsAppAdapter) (bridge : Handler) (c : Call) :
    List WhatsAppMessageEvent :=
  (c.handed.filter (·.1 = bridge)).filterMap fun p => adapter.decide p.2

end WhatsAppAdapter

/-- A timestamp that gives a time. -/
def givesTime : Option Json → Bool
  | none => false
  | some timestamp =>
    match timestamp.toNumber with
    | .ok n => n * 1000 ≠ .nan ∧ n * 1000 ≠ 0
    | .error _ => false

/-- An event without the reading of the clock it holds, if it holds one. -/
def WhatsAppMessageEvent.withoutClock (e : WhatsAppMessageEvent) : WhatsAppMessageEvent :=
  if givesTime (e.whatsapp.raw.get (js "timestamp")) then e else { e with receivedAt := 0 }

end TheokitGateways.WhatsApp
