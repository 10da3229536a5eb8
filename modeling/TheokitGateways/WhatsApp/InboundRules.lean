import TheokitGateways.Js.Header
import TheokitGateways.WhatsApp.BackendTypes

/-!
# Which messages reach the agent

The sender allowlist, the addressed number and the mention rule for groups, as
functions of a normalized event. The stderr line of a drop is left out, and so is
the set of foreign numbers that were named there once.
-/

namespace TheokitGateways.WhatsApp
open Js Gateway

/-! ## The allowlist -/

/-- `value.replace(/:[^@]*(?=@)/, "")`. -/
def withoutDevice (value : JsString) : JsString :=
  match cutAt (unit ':') value with
  | some (user, rest) =>
    if unit '@' ∈ rest then user ++ rest.dropWhile (· ≠ unit '@') else value
  | none => value

/-- `value.replace(/@.*$/, "")`: what comes before the first `@` of the last line. -/
def withoutDomain : JsString → JsString
  | [] => []
  | c :: s => if c = unit '@' ∧ !s.any isLineTerminator then [] else c :: withoutDomain s

/-- `s.replace(/\D/g, "")`. -/
def digitsOnly (s : JsString) : JsString := s.filter JsonParser.isDigit

def normalizeWhatsAppId (value : JsString) : JsString :=
  digitsOnly (withoutDomain (withoutDevice value))

def wildcard : JsString := js "*"

/-- The entries of a comma-separated list. A set is the list of its members. -/
def parseAllowedSenders (raw : JsString) : List JsString :=
  (((raw.splitOn (unit ',')).map trim).map fun entry =>
    if entry = wildcard then wildcard else normalizeWhatsAppId entry).filter (· ≠ [])

def isSenderAllowed (senderId : JsString) (allowed : List JsString) : Bool :=
  let normalized := normalizeWhatsAppId senderId
  if normalized = [] then false
  else if allowed = [] then false
  else allowed.contains wildcard || allowed.contains normalized

/-! ## The rules -/

structure InboundRules where
  /-- `none` when no allowlist is configured. -/
  allowedSenders : Option (List JsString)
  requireMention : Bool
  /-- Digits only, empty when unset. -/
  botPhoneId : JsString

/-- A unit of `[\d+\-(). ]`, the blank with or without a break. -/
def isPhoneUnit (c : UInt16) : Bool := JsonParser.isDigit c || (js "+-(). ").contains c || c = 0xA0

/-- The phone-like runs of a text, digits only. -/
def phoneRuns (s : JsString) : List JsString :=
  ((s.splitOnP fun c => !isPhoneUnit c).map digitsOnly).filter (· ≠ [])

def isRefusedBySenderAllowlist (inbound : WhatsAppInboundEvent)
    (allowedSenders : Option (List JsString)) : Bool :=
  if inbound.fromSelf = some true then false
  else
    match allowedSenders with
    | none => false
    | some allowed => !isSenderAllowed inbound.fromPhone allowed

/-- Whether a message or a receipt is for another number than the one that is asked about. -/
def isForAnotherNumber (phoneNumberId : Option JsString) : (own : Option JsString) → Bool
  | none => false
  | some own => phoneNumberId ≠ some own

def shouldDropGroupMessage (inbound : WhatsAppInboundEvent) (requireMention : Bool)
    (botPhoneId : JsString) : Bool :=
  if inbound.conversationType ≠ .group ∨ !requireMention then false
  else if botPhoneId = [] then true
  else !(phoneRuns inbound.text).any fun run => includes botPhoneId run

structure WhatsAppFields where
  wamid : JsString
  phoneNumberId : Option JsString
  contactName : Option JsString
  channelJid : Option JsString
  backend : BackendKind
  raw : Json

structure WhatsAppMessageEvent extends BaseMessageEvent where
  whatsapp : WhatsAppFields

def toMessageEvent (inbound : WhatsAppInboundEvent) : WhatsAppMessageEvent where
  id := inbound.wamid
  platform := js "whatsapp"
  sender := { id := inbound.fromPhone, displayName := inbound.contactName }
  channel := { id := inbound.channelId, type := inbound.conversationType }
  text := inbound.text
  receivedAt := inbound.receivedAt
  whatsapp := {
    wamid := inbound.wamid
    phoneNumberId := inbound.phoneNumberId
    contactName := inbound.contactName
    channelJid := inbound.channelJid
    backend := inbound.backend
    raw := inbound.raw }

def decideInbound (inbound : WhatsAppInboundEvent) (rules : InboundRules) :
    Option WhatsAppMessageEvent :=
  if isRefusedBySenderAllowlist inbound rules.allowedSenders then none
  else if shouldDropGroupMessage inbound rules.requireMention rules.botPhoneId then none
  else some (toMessageEvent inbound)

def decideForOwnNumber (inbound : WhatsAppInboundEvent) (ownPhoneNumberId : Option JsString)
    (rules : InboundRules) : Option WhatsAppMessageEvent :=
  if isForAnotherNumber inbound.phoneNumberId ownPhoneNumberId then none
  else decideInbound inbound rules

def requireOwnPhoneNumberId (ownPhoneNumberId : Option JsString) (method : JsString) :
    Except JsAny JsString :=
  match ownPhoneNumberId with
  | some own => .ok own
  | none => .error (configurationError (js "missing_phone_number_id")
      (js "gateway-whatsapp: " ++ method ++
        js " needs the backend to declare its phoneNumberId. " ++
        js "One Meta app signs every number's webhooks with one secret, so without it this adapter " ++
        js "would deliver every number's messages. Use fromCloud, or expose phoneNumberId on a " ++
        js "backend that wraps WhatsAppCloudBackend."))

example : normalizeWhatsAppId (js "5511:12@s.whatsapp.net") = js "5511" := by decide
example : phoneRuns (js "+55 (11) 9-9, 7") = [js "551199", js "7"] := by decide

end TheokitGateways.WhatsApp
