import TheokitGateways.Gateway.Adapter
import TheokitGateways.Js.Bytes
import TheokitGateways.Transition
import TheokitGateways.WhatsApp.Envelope
import TheokitGateways.WhatsApp.InboundRules

/-!
# The WhatsApp Cloud backend and its webhooks

A webhook is a call of `handleWebhookPayload`. It is refused or accepted as it
comes in, and what it accepted is then handed over one item at a time, each
waiting for the handler of the one before; calls and whatever the application
does come between. `handed` and `confirmed` record, in order, what went to the
handlers for a call. What the backend writes to stderr is left out.
-/

namespace TheokitGateways.WhatsApp
open Js Gateway

structure WhatsAppCloudBackendOptions where
  phoneNumberId : JsString
  appSecret : JsString

/-- `Buffer.from(s, "hex")`. -/
def hexDecode : JsString → List UInt8
  | a :: b :: s =>
    match JsonParser.hexDigit a, JsonParser.hexDigit b with
    | some x, some y => (x * 16 + y).toUInt8 :: hexDecode s
    | _, _ => []
  | _ => []

/-- What an empty secret is answered with. -/
def secretRequired : JsAny :=
  configurationError (js "missing_option")
    (js "gateway-whatsapp: appSecret is required to verify a webhook signature and must not be " ++
      js "empty; an HMAC under an empty key is computable by anyone.")

/-- The bytes that were signed. -/
def bodyBytes (rawBody : JsString ⊕ List UInt8) : List UInt8 := rawBody.elim utf8Encode id

def bodyText (rawBody : JsString ⊕ List UInt8) : JsString := rawBody.elim id utf8Decode

section
-- The runtime's HMAC-SHA256 of bytes under a secret.
variable (hmacSha256 : JsString → List UInt8 → List UInt8)

def verifyWebhookSignature (rawBody : JsString ⊕ List UInt8) (signatureHeader : Option JsString)
    (appSecret : JsString) : Except JsAny Bool :=
  if trim appSecret = [] then .error secretRequired
  else
    match signatureHeader with
    | none => .ok false
    | some header =>
      let receivedHex := header.drop (js "sha256=").length
      if !(js "sha256=").isPrefixOf header then .ok false
      else if receivedHex = [] ∨ receivedHex.any (fun c => (JsonParser.hexDigit c).isNone) then
        .ok false
      else .ok (hexDecode receivedHex = hmacSha256 appSecret (bodyBytes rawBody))

end

/-- What a call does next, or waits for. -/
inductive Stage where
  /-- The next message goes to the handler. -/
  | inbound (handler : Handler) (rest : List WhatsAppInboundEvent)
  /-- The handler is running. -/
  | handling (handler : Handler) (rest : List WhatsAppInboundEvent)
  /-- The messages are done. -/
  | statuses
  | receipts (rest : List WhatsAppStatusReceipt)
  /-- The status handler is running. -/
  | confirming (rest : List WhatsAppStatusReceipt)
  | settled (answer : Except JsAny Bool)

/-- A payload that was accepted: its envelope, the clock and the handler subscribed then. -/
structure Accepted where
  envelope : MetaWebhookEnvelope
  now : JsNumber
  handler : Option Handler

/-- A call of `handleWebhookPayload`. -/
structure Call where
  accepted : Option Accepted := none
  stage : Stage
  handed : List (Handler × WhatsAppInboundEvent) := []
  confirmed : List (Handler × WhatsAppStatusReceipt) := []

namespace Call

def refused : Call := { stage := .settled (.ok false) }

def rejected (err : JsAny) : Call := { stage := .settled (.error err) }

/-- What normalizing throws. -/
def typeError (message : JsString) : JsAny := .error (js "TypeError") message

section
variable (hmacSha256 : JsString → List UInt8 → List UInt8) (opts : WhatsAppCloudBackendOptions)

/-- A signed envelope is accepted, unless it holds messages and nobody is subscribed. -/
def accept (envelope : MetaWebhookEnvelope) (now : JsNumber) (inboundHandler : Option Handler) :
    Call :=
  match normalizeInboundMessages envelope now with
  | .error message => rejected (typeError message)
  | .ok events =>
    let messages :=
      events.filter fun e => !isForAnotherNumber e.phoneNumberId (some opts.phoneNumberId)
    match inboundHandler with
    | none =>
      if messages ≠ [] then refused
      else { accepted := some ⟨envelope, now, none⟩, stage := .statuses }
    | some handler =>
      { accepted := some ⟨envelope, now, some handler⟩, stage := .inbound handler messages }

/-- `handleWebhookPayload` up to its first await. -/
def handleWebhookPayload (rawBody : JsString ⊕ List UInt8) (signatureHeader : Option JsString)
    (now : JsNumber) (inboundHandler : Option Handler) : Call :=
  match verifyWebhookSignature hmacSha256 rawBody signatureHeader opts.appSecret with
  | .error err => rejected err
  | .ok false => refused
  | .ok true =>
    match (jsonParse (bodyText rawBody)).bind parseWebhookPayload with
    | none => refused
    | some envelope => accept opts envelope now inboundHandler

/-- `dispatchStatusReceipts` hands the next receipt over, or skips it. -/
def dispatchStatusReceipt (c : Call) (statusHandler : Option Handler)
    (receipt : WhatsAppStatusReceipt) (rest : List WhatsAppStatusReceipt) : Call :=
  match statusHandler with
  | none => { c with stage := .receipts rest }
  | some handler =>
    if isForAnotherNumber receipt.phoneNumberId (some opts.phoneNumberId) then
      { c with stage := .receipts rest }
    else
      { c with stage := .confirming rest, confirmed := c.confirmed ++ [(handler, receipt)] }

/-- The call goes on when it waits for no handler. -/
def go (c : Call) (statusHandler : Option Handler) (now : JsNumber) : Option Call :=
  match c.stage with
  | .inbound handler (event :: rest) =>
    some { c with stage := .handling handler rest, handed := c.handed ++ [(handler, event)] }
  | .inbound _ [] => some { c with stage := .statuses }
  | .statuses =>
    match c.accepted.map fun a => normalizeStatusReceipts a.envelope now with
    | some (.ok receipts) => some { c with stage := .receipts receipts }
    | some (.error message) => some { c with stage := .settled (.error (typeError message)) }
    | none => none
  | .receipts (receipt :: rest) => some (dispatchStatusReceipt opts c statusHandler receipt rest)
  | .receipts [] => some { c with stage := .settled (.ok true) }
  | .handling .. | .confirming .. | .settled _ => none

/-- `dispatchContained` once its callback has settled: what it threw is printed. -/
def contained (settled : Except JsAny Unit) : Except JsAny Unit :=
  match settled with
  | .ok () => .ok ()
  | .error err => (thrownText err).map fun _ => ()

/-- The handler that runs has settled. -/
def settle (c : Call) (settled : Except JsAny Unit) : Option Call :=
  match c.stage, contained settled with
  | .handling handler rest, .ok () => some { c with stage := .inbound handler rest }
  | .confirming rest, .ok () => some { c with stage := .receipts rest }
  | .handling .., .error err | .confirming _, .error err =>
    some { c with stage := .settled (.error err) }
  | _, _ => none

end

end Call

structure WhatsAppCloudBackend where
  inboundHandler : Option Handler := none
  statusHandler : Option Handler := none
  calls : List Call := []

inductive Action where
  | handleWebhookPayload (rawBody : JsString ⊕ List UInt8) (signatureHeader : Option JsString)
      (now : JsNumber)
  | go (k : Nat) (now : JsNumber)
  | settle (k : Nat) (settled : Except JsAny Unit)
  | onInbound (handler : Handler)
  | offInbound (handler : Handler)
  | onStatusReceipt (handler : Handler)
  | offStatusReceipt (handler : Handler)
  | disconnect

namespace WhatsAppCloudBackend
variable (hmacSha256 : JsString → List UInt8 → List UInt8) (opts : WhatsAppCloudBackendOptions)

def step (b : WhatsAppCloudBackend) : Action → Option WhatsAppCloudBackend
  | .handleWebhookPayload rawBody signatureHeader now =>
    let call :=
      Call.handleWebhookPayload hmacSha256 opts rawBody signatureHeader now b.inboundHandler
    some { b with calls := b.calls ++ [call] }
  | .go k now => do
    let c ← b.calls[k]?
    let c ← c.go opts b.statusHandler now
    return { b with calls := b.calls.set k c }
  | .settle k settled => do
    let c ← b.calls[k]?
    let c ← c.settle settled
    return { b with calls := b.calls.set k c }
  | .onInbound handler => some { b with inboundHandler := some handler }
  | .offInbound handler =>
    some (if b.inboundHandler = some handler then { b with inboundHandler := none } else b)
  | .onStatusReceipt handler => some { b with statusHandler := some handler }
  | .offStatusReceipt handler =>
    some (if b.statusHandler = some handler then { b with statusHandler := none } else b)
  | .disconnect => some { b with inboundHandler := none, statusHandler := none }

end WhatsAppCloudBackend

end TheokitGateways.WhatsApp
