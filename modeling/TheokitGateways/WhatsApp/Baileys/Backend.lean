import TheokitGateways.Js.OrderedMap
import TheokitGateways.WhatsApp.Baileys.Connection
import TheokitGateways.WhatsApp.Baileys.Normalize

/-!
# The Baileys backend

A batch of messages is handed over in one job of the event loop: until its loop is
done only the handlers it runs come between, and what they call. Sends wait for
one another, each for the answer of the one before and for its socket call to end.
`deliveries`, `transmitted` and `acknowledged` record, the newest first, what went
to the handlers, what went to `socket.sendMessage` and what it answered.
-/

namespace TheokitGateways.WhatsApp.Baileys
open Js Gateway

/-- A batch that is being handed over. -/
structure Batch where
  socket : Nat
  rest : List RawEnvelope

/-- An event that went to a handler, from a socket while a generation was current. -/
structure Delivery where
  socket : Nat
  generation : Nat
  handler : Handler
  event : WhatsAppInboundEvent

/-- What the server says of a number. -/
structure Registration where
  registered : Option Bool := none
  jid : Option JsString := none

/-- How the race of a send may end. -/
inductive Outcome where
  | acknowledged (id : Option JsString)
  | unroutable
  | timeout
  | failed (err : JsAny)

/-- Where the socket call of a send is. -/
inductive SendStage where
  | queued
  /-- Waiting to learn where the server routes the number. -/
  | resolving (socket : Nat)
  /-- The address is known, and the send has not gone on. -/
  | resolved (socket : Nat) (jid : Option JsString)
  /-- Inside `socket.sendMessage`. -/
  | sending (socket : Nat)
  /-- The socket is free again. -/
  | free

/-- A call of `send`. -/
structure Send where
  message : WhatsAppOutboundMessage
  stage : SendStage := .queued
  outcome : Option Outcome := none
  /-- What the caller was told. -/
  answer : Option (Except JsAny WhatsAppSendResult) := none

structure Transmission where
  send : Nat
  socket : Nat
  jid : JsString
  text : JsString

structure WhatsAppBaileysBackend where
  conn : Connection := {}
  inboundHandler : Option Handler := none
  sentWamids : List JsString := []
  batch : Option Batch := none
  deliveries : List Delivery := []
  /-- The calls of `send`, in order. -/
  sends : List Send := []
  jidCache : OrderedMap JsString JsString := .empty
  transmitted : List Transmission := []
  acknowledged : List (Nat × Option JsString) := []

inductive Action where
  | connection (action : ConnectionAction)
  /-- A socket emits a batch. -/
  | upsert (k : Nat) (type : Option JsString) (messages : List RawEnvelope)
  /-- The loop over a batch goes on. -/
  | dispatch
  /-- A handler throws before it returns a promise, which ends the loop. -/
  | cutShort
  | onInbound (handler : Handler)
  | offInbound (handler : Handler)
  | send (message : WhatsAppOutboundMessage)
  /-- The turn of a send has come. -/
  | start (i : Nat)
  /-- The server answers about the number of a send, or the lookup fails. -/
  | lookedUp (i : Nat) (found : Except JsAny (List Registration))
  /-- A send goes on with its address. -/
  | transmit (i : Nat)
  | acknowledge (i : Nat) (id : Option JsString)
  | fail (i : Nat) (err : JsAny)
  | sendTimeout (i : Nat)
  /-- The race of a send is over, and its caller is answered. -/
  | answer (i : Nat)

/-- What may happen while a batch is handed over. -/
def Action.isCall : Action → Bool
  | .connection .connect | .connection .disconnect | .dispatch | .cutShort | .onInbound _
  | .offInbound _ | .send _ => true
  | _ => false

def sentWamidWindow : Nat := 256

/-- The number is routed to nobody. -/
def unroutable : JsString := js "__unroutable__"

namespace Send

/-- The queue goes on after a send. -/
def isReleased (s : Send) : Bool :=
  s.answer.isSome && match s.stage with
    | .free => true
    | _ => false

/-- The race of a send ends, unless it has. -/
def settle (s : Send) (outcome : Outcome) : Send :=
  { s with outcome := s.outcome.or (some outcome) }

/-- The socket call of a send has ended. -/
def release (s : Send) (outcome : Outcome) : Send := { s.settle outcome with stage := .free }

end Send

namespace WhatsAppBaileysBackend

def rememberSent (sentWamids : List JsString) (wamid : JsString) : List JsString :=
  let added := if sentWamids.contains wamid then sentWamids else sentWamids ++ [wamid]
  added.drop (added.length - sentWamidWindow)

section
-- The send timeout, as the answer names it.
variable (timeoutMs : JsString)

def modifySend (b : WhatsAppBaileysBackend) (i : Nat) (f : Send → Send) : WhatsAppBaileysBackend :=
  { b with sends := b.sends.modify i f }

/-- `dispatchInbound`: `none` when normalizing throws. -/
def dispatchInbound (b : WhatsAppBaileysBackend) (k : Nat) (raw : RawEnvelope) :
    Option WhatsAppBaileysBackend :=
  match b.inboundHandler with
  | none => some b
  | some handler =>
    match normalizeBaileysMessage raw
      { selfJids := some b.conn.selfJids, sentWamids := some b.sentWamids } with
    | .error _ => none
    | .ok none => some b
    | .ok (some event) =>
      some { b with deliveries := ⟨k, b.conn.generation, handler, event⟩ :: b.deliveries }

/-- `resolveJid` up to its first await: what it answers, or that it asks the server. -/
def resolveJid (b : WhatsAppBaileysBackend) (k : Nat) (message : WhatsAppOutboundMessage) :
    SendStage :=
  if includes (js "@") message.recipient then .resolved k (some message.recipient)
  else if message.isGroup then .resolved k (some (message.recipient ++ js "@g.us"))
  else if !(b.conn.attempts[k]?.bind (·.socket)).any (·.onWhatsApp) then
    .resolved k (some (message.recipient ++ js "@s.whatsapp.net"))
  else
    match b.jidCache.get message.recipient with
    | some cached => .resolved k (if cached = unroutable then none else some cached)
    | none => .resolving k

/-- `sendNow`, once its turn has come. -/
def sendNow (b : WhatsAppBaileysBackend) (s : Send) : Send :=
  match b.conn.connected, b.conn.socket with
  | true, some k => { s with stage := b.resolveJid k s.message }
  | _, _ =>
    { s with
      stage := .free
      answer := some (.ok (.failure (js "not_connected")
        (js "Baileys backend is not connected."))) }

/-- What the server answered about a number: where to send, and what to remember. -/
def routed (number : JsString) (found : Except JsAny (List Registration)) :
    Option JsString × Option JsString :=
  match found with
  | .error _ => (some (number ++ js "@s.whatsapp.net"), none)
  | .ok registrations =>
    match registrations.head? with
    | some ⟨some true, some jid⟩ =>
      if jid = [] then (none, some unroutable) else (some jid, some jid)
    | _ => (none, some unroutable)

def lookedUp (b : WhatsAppBaileysBackend) (i k : Nat) (number : JsString)
    (found : Except JsAny (List Registration)) : WhatsAppBaileysBackend :=
  let (jid, cached) := routed number found
  { b.modifySend i fun s => { s with stage := .resolved k jid } with
    jidCache := cached.elim b.jidCache (b.jidCache.set number) }

/-- The caller of a send is told the outcome of its race. -/
def answerOf (message : WhatsAppOutboundMessage) : Outcome → Except JsAny WhatsAppSendResult
  | .acknowledged id => .ok { ok := true, wamid := id }
  | .unroutable => .ok (.failure (js "undeliverable")
      (js "WhatsApp does not route to \"" ++ message.recipient ++
        js "\" — the number is not registered, or not in the form this account can reach. " ++
        js "Nothing was sent."))
  | .timeout => .ok (.failure (js "timeout")
      (js "No acknowledgement after " ++ timeoutMs ++ js "ms — delivery is undetermined. " ++
        js "Not retried: the message may already have been delivered."))
  | .failed err => (thrownText err).map (.failure (js "server_error"))

def answer (b : WhatsAppBaileysBackend) (i : Nat) (message : WhatsAppOutboundMessage)
    (outcome : Outcome) : WhatsAppBaileysBackend :=
  let told := b.modifySend i fun s => { s with answer := some (answerOf timeoutMs message outcome) }
  match outcome with
  | .acknowledged (some wamid) => { told with sentWamids := rememberSent b.sentWamids wamid }
  | _ => told

/-- The turn of a send comes when the queue goes on after the one before it. -/
def isTurn (b : WhatsAppBaileysBackend) (i : Nat) : Bool :=
  match i with
  | 0 => true
  | i + 1 => b.sends[i]?.any (·.isReleased)

def step (b : WhatsAppBaileysBackend) (action : Action) : Option WhatsAppBaileysBackend :=
  if b.batch.isSome && !action.isCall then none
  else
    match action with
    | .connection .disconnect =>
      some { b with conn := b.conn.disconnect, inboundHandler := none }
    | .connection action => (b.conn.step action).map fun conn => { b with conn }
    | .upsert k type messages => do
      let a ← b.conn.attempts[k]?
      if !a.listening || !type.all (· = js "notify") || !b.conn.isCurrent k then some b
      else some { b with batch := some ⟨k, messages⟩ }
    | .dispatch => do
      let batch ← b.batch
      match batch.rest with
      | [] => some { b with batch := none }
      | raw :: rest =>
        match b.dispatchInbound batch.socket raw with
        | some b => some { b with batch := some ⟨batch.socket, rest⟩ }
        | none => some { b with batch := none }
    | .cutShort => do
      let _ ← b.batch
      some { b with batch := none }
    | .onInbound handler => some { b with inboundHandler := some handler }
    | .offInbound handler =>
      some (if b.inboundHandler = some handler then { b with inboundHandler := none } else b)
    | .send message => some { b with sends := b.sends ++ [{ message := message }] }
    | .start i => do
      let .queued := (← b.sends[i]?).stage | none
      if b.isTurn i then some (b.modifySend i b.sendNow) else none
    | .lookedUp i found => do
      let s ← b.sends[i]?
      let .resolving k := s.stage | none
      some (b.lookedUp i k s.message.recipient found)
    | .transmit i => do
      let s ← b.sends[i]?
      let .resolved k jid := s.stage | none
      match jid with
      | none => some (b.modifySend i (·.release .unroutable))
      | some jid =>
        some { b.modifySend i fun s => { s with stage := .sending k } with
          transmitted := ⟨i, k, jid, s.message.text⟩ :: b.transmitted }
    | .acknowledge i id => do
      let .sending _ := (← b.sends[i]?).stage | none
      some { b.modifySend i (·.release (.acknowledged id)) with
        acknowledged := (i, id) :: b.acknowledged }
    | .fail i err => do
      let .sending _ := (← b.sends[i]?).stage | none
      some (b.modifySend i (·.release (.failed err)))
    | .sendTimeout i => do
      let s ← b.sends[i]?
      let .queued := s.stage
        | if s.answer.isSome then none else some (b.modifySend i (·.settle .timeout))
      none
    | .answer i => do
      let s ← b.sends[i]?
      match s.answer, s.outcome with
      | none, some outcome => some (b.answer timeoutMs i s.message outcome)
      | _, _ => none

end
end WhatsAppBaileysBackend

end TheokitGateways.WhatsApp.Baileys
