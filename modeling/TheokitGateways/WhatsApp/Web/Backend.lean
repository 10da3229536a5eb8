import TheokitGateways.Transition
import TheokitGateways.WhatsApp.Web.Ipc

/-!
# The Web backend

`connect` spawns a bridge and races its `ready` against its errors and a timeout;
`disconnect` and a failed `connect` terminate the bridge that is held then. A
bridge is named by its place among those that were spawned, a call by its place
among the calls. The lines of a chunk are dispatched in one job of the event loop:
until it is done only the handlers it runs come between, and what they call.
`dispatched` and `deliveries` record, in order, what was dispatched while which
bridge was the newest, and what went to the handlers.
-/

namespace TheokitGateways.WhatsApp.Web
open Js Gateway

structure Child where
  running : Bool := true
  /-- A signal was sent to it. -/
  killed : Bool := false
  /-- What its stdout has brought. -/
  output : JsString := []

/-- Where `terminateBridge` is. -/
inductive Stop where
  /-- Waiting for the exit of a bridge. -/
  | exiting (k : Nat)
  | stopped

inductive Call where
  /-- A `connect` that waits, with how its race ended if it has. -/
  | racing (race : Option (Except JsAny JsString))
  /-- A `connect` that failed and terminates the bridge. -/
  | cleaning (err : JsAny) (stop : Stop)
  | connected (answer : Except JsAny Bool)
  | disconnecting (stop : Stop)
  | disconnected

namespace Call

def isConnecting : Call → Bool
  | .racing _ | .cleaning .. => true
  | _ => false

/-- The race of a `connect` ends, unless it has. -/
def settle (outcome : Except JsAny JsString) : Call → Call
  | .racing none => .racing (some outcome)
  | call => call

end Call

structure Dispatch where
  /-- The newest bridge. -/
  session : Nat
  event : Json

structure Delivery where
  handler : Handler
  event : WhatsAppInboundEvent

structure WhatsAppWebBackend where
  handle : Option Nat := none
  buffer : LineBuffer := []
  inboundHandler : Option Handler := none
  connectRejectors : List Nat := []
  readyResolvers : List Nat := []
  botPhone : Option JsString := none
  connected : Bool := false
  children : List Child := []
  calls : List Call := []
  /-- The lines that are still to be dispatched. -/
  batch : Option (List JsString) := none
  dispatched : List Dispatch := []
  deliveries : List Delivery := []

inductive Action where
  /-- The spawn fails or not, if it comes to one. -/
  | connect (spawned : Except JsAny Unit)
  | disconnect
  | stdout (k : Nat) (chunk : JsString)
  /-- The loop over the lines goes on. -/
  | dispatch (now : JsNumber)
  /-- A handler throws before it returns a promise, which ends the loop. -/
  | cutShort
  | timeout (i : Nat)
  /-- A `connect` goes on after its race. -/
  | resume (i : Nat)
  | exit (k : Nat)
  /-- The bridge that a call waits for takes too long to exit. -/
  | kill (i : Nat)
  /-- A call goes on after its bridge. -/
  | finish (i : Nat)
  | onInbound (handler : Handler)
  | offInbound (handler : Handler)

/-- What may happen while lines are dispatched. -/
def Action.isCall : Action → Bool
  | .connect _ | .disconnect | .dispatch _ | .cutShort | .onInbound _ | .offInbound _ => true
  | _ => false

/-- A `WhatsAppBridgeError`. -/
def bridgeError (message : JsString) (code : Option JsString) : JsAny :=
  let text := js "WhatsApp web bridge could not start: " ++ message
  .ofMembers .plain true
    [(js "name", .string (js "WhatsAppBridgeError")), (js "message", .string text),
      (js "code", (code.map JsAny.string).getD .undefined)]
    (js "WhatsAppBridgeError: " ++ text)

/-- A `WhatsAppConnectTimeoutError`. -/
def connectTimeoutError (timeoutMs : JsString) : JsAny :=
  let text := js "WhatsApp web bridge connect timed out after " ++ timeoutMs ++
    js "ms (QR code not scanned?)"
  .ofMembers .plain true
    [(js "name", .string (js "WhatsAppConnectTimeoutError")), (js "message", .string text)]
    (js "WhatsAppConnectTimeoutError: " ++ text)

/-- The event that `handleMessage` hands over. -/
def inboundEvent (message : IpcMessage) (raw : Json) (now : JsNumber) : WhatsAppInboundEvent where
  wamid := message.msgId
  fromPhone := message.sender
  contactName := message.contactName
  conversationType := if message.isGroup then .group else .dm
  channelId := message.chatId
  text := message.body
  receivedAt := if message.timestamp = .nan ∨ message.timestamp = 0 then now else message.timestamp
  backend := .web
  raw := raw

namespace WhatsAppWebBackend

def modifyChild (b : WhatsAppWebBackend) (k : Nat) (f : Child → Child) : WhatsAppWebBackend :=
  { b with children := b.children.modify k f }

def setCall (b : WhatsAppWebBackend) (i : Nat) (call : Call) : WhatsAppWebBackend :=
  { b with calls := b.calls.set i call }

/-- The races of some calls end. -/
def settleAll (b : WhatsAppWebBackend) (waiting : List Nat) (outcome : Except JsAny JsString) :
    WhatsAppWebBackend :=
  { b with calls := b.calls.mapIdx fun i call =>
      if waiting.contains i then call.settle outcome else call }

/-- `terminateBridge` up to its first await: a bridge is signalled once. -/
def terminateBridge (b : WhatsAppWebBackend) (k : Nat) : WhatsAppWebBackend × Stop :=
  match b.children[k]? with
  | some child =>
    if child.killed || !child.running then (b, .stopped)
    else (b.modifyChild k fun child => { child with killed := true }, .exiting k)
  | none => (b, .stopped)

/-- Whether `terminateBridge` is through. -/
def hasStopped (b : WhatsAppWebBackend) : Stop → Bool
  | .stopped => true
  | .exiting k => !b.children[k]?.any (·.running)

/-- `connect()` up to its first await. -/
def connect (b : WhatsAppWebBackend) (spawned : Except JsAny Unit) : WhatsAppWebBackend :=
  if b.connected then { b with calls := b.calls ++ [.connected (.ok true)] }
  else
    match spawned with
    | .error err => { b with calls := b.calls ++ [.connected (.error err)] }
    | .ok () =>
      { b with
        handle := some b.children.length
        readyResolvers := b.readyResolvers ++ [b.calls.length]
        connectRejectors := b.connectRejectors ++ [b.calls.length]
        children := b.children ++ [{}]
        calls := b.calls ++ [.racing none] }

/-- `disconnect()` up to its first await. -/
def disconnect (b : WhatsAppWebBackend) : WhatsAppWebBackend :=
  match b.connected, b.handle with
  | true, some k =>
    let (b, stop) := b.terminateBridge k
    { b with calls := b.calls ++ [.disconnecting stop] }
  | _, _ => { b with calls := b.calls ++ [.disconnected] }

/-- A `connect` after its race: it has the phone, or it cleans up. -/
def resume (b : WhatsAppWebBackend) (i : Nat) : Except JsAny JsString → WhatsAppWebBackend
  | .ok phone =>
    { b.setCall i (.connected (.ok true)) with
      botPhone := some phone
      connected := true
      readyResolvers := []
      connectRejectors := [] }
  | .error err =>
    match b.handle with
    | some k =>
      let (b, stop) := b.terminateBridge k
      b.setCall i (.cleaning err stop)
    | none =>
      { b.setCall i (.connected (.error err)) with readyResolvers := [], connectRejectors := [] }

/-- A `connect` that has cleaned up. -/
def finishConnect (b : WhatsAppWebBackend) (i : Nat) (err : JsAny) : WhatsAppWebBackend :=
  { b.setCall i (.connected (.error err)) with
    handle := none
    readyResolvers := []
    connectRejectors := [] }

/-- A `disconnect` whose bridge has stopped. -/
def finishDisconnect (b : WhatsAppWebBackend) (i : Nat) : WhatsAppWebBackend :=
  { b.setCall i .disconnected with
    handle := none
    connected := false
    readyResolvers := []
    connectRejectors := [] }

def handleReady (b : WhatsAppWebBackend) (botPhone : JsString) : WhatsAppWebBackend :=
  { b.settleAll b.readyResolvers (.ok botPhone) with readyResolvers := [] }

def handleMessage (b : WhatsAppWebBackend) (message : IpcMessage) (raw : Json) (now : JsNumber) :
    WhatsAppWebBackend :=
  match b.inboundHandler with
  | some handler =>
    { b with deliveries := b.deliveries ++ [⟨handler, inboundEvent message raw now⟩] }
  | none => b

def handleBridgeError (b : WhatsAppWebBackend) (message : JsString) (code : Option JsString) :
    WhatsAppWebBackend :=
  { b.settleAll b.connectRejectors (.error (bridgeError message code)) with connectRejectors := [] }

/-- `dispatch`, which records the event. -/
def dispatch (b : WhatsAppWebBackend) (event : Json) (now : JsNumber) : WhatsAppWebBackend :=
  let b := { b with dispatched := b.dispatched ++ [⟨b.children.length - 1, event⟩] }
  match IpcEvent.ofJson event with
  | some (.ready botPhone) => b.handleReady botPhone
  | some (.message message) => b.handleMessage message event now
  | some (.error message code) => b.handleBridgeError message code
  | none => b

section
-- The connect timeout, as the error names it.
variable (timeoutMs : JsString)

def step (b : WhatsAppWebBackend) (action : Action) : Option WhatsAppWebBackend :=
  if b.batch.isSome && !action.isCall then none
  else
    match action with
    | .connect spawned => some (b.connect spawned)
    | .disconnect => some b.disconnect
    | .stdout k chunk => do
      let _ ← b.children[k]?
      let (lines, buffer) := b.buffer.push chunk
      some { b.modifyChild k fun child => { child with output := child.output ++ chunk } with
        buffer := buffer
        batch := some lines }
    | .dispatch now => do
      match ← b.batch with
      | [] => some { b with batch := none }
      | line :: lines =>
        let b := { b with batch := some lines }
        match parseEvent line with
        | some event => some (b.dispatch event now)
        | none => some b
    | .cutShort => do
      let _ ← b.batch
      some { b with batch := none }
    | .timeout i => do
      let .racing _ ← b.calls[i]? | none
      some (b.settleAll [i] (.error (connectTimeoutError timeoutMs)))
    | .resume i => do
      let .racing (some outcome) ← b.calls[i]? | none
      some (b.resume i outcome)
    | .exit k => do
      let _ ← b.children[k]?
      some (b.modifyChild k fun child => { child with running := false })
    | .kill i => do
      match ← b.calls[i]? with
      | .cleaning _ (.exiting k) | .disconnecting (.exiting k) =>
        some (b.modifyChild k fun child => { child with running := false })
      | _ => none
    | .finish i => do
      match ← b.calls[i]? with
      | .cleaning err stop => if b.hasStopped stop then some (b.finishConnect i err) else none
      | .disconnecting stop => if b.hasStopped stop then some (b.finishDisconnect i) else none
      | _ => none
    | .onInbound handler => some { b with inboundHandler := some handler }
    | .offInbound handler =>
      some (if b.inboundHandler = some handler then { b with inboundHandler := none } else b)

/-- What an action does, with the bridge, the call or the line it takes up. -/
inductive Steps (b : WhatsAppWebBackend) : Action → WhatsAppWebBackend → Prop where
  | connect (spawned : Except JsAny Unit) : Steps b (.connect spawned) (b.connect spawned)
  | disconnect : Steps b .disconnect b.disconnect
  | stdout {k : Nat} (hidle : b.batch = none) (chunk : JsString) :
    Steps b (.stdout k chunk)
      { b.modifyChild k fun child => { child with output := child.output ++ chunk } with
        buffer := (b.buffer.push chunk).2
        batch := some (b.buffer.push chunk).1 }
  | through (hbatch : b.batch = some []) (now : JsNumber) :
    Steps b (.dispatch now) { b with batch := none }
  | dispatch {line : JsString} {lines : List JsString} {event : Json}
    (hbatch : b.batch = some (line :: lines)) (hparse : parseEvent line = some event)
    (now : JsNumber) :
    Steps b (.dispatch now) ({ b with batch := some lines }.dispatch event now)
  | skip {line : JsString} {lines : List JsString} (hbatch : b.batch = some (line :: lines))
    (hparse : parseEvent line = none) (now : JsNumber) :
    Steps b (.dispatch now) { b with batch := some lines }
  | cutShort : Steps b .cutShort { b with batch := none }
  | timeout (i : Nat) :
    Steps b (.timeout i) (b.settleAll [i] (.error (connectTimeoutError timeoutMs)))
  | resume {i : Nat} {outcome : Except JsAny JsString}
    (hi : b.calls[i]? = some (.racing (some outcome))) :
    Steps b (.resume i) (b.resume i outcome)
  | exit (k : Nat) :
    Steps b (.exit k) (b.modifyChild k fun child => { child with running := false })
  | kill (i k : Nat) :
    Steps b (.kill i) (b.modifyChild k fun child => { child with running := false })
  | failed (i : Nat) (err : JsAny) : Steps b (.finish i) (b.finishConnect i err)
  | finish (i : Nat) : Steps b (.finish i) (b.finishDisconnect i)
  | onInbound (handler : Handler) :
    Steps b (.onInbound handler) { b with inboundHandler := some handler }
  | offInbound (handler : Handler) :
    Steps b (.offInbound handler)
      (if b.inboundHandler = some handler then { b with inboundHandler := none } else b)

variable {timeoutMs}

theorem steps_of_step {b b' : WhatsAppWebBackend} {action : Action}
    (hstep : b.step timeoutMs action = some b') : Steps timeoutMs b action b' := by
  unfold step at hstep
  obtain ⟨hfree, hstep⟩ := Option.ite_none_left_eq_some.1 hstep
  cases action with
  | stdout k chunk =>
    obtain ⟨child, _, hstep⟩ := Option.bind_eq_some_iff.1 hstep
    cases hstep
    exact .stdout (by simpa [Action.isCall] using hfree) chunk
  | dispatch now =>
    obtain ⟨lines, hbatch, hstep⟩ := Option.bind_eq_some_iff.1 hstep
    split at hstep
    · cases hstep
      exact .through hbatch now
    · dsimp only at hstep
      split at hstep
      · cases hstep
        exact .dispatch hbatch ‹_› now
      · cases hstep
        exact .skip hbatch ‹_› now
  | cutShort =>
    obtain ⟨lines, _, hstep⟩ := Option.bind_eq_some_iff.1 hstep
    cases hstep
    exact .cutShort
  | timeout i =>
    obtain ⟨call, _, hstep⟩ := Option.bind_eq_some_iff.1 hstep
    split at hstep
    · cases hstep
      exact .timeout i
    · cases hstep
  | resume i =>
    obtain ⟨call, hi, hstep⟩ := Option.bind_eq_some_iff.1 hstep
    split at hstep
    · cases hstep
      exact .resume hi
    · cases hstep
  | exit k =>
    obtain ⟨child, _, hstep⟩ := Option.bind_eq_some_iff.1 hstep
    cases hstep
    exact .exit k
  | kill i =>
    obtain ⟨call, _, hstep⟩ := Option.bind_eq_some_iff.1 hstep
    split at hstep
    · cases hstep
      exact .kill i _
    · cases hstep
      exact .kill i _
    · cases hstep
  | finish i =>
    obtain ⟨call, _, hstep⟩ := Option.bind_eq_some_iff.1 hstep
    split at hstep
    · obtain ⟨_, hstep⟩ := Option.ite_none_right_eq_some.1 hstep
      cases hstep
      exact .failed i _
    · obtain ⟨_, hstep⟩ := Option.ite_none_right_eq_some.1 hstep
      cases hstep
      exact .finish i
    · cases hstep
  | connect | disconnect | onInbound | offInbound =>
    cases hstep
    constructor

end
end WhatsAppWebBackend

end TheokitGateways.WhatsApp.Web
