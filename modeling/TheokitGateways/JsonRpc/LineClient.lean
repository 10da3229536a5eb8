import TheokitGateways.Js.Members
import TheokitGateways.Js.OrderedMap
import TheokitGateways.Transition

/-!
# JSON-RPC over a child's stdio: `JsonRpcLineClient`

The iMessage and the Signal package each carry a copy of this client; the two
differ in whether the outcome of an error keeps its `data`. A request is known to
the child by its id, and to its caller by the promise of the call. The table holds
the call of each request that waits, and a timer runs for each. Beside its own
fields the client here remembers what it wrote, how each call was answered, and
what `onClosed` was called with.
-/

namespace TheokitGateways.JsonRpc
open Js

/-- How one request ended. -/
inductive RpcOutcome where
  | result (result : Option Json)
  | error (code message : Json) (data : Option Json)
  | timeout
  | disconnected

structure RpcNotification where
  method : JsString
  params : Option Json

/-- What a message of the child is for the client. -/
inductive Incoming where
  | notification (notification : RpcNotification)
  | answer (id : JsNumber) (outcome : RpcOutcome)
  | noise

/-- The error member of an answer as an outcome. -/
def errorOutcome (keepsData : Bool) (error : Json) : Except TypeFault RpcOutcome := do
  let code ← error.read (js "code")
  let message ← error.read (js "message")
  return .error (Json.orElse code (.number (.finite 0)))
    (Json.orElse message (.string (js "unknown JSON-RPC error")))
    (if keepsData then error.get (js "data") else none)

def answerOutcome (keepsData : Bool) (message : Json) : Except TypeFault RpcOutcome :=
  match message.get (js "error") with
  | none => .ok (.result (message.get (js "result")))
  | some error => errorOutcome keepsData error

/-- The notification that a message is: it has a method and no id. -/
def notificationOf (message : Json) : Option RpcNotification :=
  match optString (message.get (js "method")) with
  | some method =>
    if Json.isNullish (message.get (js "id")) then some ⟨method, message.get (js "params")⟩
    else none
  | none => none

/-- The id of a message that is an answer. -/
def answerId (message : Json) : Option JsNumber :=
  match message.get (js "id") with
  | some (.number id) => some id
  | _ => none

def readMessage (keepsData : Bool) (message : Json) : Except TypeFault Incoming := do
  let _ ← message.read (js "method")
  match notificationOf message with
  | some notification => return .notification notification
  | none =>
    match answerId message with
    | some id => return .answer id (← answerOutcome keepsData message)
    | none => return .noise

/-- A request the client wrote: the call it answers, its id, and its line. -/
structure Written where
  call : Nat
  id : JsNumber
  line : JsString

structure JsonRpcLineClient where
  nextId : Nat := 1
  /-- The call of each request that waits, under its id. -/
  pending : OrderedMap JsNumber Nat := .empty
  isOpen : Bool := true
  /-- The ids of the requests whose timers run. -/
  timers : List JsNumber := []
  /-- How many calls of `request` there were. -/
  calls : Nat := 0
  written : List Written := []
  /-- How calls were answered, in turn. -/
  settled : List (Nat × RpcOutcome) := []
  /-- What `onClosed` was called with. -/
  closings : List JsString := []

def requestLine (method : JsString) (params : Json) (id : JsNumber) : JsString :=
  (Json.object [(js "jsonrpc", .string (js "2.0")), (js "method", .string method),
    (js "params", params), (js "id", .number id)]).stringify ++ js "\n"

namespace JsonRpcLineClient

/-- `request`, by whether the child's stdin is writable. -/
def request (c : JsonRpcLineClient) (method : JsString) (params : Json) (writable : Bool) :
    JsonRpcLineClient :=
  let called := { c with calls := c.calls + 1 }
  if !c.isOpen || !writable then
    { called with settled := c.settled ++ [(c.calls, .disconnected)] }
  else
    let id := .finite c.nextId
    { called with
      nextId := c.nextId + 1
      timers := c.timers ++ [id]
      pending := c.pending.set id c.calls
      written := c.written ++ [⟨c.calls, id, requestLine method params id⟩] }

def settle (c : JsonRpcLineClient) (id : JsNumber) (outcome : RpcOutcome) : JsonRpcLineClient :=
  match c.pending.get id with
  | none => c
  | some call =>
    { c with
      pending := c.pending.delete id
      timers := c.timers.erase id
      settled := c.settled ++ [(call, outcome)] }

def settleAll (c : JsonRpcLineClient) (ids : List JsNumber) : JsonRpcLineClient :=
  ids.foldl (fun c id => c.settle id .disconnected) c

def close (c : JsonRpcLineClient) (reason : JsString) : JsonRpcLineClient :=
  if !c.isOpen then c
  else
    let settled := { c with isOpen := false }.settleAll (c.pending.entries.map Prod.fst)
    { settled with closings := settled.closings ++ [reason] }

section
variable (keepsData : Bool) {E : Type} (onNotification : RpcNotification → Except TypeFault E)

/-- What a message does, with what a notification came to. -/
def receive (c : JsonRpcLineClient) : Incoming → Except TypeFault (JsonRpcLineClient × Option E)
  | .notification notification => do return (c, some (← onNotification notification))
  | .answer id outcome => .ok (c.settle id outcome, none)
  | .noise => .ok (c, none)

def onLine (c : JsonRpcLineClient) (line : JsString) :
    Except TypeFault (JsonRpcLineClient × Option E) :=
  if !c.isOpen || trim line = [] then .ok (c, none)
  else
    match jsonParse line with
    | none => .ok (c, none)
    | some message => do c.receive onNotification (← readMessage keepsData message)

end

end JsonRpcLineClient

inductive Action where
  | request (method : JsString) (params : Json) (writable : Bool)
  | line (line : JsString)
  /-- The timer of a request fires. -/
  | timedOut (id : JsNumber)
  /-- The write of a request's line has ended, with the message of its error if it failed. -/
  | wrote (k : Nat) (err : Option JsString)
  | stdinFailed (message : JsString)
  | childFailed (message : JsString)
  | childClosed (code : Option Int) (signal : Option JsString)
  | close (reason : JsString)

/-- The reason of a closing event. -/
def Action.closingReason : Action → Option JsString
  | .wrote _ err => err.map (js "stdin: " ++ ·)
  | .stdinFailed message => some (js "stdin: " ++ message)
  | .childFailed message => some message
  | .childClosed code signal =>
    let status := match code with
      | some code => (JsNumber.finite code).toStr
      | none => js "null"
    some (js "exited with " ++ signal.getD (js "code " ++ status))
  | .close reason => some reason
  | .request .. | .line _ | .timedOut _ => none

namespace JsonRpcLineClient

/-- Closes the client if the event is a closing one. -/
def closeFor (c : JsonRpcLineClient) (action : Action) : JsonRpcLineClient :=
  match action.closingReason with
  | some reason => c.close reason
  | none => c

section
variable (keepsData : Bool) {E : Type} (onNotification : RpcNotification → Except TypeFault E)

/-- One event. A line that throws leaves the client as it was. -/
def step (c : JsonRpcLineClient) (action : Action) : Option JsonRpcLineClient :=
  match action with
  | .request method params writable => some (c.request method params writable)
  | .line line =>
    match c.onLine keepsData onNotification line with
    | .ok (after, _) => some after
    | .error _ => some c
  | .timedOut id =>
    if id ∈ c.timers then some ({ c with timers := c.timers.erase id }.settle id .timeout)
    else none
  | .wrote k _ => if k < c.written.length then some (c.closeFor action) else none
  | .stdinFailed _ | .childFailed _ | .childClosed .. | .close _ => some (c.closeFor action)

end

end JsonRpcLineClient

end TheokitGateways.JsonRpc
