import TheokitGateways.Gateway.Adapter
import TheokitGateways.Transition

/-!
# Mattermost: `MattermostAdapter`

A `connect` loads the SDK, asks the server who the bot is and opens a websocket;
only then does it store the handle and attach its listener. A websocket is named
by its place among those that were opened, a call by its place among the calls, a
listener by the `connect` that attached it, and a posted event by its number. An
open websocket hands every posted event to its listeners; each looks the channel
up, and whether the rules let the event through is told when that has settled.
-/

namespace TheokitGateways.Mattermost
open Js Gateway

structure WebSocket where
  isOpen : Bool := true
  listeners : List Nat := []
  deriving DecidableEq

inductive Call where
  /-- A `connect` that waits for the SDK. -/
  | loading
  /-- A `connect` that waits for `getMe`. -/
  | authenticating
  /-- A `connect` that has opened a websocket. -/
  | opened (w : Nat)
  | connected (answer : Except JsAny Bool)
  | disconnected

namespace Call

def isConnecting : Call → Bool
  | .loading | .authenticating | .opened _ => true
  | .connected _ | .disconnected => false

def isDisconnected : Call → Bool
  | .disconnected => true
  | _ => false

end Call

abbrev Handler := Nat

structure MattermostAdapter where
  /-- The websocket of the handle. -/
  handle : Option Nat := none
  wsListener : Option Nat := none
  inboundHandler : Option Handler := none
  connected : Bool := false
  sockets : List WebSocket := []
  calls : List Call := []
  /-- How many events the server has posted. -/
  posted : Nat := 0
  /-- The events whose channel is being looked up, once for each listener. -/
  processing : List Nat := []
  /-- The events that were handed over, with the handler. -/
  delivered : List (Handler × Nat) := []

inductive Action where
  | connect
  | disconnect
  | loaded (i : Nat) (result : Except JsAny Unit)
  /-- `getMe` settles, and a websocket is opened unless one of the two fails. -/
  | authenticated (i : Nat) (result : Except JsAny Unit)
  /-- The `await` of `connectMattermost` goes on. -/
  | attached (i : Nat)
  | posted
  /-- The channel of an event was looked up, and the rules let the event through or not. -/
  | processed (p : Nat) (responds : Bool)
  | onInbound (handler : Handler)
  | offInbound (handler : Handler)

namespace MattermostAdapter

def modifySocket (s : MattermostAdapter) (w : Nat) (f : WebSocket → WebSocket) :
    MattermostAdapter :=
  { s with sockets := s.sockets.modify w f }

def setCall (s : MattermostAdapter) (i : Nat) (call : Call) : MattermostAdapter :=
  { s with calls := s.calls.set i call }

def connect (s : MattermostAdapter) : MattermostAdapter :=
  { s with calls := s.calls ++ [if s.connected then .connected (.ok true) else .loading] }

def loaded (s : MattermostAdapter) (i : Nat) : Except JsAny Unit → MattermostAdapter
  | .ok () => s.setCall i .authenticating
  | .error err => s.setCall i (.connected (answerFailed err))

def authenticated (s : MattermostAdapter) (i : Nat) : Except JsAny Unit → MattermostAdapter
  | .ok () =>
    { s.setCall i (.opened s.sockets.length) with sockets := s.sockets ++ [{}] }
  | .error err => s.setCall i (.connected (answerFailed err))

/-- The handle is stored, and the listener attached to its websocket. -/
def attachWsListener (s : MattermostAdapter) (i w : Nat) : MattermostAdapter :=
  { s.modifySocket w fun socket => { socket with listeners := socket.listeners ++ [i] } with
    handle := some w
    wsListener := some i
    connected := true }.setCall i (.connected (.ok true))

def removeMessageListener (s : MattermostAdapter) : MattermostAdapter :=
  match s.handle, s.wsListener with
  | some w, some i =>
    s.modifySocket w fun socket => { socket with listeners := socket.listeners.erase i }
  | _, _ => s

def close (s : MattermostAdapter) : MattermostAdapter :=
  match s.handle with
  | some w => s.modifySocket w fun socket => { socket with isOpen := false }
  | none => s

def disconnect (s : MattermostAdapter) : MattermostAdapter :=
  if s.connected then
    { s.removeMessageListener.close with
      handle := none
      wsListener := none
      connected := false
      inboundHandler := none
      calls := s.calls ++ [.disconnected] }
  else { s with calls := s.calls ++ [.disconnected] }

/-- The listeners that hear of a posted event. -/
def heard (socket : WebSocket) : List Nat := if socket.isOpen then socket.listeners else []

def post (s : MattermostAdapter) : MattermostAdapter :=
  { s with
    posted := s.posted + 1
    processing := s.processing ++ (s.sockets.flatMap heard).map fun _ => s.posted }

/-- `processPostedEvent` after the channel was looked up. -/
def process (s : MattermostAdapter) (p e : Nat) (responds : Bool) : MattermostAdapter :=
  let s := { s with processing := s.processing.eraseIdx p }
  if responds then
    match s.inboundHandler with
    | none => s
    | some handler => { s with delivered := s.delivered ++ [(handler, e)] }
  else s

def step (s : MattermostAdapter) : Action → Option MattermostAdapter
  | .connect => some s.connect
  | .disconnect => some s.disconnect
  | .loaded i result => do
    let .loading ← s.calls[i]? | none
    return s.loaded i result
  | .authenticated i result => do
    let .authenticating ← s.calls[i]? | none
    return s.authenticated i result
  | .attached i => do
    let .opened w ← s.calls[i]? | none
    return s.attachWsListener i w
  | .posted => some s.post
  | .processed p responds => do return s.process p (← s.processing[p]?) responds
  | .onInbound handler => some { s with inboundHandler := some handler }
  | .offInbound handler =>
    some (if s.inboundHandler = some handler then { s with inboundHandler := none } else s)

/-- What an action does, with the call or the event it takes up. -/
inductive Steps (s : MattermostAdapter) : Action → MattermostAdapter → Prop where
  | connect : Steps s .connect s.connect
  | disconnect : Steps s .disconnect s.disconnect
  | loaded {i : Nat} (hi : s.calls[i]? = some .loading) (result : Except JsAny Unit) :
    Steps s (.loaded i result) (s.loaded i result)
  | authenticated {i : Nat} (hi : s.calls[i]? = some .authenticating) (result : Except JsAny Unit) :
    Steps s (.authenticated i result) (s.authenticated i result)
  | attached {i w : Nat} (hi : s.calls[i]? = some (.opened w)) :
    Steps s (.attached i) (s.attachWsListener i w)
  | posted : Steps s .posted s.post
  | processed {p e : Nat} (hp : s.processing[p]? = some e) (responds : Bool) :
    Steps s (.processed p responds) (s.process p e responds)
  | onInbound (handler : Handler) :
    Steps s (.onInbound handler) { s with inboundHandler := some handler }
  | offInbound (handler : Handler) :
    Steps s (.offInbound handler)
      (if s.inboundHandler = some handler then { s with inboundHandler := none } else s)

theorem steps_of_step {s s' : MattermostAdapter} {action : Action}
    (hstep : s.step action = some s') : Steps s action s' := by
  cases action with
  | loaded i result =>
    obtain ⟨call, hi, hstep⟩ := Option.bind_eq_some_iff.1 hstep
    split at hstep
    · cases hstep
      exact .loaded hi result
    · cases hstep
  | authenticated i result =>
    obtain ⟨call, hi, hstep⟩ := Option.bind_eq_some_iff.1 hstep
    split at hstep
    · cases hstep
      exact .authenticated hi result
    · cases hstep
  | attached i =>
    obtain ⟨call, hi, hstep⟩ := Option.bind_eq_some_iff.1 hstep
    split at hstep
    · cases hstep
      exact .attached hi
    · cases hstep
  | processed p responds =>
    obtain ⟨e, hp, hstep⟩ := Option.bind_eq_some_iff.1 hstep
    cases hstep
    exact .processed hp responds
  | connect | disconnect | posted | onInbound | offInbound =>
    cases hstep
    constructor

end MattermostAdapter
end TheokitGateways.Mattermost
