import TheokitGateways.Gateway.Adapter
import TheokitGateways.Transition

/-!
# Matrix: `MatrixAdapter`

`connect` creates a client, asks it who it is, starts it and subscribes to its
timeline; each time it goes on it works with the client that the adapter holds
then. A client is named by its place among those that were created, and a call by
its place among the calls; a listener by the `connect` that attached it. Clients
are made by the factory of the options, or by the SDK once it is loaded.
-/

namespace TheokitGateways.Matrix
open Js Gateway

structure Client where
  /-- `startClient` left it running, and `stopClient` was not called since. -/
  running : Bool := false
  /-- The listeners of its timeline. -/
  listeners : List Nat := []

inductive Call where
  /-- A `connect` that waits for the SDK. -/
  | loading
  | whoami
  /-- `startClient` was called on a client. -/
  | starting (k : Nat)
  | connected (answer : Except JsAny Bool)
  | disconnected

namespace Call

def isConnecting : Call → Bool
  | .loading | .whoami | .starting _ => true
  | .connected _ | .disconnected => false

def isDisconnected : Call → Bool
  | .disconnected => true
  | _ => false

end Call

abbrev Handler := Nat

structure MatrixAdapter where
  client : Option Nat := none
  /-- A client, and the listener that is detached from it again. -/
  subscription : Option (Nat × Nat) := none
  inboundHandler : Option Handler := none
  connected : Bool := false
  tearingDown : Bool := false
  clients : List Client := []
  calls : List Call := []

inductive Action where
  /-- The factory makes a client or throws, when there is one. -/
  | connect (made : Except JsAny Unit)
  | disconnect
  /-- The SDK is loaded and makes a client, or one of the two fails. -/
  | loaded (i : Nat) (made : Except JsAny Unit)
  | whoami (i : Nat) (result : Except JsAny Unit)
  /-- `startClient` settles, and leaves the client running or not. -/
  | started (i : Nat) (result : Except JsAny Unit) (running : Bool)
  | onInbound (handler : Handler)
  | offInbound (handler : Handler)

/-- What `connect` answers when a step of it throws; the text may throw itself. -/
def failed (err : JsAny) : Except JsAny Bool := (thrownText err).map fun _ => false

/-- The member of `undefined` that is called. -/
def undefinedClient : JsAny :=
  .error (js "TypeError") (js "Cannot read properties of undefined (reading 'startClient')")

namespace MatrixAdapter

def modifyClient (s : MatrixAdapter) (k : Nat) (f : Client → Client) : MatrixAdapter :=
  { s with clients := s.clients.modify k f }

def setCall (s : MatrixAdapter) (i : Nat) (call : Call) : MatrixAdapter :=
  { s with calls := s.calls.set i call }

/-- A client is created and held, and asked who it is. -/
def create (s : MatrixAdapter) : MatrixAdapter :=
  { s with client := some s.clients.length, clients := s.clients ++ [{}] }

/-- `connect` up to its first await. -/
def connect (clientFactory : Bool) (s : MatrixAdapter) (made : Except JsAny Unit) : MatrixAdapter :=
  if s.connected then { s with calls := s.calls ++ [.connected (.ok true)] }
  else
    let s := { s with tearingDown := false }
    if clientFactory then
      match made with
      | .ok () => { s.create with calls := s.calls ++ [.whoami] }
      | .error err => { s with calls := s.calls ++ [.connected (failed err)] }
    else { s with calls := s.calls ++ [.loading] }

def loaded (s : MatrixAdapter) (i : Nat) : Except JsAny Unit → MatrixAdapter
  | .ok () => s.create.setCall i .whoami
  | .error err => s.setCall i (.connected (failed err))

/-- After `whoami`: the client that is held now is started. -/
def whoami (s : MatrixAdapter) (i : Nat) : Except JsAny Unit → MatrixAdapter
  | .ok () =>
    match s.client with
    | some k => s.setCall i (.starting k)
    | none => s.setCall i (.connected (failed undefinedClient))
  | .error err => s.setCall i (.connected (failed err))

def attachSync (s : MatrixAdapter) (listener : Nat) : MatrixAdapter :=
  match s.client with
  | none => s
  | some k =>
    { s.modifyClient k fun c => { c with listeners := c.listeners ++ [listener] } with
      subscription := some (k, listener) }

/-- After `startClient` of a client. -/
def started (s : MatrixAdapter) (i k : Nat) (result : Except JsAny Unit) (running : Bool) :
    MatrixAdapter :=
  let s := s.modifyClient k fun c => { c with running := running }
  match result with
  | .ok () => { s.attachSync i with connected := true }.setCall i (.connected (.ok true))
  | .error err => s.setCall i (.connected (failed err))

def unsubscribe (s : MatrixAdapter) : MatrixAdapter :=
  match s.subscription with
  | none => s
  | some (k, listener) =>
    { s.modifyClient k fun c => { c with listeners := c.listeners.erase listener } with
      subscription := none }

def stopClient (s : MatrixAdapter) : MatrixAdapter :=
  match s.client with
  | none => s
  | some k => s.modifyClient k fun c => { c with running := false }

def disconnect (s : MatrixAdapter) : MatrixAdapter :=
  if s.connected then
    let s := { s with tearingDown := true }
    { s.unsubscribe.stopClient with
      client := none
      connected := false
      inboundHandler := none
      calls := s.calls ++ [.disconnected] }
  else { s with calls := s.calls ++ [.disconnected] }

def step (clientFactory : Bool) (s : MatrixAdapter) : Action → Option MatrixAdapter
  | .connect made => some (s.connect clientFactory made)
  | .disconnect => some s.disconnect
  | .loaded i made => do
    let .loading ← s.calls[i]? | none
    return s.loaded i made
  | .whoami i result => do
    let .whoami ← s.calls[i]? | none
    return s.whoami i result
  | .started i result running => do
    let .starting k ← s.calls[i]? | none
    return s.started i k result running
  | .onInbound handler => some { s with inboundHandler := some handler }
  | .offInbound handler =>
    some (if s.inboundHandler = some handler then { s with inboundHandler := none } else s)

end MatrixAdapter
end TheokitGateways.Matrix
