import TheokitGateways.Gateway.Adapter
import TheokitGateways.IMessage.Normalize
import TheokitGateways.Transition

/-!
# The iMessage adapter and its children

The adapter runs one `imsg` child a session. Rows go through one chain, across
sessions: each waits for the turn of the one before it, is dropped when its
session has ended or the cursor covers it, and moves the cursor when its turn
has finished. A child watches the database from the row its subscription names,
or from the rows there are then, and writes the rows from there in order. `log`
records, latest first, what came in and what was done with it.
-/

namespace TheokitGateways.IMessage
open Js Gateway

abbrev Handler := Nat

/-- A child with its line client, and the subscription asked of it. -/
structure Session where
  sinceRowId : Option Int
  /-- The line client accepts lines. -/
  isOpen : Bool := true
  /-- The request has been answered. -/
  answered : Bool := false
  /-- How many rows of the database the child has behind it, once it watches. -/
  position : Option Nat := none
  deriving DecidableEq

/-- How many rows of the database a subscription leaves out. -/
def Session.behind (s : Session) (database : List IMessageRow) : Nat :=
  match s.sinceRowId with
  | some cursor => (database.takeWhile (·.id ≤ cursor)).length
  | none => database.length

inductive Observed where
  | received (k : Nat) (row : IMessageRow)
  | handed (handler : Handler) (row : IMessageRow) (event : IMessageMessageEvent)
  /-- The turn of a row finished and the cursor moved past it. -/
  | finished (rowId : Int)
  deriving DecidableEq

structure IMessageAdapter where
  /-- The rows of the Messages database. -/
  database : List IMessageRow := []
  sessions : List Session := []
  session : Option Nat := none
  connected : Bool := false
  /-- The attempt whose promise is in the slot. -/
  connecting : Option Nat := none
  handler : Option Handler := none
  /-- The last row whose turn finished. -/
  lastRowId : Option Int := none
  /-- The rows of the chain that wait, with the session each came from. -/
  rows : List (Nat × IMessageRow) := []
  /-- The row whose handler is running. -/
  running : Option IMessageRow := none
  /-- What the chain is rejected with. -/
  broken : Option JsAny := none
  log : List Observed := []

namespace IMessageAdapter

def setSession (a : IMessageAdapter) (k : Nat) (f : Session → Session) : IMessageAdapter :=
  { a with sessions := a.sessions.modify k f }

/-- The session is no longer the adapter's. -/
def leave (a : IMessageAdapter) (k : Nat) : IMessageAdapter :=
  if a.session = some k then { a with session := none, connected := false } else a

/-- The line client of a session closes. -/
def close (a : IMessageAdapter) (k : Nat) : IMessageAdapter :=
  (a.setSession k fun s => { s with isOpen := false }).leave k

/-- `connect()`, with whether the child could be started. -/
def connect (a : IMessageAdapter) (spawned : Bool) : IMessageAdapter :=
  if a.connected || a.connecting.isSome then a
  else
    let k := a.sessions.length
    let session : Session := { sinceRowId := a.lastRowId, isOpen := spawned }
    { a with
      sessions := a.sessions ++ [session]
      session := if spawned then some k else a.session
      connecting := some k }

/-- The rest of `openSession` once its request has ended. -/
def openSession (a : IMessageAdapter) (k : Nat) (result : Bool) : IMessageAdapter :=
  let a := a.setSession k fun s => { s with answered := true }
  if result ∧ a.session = some k then { a with connected := true }
  else if a.session = some k then a.close k
  else a

def disconnect (a : IMessageAdapter) : IMessageAdapter :=
  match a.session with
  | none => a
  | some k => a.close k

def onInbound (a : IMessageAdapter) (handler : Handler) : IMessageAdapter :=
  { a with handler := some handler }

/-- What `onInbound` returned for a handler. -/
def unsubscribe (a : IMessageAdapter) (handler : Handler) : IMessageAdapter :=
  if a.handler = some handler then { a with handler := none } else a

/-- The child handles its subscription. -/
def watch (a : IMessageAdapter) (k : Nat) : IMessageAdapter :=
  a.setSession k fun s => { s with position := some (s.behind a.database) }

/-- The child writes the row it is at, and `onNotification` chains it. -/
def onNotification (a : IMessageAdapter) (k p : Nat) (row : IMessageRow) : IMessageAdapter :=
  { a.setSession k fun s => { s with position := some (p + 1) } with
    rows := a.rows ++ [(k, row)]
    log := .received k row :: a.log }

/-- The cursor moves past a row whose turn has finished. -/
def finish (a : IMessageAdapter) (rowId : Int) : IMessageAdapter :=
  { a with lastRowId := some (max rowId (a.lastRowId.getD rowId)), log := .finished rowId :: a.log }

def covers (a : IMessageAdapter) (rowId : Int) : Bool := a.lastRowId.any (rowId ≤ ·)

/-- `handleRow` up to the handler's answer. -/
def handleRow (a : IMessageAdapter) (k : Nat) (row : IMessageRow) (now : JsNumber) :
    IMessageAdapter :=
  if a.session ≠ some k then a
  else if a.covers row.id then a
  else
    match imessageRowToMessageEvent row now, a.handler with
    | none, _ => a.finish row.id
    | some _, none => a
    | some event, some handler =>
      { a with running := some row, log := .handed handler row event :: a.log }

/-- The link of the chain after one that was rejected only prints. -/
def report (a : IMessageAdapter) (err : JsAny) : IMessageAdapter :=
  match thrownText err with
  | .ok _ => { a with broken := none }
  | .error err => { a with broken := some err }

/-- The next link of the chain. -/
def nextRow (a : IMessageAdapter) (k : Nat) (row : IMessageRow) (rest : List (Nat × IMessageRow))
    (now : JsNumber) : IMessageAdapter :=
  let a := { a with rows := rest }
  match a.broken with
  | some err => a.report err
  | none => a.handleRow k row now

/-- The handler of a row has settled. -/
def turnOver (a : IMessageAdapter) (row : IMessageRow) (settled : Except JsAny Unit) :
    IMessageAdapter :=
  let a := { a with running := none }
  match runHandler (js "imessage") (some settled) with
  | .ok _ => a.finish row.id
  | .error err => a.report err

end IMessageAdapter

inductive Action where
  /-- A row is added to the database. -/
  | arrive (row : IMessageRow)
  | connect (spawned : Bool)
  | disconnect
  | onInbound (handler : Handler)
  | unsubscribe (handler : Handler)
  | watch (k : Nat)
  | write (k : Nat)
  /-- The request of an attempt has ended, with a result or without. -/
  | answered (k : Nat) (result : Bool)
  /-- The promise of an attempt has settled: its `finally` runs. -/
  | settled (k : Nat)
  /-- The child exits or fails, or a send asks for its end. -/
  | closed (k : Nat)
  | next (now : JsNumber)
  | turn (settled : Except JsAny Unit)

namespace IMessageAdapter

def step (a : IMessageAdapter) : Action → Option IMessageAdapter
  | .arrive row =>
    if a.database.all (·.id < row.id) then some { a with database := a.database ++ [row] } else none
  | .connect spawned => some (a.connect spawned)
  | .disconnect => some a.disconnect
  | .onInbound handler => some (a.onInbound handler)
  | .unsubscribe handler => some (a.unsubscribe handler)
  | .watch k => do
    let s ← a.sessions[k]?
    if s.isOpen ∧ s.position = none then some (a.watch k) else none
  | .write k => do
    let s ← a.sessions[k]?
    let p ← s.position
    let row ← a.database[p]?
    if s.isOpen then some (a.onNotification k p row) else none
  | .answered k result => do
    let s ← a.sessions[k]?
    if s.answered then none else some (a.openSession k result)
  | .settled k => do
    let s ← a.sessions[k]?
    if s.answered ∧ a.connecting = some k then some { a with connecting := none } else none
  | .closed k => if k < a.sessions.length then some (a.close k) else none
  | .next now =>
    match a.running, a.rows with
    | none, (k, row) :: rest => some (a.nextRow k row rest now)
    | _, _ => none
  | .turn settled => a.running.map fun row => a.turnOver row settled

end IMessageAdapter

end TheokitGateways.IMessage
