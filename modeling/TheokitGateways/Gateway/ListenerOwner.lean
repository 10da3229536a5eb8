import TheokitGateways.Gateway.Adapter
import TheokitGateways.Transition

/-!
# A webhook listener owned by generation

An adapter that a platform dials opens its session in one attempt: a check of the
platform, then a listener. The `connect`s that find an attempt pending share it.
Every `disconnect` begins a generation, and an attempt that finds itself in
another than its own stops its listener again. An attempt is named by its place
among the attempts, a listener by the attempt that started it, and a call by its
place among the calls.
-/

namespace TheokitGateways.Gateway
open Js Transition

inductive Listener where
  | absent
  /-- Its server is made and started. -/
  | starting
  | listening
  /-- `stop` was called. -/
  | closing
  | closed
  deriving DecidableEq

/-- There is no listener, or no longer. -/
def Listener.isStopped : Listener → Bool
  | .absent | .closed => true
  | .starting | .listening | .closing => false

/-- Where a run of `openSession` stands. -/
inductive SessionPhase where
  | checking
  | starting
  /-- It was overtaken, and waits for its listener to stop. -/
  | stopping
  | returned (answer : Except JsAny Bool)
  /-- `finally` has run. -/
  | settled (answer : Except JsAny Bool)

structure Session where
  generation : Nat
  phase : SessionPhase
  listener : Listener := .absent

namespace Session

/-- What a run of `openSession` has answered. -/
def answer (session : Session) : Option (Except JsAny Bool) :=
  match session.phase with
  | .returned answer | .settled answer => some answer
  | .checking | .starting | .stopping => none

def isSettled (session : Session) : Bool :=
  match session.phase with
  | .settled _ => true
  | _ => false

end Session

inductive SessionCall where
  /-- A `connect` that waits for an attempt. -/
  | connecting (j : Nat)
  | connected (answer : Except JsAny Bool)
  /-- A `disconnect` that waits for a listener to stop. -/
  | stopping (k : Nat)
  | disconnected

namespace SessionCall

def isPending : SessionCall → Bool
  | .connecting _ | .stopping _ => true
  | .connected _ | .disconnected => false

def isDisconnect : SessionCall → Bool
  | .stopping _ | .disconnected => true
  | .connecting _ | .connected _ => false

/-- The calls that wait for an attempt are answered as it was. -/
def answered (j : Nat) (answer : Except JsAny Bool) : SessionCall → SessionCall
  | .connecting i => if i = j then .connected answer else .connecting i
  | call => call

end SessionCall

structure ListenerOwner where
  generation : Nat := 0
  connected : Bool := false
  connecting : Option Nat := none
  server : Option Nat := none
  sessions : List Session := []
  calls : List SessionCall := []

inductive OwnerAction where
  /-- What an attempt does before its first await succeeds or throws, when there is such a part. -/
  | connect (prepared : Except JsAny Unit)
  | disconnect
  /-- The check of the platform settles. -/
  | checked (j : Nat) (passes : Except JsAny Bool)
  /-- The server of an attempt has started, or a step of that has thrown. -/
  | started (j : Nat) (result : Except JsAny Unit)
  /-- The listener of an overtaken attempt has stopped. -/
  | stopped (j : Nat)
  /-- `finally` of an attempt runs. -/
  | finished (j : Nat)
  /-- The listener that a `disconnect` waits for has stopped. -/
  | closed (i : Nat)

/-- What a step of an attempt throws. -/
def OwnerAction.thrown : OwnerAction → Option JsAny
  | .checked _ (.error err) | .started _ (.error err) => some err
  | _ => none

namespace ListenerOwner

def setSession (o : ListenerOwner) (j : Nat) (session : Session) : ListenerOwner :=
  { o with sessions := o.sessions.set j session }

def setListener (o : ListenerOwner) (k : Nat) (listener : Listener) : ListenerOwner :=
  { o with sessions := o.sessions.modify k fun session => { session with listener := listener } }

/-- Where `openSession` stands at its first await. -/
def openSession (o : ListenerOwner) : Except JsAny Unit → Session
  | .ok () => { generation := o.generation, phase := .checking }
  | .error err => { generation := o.generation, phase := .returned (answerFailed err) }

def connect (o : ListenerOwner) (prepared : Except JsAny Unit) : ListenerOwner :=
  if o.connected then { o with calls := o.calls ++ [.connected (.ok true)] }
  else
    match o.connecting with
    | some j => { o with calls := o.calls ++ [.connecting j] }
    | none =>
      { o with
        connecting := some o.sessions.length
        sessions := o.sessions ++ [o.openSession prepared]
        calls := o.calls ++ [.connecting o.sessions.length] }

def checked (o : ListenerOwner) (j : Nat) (session : Session) :
    Except JsAny Bool → ListenerOwner
  | .ok true =>
    if session.generation ≠ o.generation then
      o.setSession j { session with phase := .returned (.ok false) }
    else o.setSession j { session with phase := .starting, listener := .starting }
  | .ok false => o.setSession j { session with phase := .returned (.ok false) }
  | .error err => o.setSession j { session with phase := .returned (answerFailed err) }

def started (o : ListenerOwner) (j : Nat) (session : Session) :
    Except JsAny Unit → ListenerOwner
  | .ok () =>
    if session.generation ≠ o.generation then
      o.setSession j { session with phase := .stopping, listener := .closing }
    else
      { o.setSession j { session with phase := .returned (.ok true), listener := .listening } with
        server := some j
        connected := true }
  | .error err =>
    o.setSession j { session with phase := .returned (answerFailed err), listener := .closed }

/-- Only an attempt that is still in the slot leaves it. -/
def finished (o : ListenerOwner) (j : Nat) (session : Session) (answer : Except JsAny Bool) :
    ListenerOwner :=
  { o.setSession j { session with phase := .settled answer } with
    connecting := if o.connecting = some j then none else o.connecting
    calls := o.calls.map (·.answered j answer) }

def disconnect (o : ListenerOwner) : ListenerOwner :=
  let o := { o with generation := o.generation + 1, connected := false, connecting := none }
  match o.server with
  | none => { o with calls := o.calls ++ [.disconnected] }
  | some k =>
    { o.setListener k .closing with server := none, calls := o.calls ++ [.stopping k] }

/-- One step; `prepares` tells whether an attempt has a part before its first await that throws. -/
def step (prepares : Bool) (o : ListenerOwner) : OwnerAction → Option ListenerOwner
  | .connect prepared => some (o.connect (if prepares then prepared else .ok ()))
  | .disconnect => some o.disconnect
  | .checked j passes => do
    let session ← o.sessions[j]?
    let .checking := session.phase | none
    return o.checked j session passes
  | .started j result => do
    let session ← o.sessions[j]?
    let .starting := session.phase | none
    return o.started j session result
  | .stopped j => do
    let session ← o.sessions[j]?
    let .stopping := session.phase | none
    return o.setSession j { session with phase := .returned (.ok false), listener := .closed }
  | .finished j => do
    let session ← o.sessions[j]?
    let .returned answer := session.phase | none
    return o.finished j session answer
  | .closed i => do
    let .stopping k ← o.calls[i]? | none
    return { o.setListener k .closed with calls := o.calls.set i .disconnected }

/-- What an action does, with the attempt or the call it takes up. -/
inductive Steps (prepares : Bool) (o : ListenerOwner) : OwnerAction → ListenerOwner → Prop where
  | connect (prepared : Except JsAny Unit) :
    Steps prepares o (.connect prepared) (o.connect (if prepares then prepared else .ok ()))
  | disconnect : Steps prepares o .disconnect o.disconnect
  | checked {j : Nat} {session : Session} (hj : o.sessions[j]? = some session)
    (hphase : session.phase = .checking) (passes : Except JsAny Bool) :
    Steps prepares o (.checked j passes) (o.checked j session passes)
  | started {j : Nat} {session : Session} (hj : o.sessions[j]? = some session)
    (hphase : session.phase = .starting) (result : Except JsAny Unit) :
    Steps prepares o (.started j result) (o.started j session result)
  | stopped {j : Nat} {session : Session} (hj : o.sessions[j]? = some session)
    (hphase : session.phase = .stopping) :
    Steps prepares o (.stopped j)
      (o.setSession j { session with phase := .returned (.ok false), listener := .closed })
  | finished {j : Nat} {session : Session} {answer : Except JsAny Bool}
    (hj : o.sessions[j]? = some session) (hphase : session.phase = .returned answer) :
    Steps prepares o (.finished j) (o.finished j session answer)
  | closed {i k : Nat} (hi : o.calls[i]? = some (.stopping k)) :
    Steps prepares o (.closed i)
      { o.setListener k .closed with calls := o.calls.set i .disconnected }

theorem steps_of_step {prepares : Bool} {o o' : ListenerOwner} {action : OwnerAction}
    (hstep : o.step prepares action = some o') : Steps prepares o action o' := by
  cases action with
  | checked j passes =>
    obtain ⟨session, hj, hstep⟩ := Option.bind_eq_some_iff.1 hstep
    split at hstep
    · cases hstep
      exact .checked hj ‹_› passes
    · cases hstep
  | started j result =>
    obtain ⟨session, hj, hstep⟩ := Option.bind_eq_some_iff.1 hstep
    split at hstep
    · cases hstep
      exact .started hj ‹_› result
    · cases hstep
  | stopped j =>
    obtain ⟨session, hj, hstep⟩ := Option.bind_eq_some_iff.1 hstep
    split at hstep
    · cases hstep
      exact .stopped hj ‹_›
    · cases hstep
  | finished j =>
    obtain ⟨session, hj, hstep⟩ := Option.bind_eq_some_iff.1 hstep
    split at hstep
    · cases hstep
      exact .finished hj ‹_›
    · cases hstep
  | closed i =>
    obtain ⟨call, hi, hstep⟩ := Option.bind_eq_some_iff.1 hstep
    split at hstep
    · cases hstep
      exact .closed hi
    · cases hstep
  | connect | disconnect =>
    cases hstep
    constructor

end ListenerOwner
end TheokitGateways.Gateway
