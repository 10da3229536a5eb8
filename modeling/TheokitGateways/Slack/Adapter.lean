import TheokitGateways.Gateway.Adapter
import TheokitGateways.Slack.Normalize
import TheokitGateways.Transition

/-!
# Slack: `SlackAdapter`

One run of `_doConnect` is shared by the `connect` calls that find it pending; a
`disconnect` waits for it, then stops the App the adapter holds and forgets it.
An App is named by its place among those that were made, an attempt by its place
among the runs of `_doConnect`, and a call by its place among the calls. Every
App that was made may deliver messages.
-/

namespace TheokitGateways.Slack
open Js Gateway

structure App where
  /-- `start` has resolved. -/
  started : Bool := false
  /-- A call of `stop` has settled. -/
  stopped : Bool := false
  deriving DecidableEq

/-- Where a run of `_doConnect` stands. -/
inductive Attempt where
  | starting (k : Nat)
  | authTest
  /-- It failed, and waits for the App that was held to stop. -/
  | cleaning (k : Nat)
  | returned (answer : Except JsAny Bool)
  /-- `finally` has run. -/
  | settled (answer : Except JsAny Bool)

inductive Call where
  /-- A `connect` that waits for an attempt. -/
  | connecting (j : Nat)
  | connected (answer : Except JsAny Bool)
  /-- A `disconnect` that waits for an attempt. -/
  | waiting (j : Nat)
  /-- A `disconnect` that waits for an App to stop. -/
  | stopping (k : Nat)
  | disconnected (result : Except JsAny Unit)

namespace Call

def isPending : Call → Bool
  | .connecting _ | .waiting _ | .stopping _ => true
  | .connected _ | .disconnected _ => false

def isDisconnect : Call → Bool
  | .waiting _ | .stopping _ | .disconnected _ => true
  | .connecting _ | .connected _ => false

/-- A `connect` that is pending or has answered true. -/
def wantsApp : Call → Bool
  | .connecting _ | .connected (.ok true) => true
  | _ => false

/-- The calls that wait for an attempt are answered as it was. -/
def answered (j : Nat) (answer : Except JsAny Bool) : Call → Call
  | .connecting i => if i = j then .connected answer else .connecting i
  | call => call

end Call

abbrev Handler := Nat

structure SlackAdapter where
  app : Option Nat := none
  connected : Bool := false
  botUserId : Option JsString := none
  handler : Option Handler := none
  connectingPromise : Option Nat := none
  apps : List App := []
  attempts : List Attempt := []
  calls : List Call := []
  /-- What the handlers were called with. -/
  delivered : List (Handler × SlackMessageEvent) := []

inductive Action where
  /-- `new App` returns or throws, when it is called. -/
  | connect (made : Except JsAny Unit)
  | disconnect
  | started (j : Nat) (result : Except JsAny Unit)
  /-- `auth.test` settles, with the `user_id` of its answer. -/
  | authTested (j : Nat) (userId : Except JsAny JsAny)
  /-- The App of a failed attempt has stopped, or its `stop` was rejected. -/
  | cleaned (j : Nat)
  /-- `finally` of an attempt runs. -/
  | finished (j : Nat)
  /-- A `disconnect` goes on after the attempt it waited for. -/
  | resumed (i : Nat)
  | stopped (i : Nat) (result : Except JsAny Unit)
  /-- An App delivers a message. -/
  | message (k : Nat) (body : BoltMessageBody)
  | onInbound (handler : Handler)
  | offInbound (handler : Handler)

/-- `String(userId ?? "")`. -/
def userIdText : JsAny → Except JsAny JsString
  | .undefined | .null => .ok []
  | userId => userId.toStr

/-- The member of `undefined` that is read. -/
def undefinedApp : JsAny :=
  .error (js "TypeError") (js "Cannot read properties of undefined (reading 'client')")

namespace SlackAdapter

def setAttempt (s : SlackAdapter) (j : Nat) (attempt : Attempt) : SlackAdapter :=
  { s with attempts := s.attempts.set j attempt }

def setCall (s : SlackAdapter) (i : Nat) (call : Call) : SlackAdapter :=
  { s with calls := s.calls.set i call }

def addCall (s : SlackAdapter) (call : Call) : SlackAdapter :=
  { s with calls := s.calls ++ [call] }

def modifyApp (s : SlackAdapter) (k : Nat) (f : App → App) : SlackAdapter :=
  { s with apps := s.apps.modify k f }

/-- The `catch` of `_doConnect`, up to its await if it has one: the text of the error may throw. -/
def caught (s : SlackAdapter) (j : Nat) (err : JsAny) : SlackAdapter :=
  match thrownText err with
  | .error e => s.setAttempt j (.returned (.error e))
  | .ok _ =>
    match s.app with
    | some k => s.setAttempt j (.cleaning k)
    | none => { s with app := none, botUserId := none }.setAttempt j (.returned (.ok false))

def connect (s : SlackAdapter) (made : Except JsAny Unit) : SlackAdapter :=
  if s.connected then s.addCall (.connected (.ok true))
  else
    match s.connectingPromise with
    | some j => s.addCall (.connecting j)
    | none =>
      let j := s.attempts.length
      let k := s.apps.length
      let s : SlackAdapter := { s with
        connectingPromise := some j
        attempts := s.attempts ++ [.starting k]
        calls := s.calls ++ [.connecting j] }
      match made with
      | .ok () => { s with app := some k, apps := s.apps ++ [{}] }
      | .error err => s.caught j err

/-- After `start` of an App: the client of the App that is held now is asked. -/
def started (s : SlackAdapter) (j k : Nat) : Except JsAny Unit → SlackAdapter
  | .ok () =>
    let s := s.modifyApp k fun app => { app with started := true }
    match s.app with
    | some _ => s.setAttempt j .authTest
    | none => s.caught j undefinedApp
  | .error err => s.caught j err

def authTested (s : SlackAdapter) (j : Nat) (userId : Except JsAny JsAny) : SlackAdapter :=
  match userId.bind userIdText with
  | .ok id =>
    { s with botUserId := some id, connected := true }.setAttempt j (.returned (.ok true))
  | .error err => s.caught j err

def cleaned (s : SlackAdapter) (j k : Nat) : SlackAdapter :=
  let s := s.modifyApp k fun app => { app with stopped := true }
  { s with app := none, botUserId := none }.setAttempt j (.returned (.ok false))

def finished (s : SlackAdapter) (j : Nat) (answer : Except JsAny Bool) : SlackAdapter :=
  { s.setAttempt j (.settled answer) with
    connectingPromise := none
    calls := s.calls.map (·.answered j answer) }

/-- Where a `disconnect` stands once no attempt is pending: it stops the App that is held. -/
def teardown (s : SlackAdapter) : Call :=
  match s.app with
  | none => .disconnected (.ok ())
  | some k => .stopping k

def disconnect (s : SlackAdapter) : SlackAdapter :=
  match s.connectingPromise with
  | some j => s.addCall (.waiting j)
  | none => s.addCall s.teardown

/-- After `stop` of an App: whatever is held is forgotten, unless the text of the error throws. -/
def stopped (s : SlackAdapter) (i k : Nat) (result : Except JsAny Unit) : SlackAdapter :=
  let s := s.modifyApp k fun app => { app with stopped := true }
  let printed : Except JsAny JsString := match result with
    | .ok () => .ok []
    | .error err => thrownText err
  match printed with
  | .ok _ =>
    { s with app := none, connected := false, botUserId := none }.setCall i (.disconnected (.ok ()))
  | .error e => s.setCall i (.disconnected (.error e))

def handleMessage (requireMention : Option Bool) (s : SlackAdapter) (body : BoltMessageBody) :
    SlackAdapter :=
  match s.handler with
  | none => s
  | some handler =>
    match normalizeSlackEvent body s.botUserId requireMention with
    | none => s
    | some event => { s with delivered := s.delivered ++ [(handler, event)] }

def step (requireMention : Option Bool) (s : SlackAdapter) : Action → Option SlackAdapter
  | .connect made => some (s.connect made)
  | .disconnect => some s.disconnect
  | .started j result => do
    let .starting k ← s.attempts[j]? | none
    return s.started j k result
  | .authTested j userId => do
    let .authTest ← s.attempts[j]? | none
    return s.authTested j userId
  | .cleaned j => do
    let .cleaning k ← s.attempts[j]? | none
    return s.cleaned j k
  | .finished j => do
    let .returned answer ← s.attempts[j]? | none
    return s.finished j answer
  | .resumed i => do
    let .waiting j ← s.calls[i]? | none
    let .settled _ ← s.attempts[j]? | none
    return s.setCall i s.teardown
  | .stopped i result => do
    let .stopping k ← s.calls[i]? | none
    return s.stopped i k result
  | .message k body =>
    if k < s.apps.length then some (s.handleMessage requireMention body) else none
  | .onInbound handler => some { s with handler := some handler }
  | .offInbound handler =>
    some (if s.handler = some handler then { s with handler := none } else s)

/-- What an action does, with the attempt or the call it takes up. -/
inductive Steps (requireMention : Option Bool) (s : SlackAdapter) :
    Action → SlackAdapter → Prop where
  | connect (made : Except JsAny Unit) :
    Steps requireMention s (.connect made) (s.connect made)
  | disconnect : Steps requireMention s .disconnect s.disconnect
  | started {j k : Nat} (hj : s.attempts[j]? = some (.starting k)) (result : Except JsAny Unit) :
    Steps requireMention s (.started j result) (s.started j k result)
  | authTested {j : Nat} (hj : s.attempts[j]? = some .authTest) (userId : Except JsAny JsAny) :
    Steps requireMention s (.authTested j userId) (s.authTested j userId)
  | cleaned {j k : Nat} (hj : s.attempts[j]? = some (.cleaning k)) :
    Steps requireMention s (.cleaned j) (s.cleaned j k)
  | finished {j : Nat} {answer : Except JsAny Bool}
    (hj : s.attempts[j]? = some (.returned answer)) :
    Steps requireMention s (.finished j) (s.finished j answer)
  | resumed {i j : Nat} {answer : Except JsAny Bool} (hi : s.calls[i]? = some (.waiting j))
    (hj : s.attempts[j]? = some (.settled answer)) :
    Steps requireMention s (.resumed i) (s.setCall i s.teardown)
  | stopped {i k : Nat} (hi : s.calls[i]? = some (.stopping k)) (result : Except JsAny Unit) :
    Steps requireMention s (.stopped i result) (s.stopped i k result)
  | message {k : Nat} (hk : k < s.apps.length) (body : BoltMessageBody) :
    Steps requireMention s (.message k body) (s.handleMessage requireMention body)
  | onInbound (handler : Handler) :
    Steps requireMention s (.onInbound handler) { s with handler := some handler }
  | offInbound (handler : Handler) :
    Steps requireMention s (.offInbound handler)
      (if s.handler = some handler then { s with handler := none } else s)

theorem steps_of_step {requireMention : Option Bool} {s s' : SlackAdapter} {action : Action}
    (hstep : s.step requireMention action = some s') : Steps requireMention s action s' := by
  cases action with
  | started j result =>
    obtain ⟨attempt, hj, hstep⟩ := Option.bind_eq_some_iff.1 hstep
    split at hstep
    · cases hstep
      exact .started hj result
    · cases hstep
  | authTested j userId =>
    obtain ⟨attempt, hj, hstep⟩ := Option.bind_eq_some_iff.1 hstep
    split at hstep
    · cases hstep
      exact .authTested hj userId
    · cases hstep
  | cleaned j =>
    obtain ⟨attempt, hj, hstep⟩ := Option.bind_eq_some_iff.1 hstep
    split at hstep
    · cases hstep
      exact .cleaned hj
    · cases hstep
  | finished j =>
    obtain ⟨attempt, hj, hstep⟩ := Option.bind_eq_some_iff.1 hstep
    split at hstep
    · cases hstep
      exact .finished hj
    · cases hstep
  | resumed i =>
    obtain ⟨call, hi, hstep⟩ := Option.bind_eq_some_iff.1 hstep
    split at hstep
    · obtain ⟨attempt, hj, hstep⟩ := Option.bind_eq_some_iff.1 hstep
      split at hstep
      · cases hstep
        exact .resumed hi hj
      · cases hstep
    · cases hstep
  | stopped i result =>
    obtain ⟨call, hi, hstep⟩ := Option.bind_eq_some_iff.1 hstep
    split at hstep
    · cases hstep
      exact .stopped hi result
    · cases hstep
  | message k body =>
    obtain ⟨hk, hstep⟩ := Option.ite_none_right_eq_some.1 hstep
    cases hstep
    exact .message hk body
  | connect | disconnect | onInbound | offInbound =>
    cases hstep
    constructor

end SlackAdapter
end TheokitGateways.Slack
