import TheokitGateways.Gateway.Dispatch
import TheokitGateways.Js.OrderedMap

/-!
# The runner's lifecycle

`start` connects the adapters and wires those that connected, `stop` drains the
dispatches under way and disconnects. Adapters are named by their places in the
options. A step is what runs between two points where other code may run: an
`await`, or a call of an adapter that may call the runner back before the runner
has recorded what the call was for (`connect` and `onInbound`). What the runner
does to its adapters, and how its promises settle, goes into a log, the newest
first.
-/

namespace TheokitGateways.Gateway
open Js Async

namespace GatewayRunnerOptions

/-- `adaptersByPlatform`: of two adapters of one platform the later is held. -/
def adaptersByPlatform (opts : GatewayRunnerOptions) : OrderedMap JsString Nat :=
  opts.adapters.zipIdx.foldl (fun m a => m.set a.1 a.2) .empty

/-- The adapters the runner holds. -/
def registered (opts : GatewayRunnerOptions) : List Nat :=
  opts.adaptersByPlatform.entries.map Prod.snd

def platform (opts : GatewayRunnerOptions) (i : Nat) : JsString := opts.adapters.getD i []

end GatewayRunnerOptions

/-- How a caught value is described: an error by its message, any other by its text. -/
def described (redact : JsString → JsString) (err : JsAny) : Except JsAny JsString := do
  if ← err.instanceOfError then redacted redact err
  else return redact (← err.toStr)

structure GatewayLifecycleError where
  code : JsString
  message : JsString
  deriving DecidableEq

def runnerStopped : GatewayLifecycleError where
  code := js "runner_stopped"
  message := js "GatewayRunner.start(): this runner has already been stopped and cannot be " ++
    js "restarted. Construct a new GatewayRunner instead."

/-- An adapter that did not connect, and why. -/
structure FailedConnect where
  platform : JsString
  reason : JsString
  deriving DecidableEq

/-- What a start resolves with. -/
structure StartResult where
  connected : List JsString
  failed : List FailedConnect
  deriving DecidableEq

/-- What the connects of a start came to. -/
structure ConnectOutcome where
  connected : List Nat
  failed : List FailedConnect

inductive LogEvent where
  | startRefused (error : GatewayLifecycleError)
  | startReturned (result : StartResult)
  /-- A `start()` that is given the promise of the start `k`. -/
  | startJoined (k : Nat)
  | startBegun (k : Nat)
  | connect (k i : Nat)
  | connectSettled (k i : Nat) (r : Except JsAny Bool)
  | disconnect (i : Nat)
  | subscribe (k i : Nat)
  | unsubscribe (k i : Nat)
  | startSettled (k : Nat) (r : Except JsAny StartResult)
  | stopCalled
  | stopAgain
  | stopSettled (r : Except JsAny Unit)
  | wrote (line : JsString)

/-- `releaseAdapters` after it has called every `disconnect()`. -/
structure Release where
  during : JsString
  remaining : List Nat
  rejected : Option JsAny := none

namespace Release

/-- The line that names an adapter whose `disconnect()` failed. -/
def failedLine (platform during message : JsString) : JsString :=
  js "[gateway] adapter \"" ++ platform ++ js "\" disconnect failed while " ++ during ++ js ": " ++
    message ++ js "\n"

/-- One `disconnect()` settles. The first failure that cannot be described rejects. -/
def settle (redact : JsString → JsString) (opts : GatewayRunnerOptions) (release : Release)
    (i : Nat) (r : Except JsAny Unit) : Release × List LogEvent :=
  let remaining := release.remaining.erase i
  match r with
  | .ok () => ({ release with remaining := remaining }, [])
  | .error err =>
    match described redact err with
    | .ok message =>
      ({ release with remaining := remaining },
        [.wrote (failedLine (opts.platform i) release.during message)])
    | .error e =>
      ({ release with remaining := remaining, rejected := release.rejected.or (some e) }, [])

/-- How the release has settled: at the first rejection, or after the last `disconnect()`. -/
def result (release : Release) : Option (Except JsAny Unit) :=
  match release.rejected with
  | some e => some (.error e)
  | none => if release.remaining = [] then some (.ok ()) else none

end Release

/-- Where a start is. -/
inductive StartPhase where
  /-- It is in the call `connect()` of the last adapter called. -/
  | calling
  /-- It waits for the connects. -/
  | connecting
  | rollingBack (release : Release) (failure : JsAny)
  /-- The connects are done and `runStart` has not gone on. -/
  | joined (outcome : ConnectOutcome)
  /-- It gives back what it connected, having been overtaken by a stop. -/
  | releasing (release : Release) (failed : List FailedConnect)
  /-- It is in the call `onInbound()` of an adapter, with others to come. -/
  | wiring (next : Nat) (rest : List Nat) (outcome : ConnectOutcome)
  | settled (r : Except JsAny StartResult)

structure StartRun where
  /-- How the connects called so far settled. -/
  outcomes : List (Option (Except JsAny Bool)) := []
  /-- What went wrong with them, in the order it did. -/
  failures : List JsAny := []
  phase : StartPhase := .calling

namespace StartRun

def new : StartRun := {}

def succeeded (run : StartRun) (i : Nat) : Bool :=
  match run.outcomes[i]? with
  | some (some (.ok true)) => true
  | _ => false

theorem succeeded_iff {run : StartRun} {i : Nat} :
    run.succeeded i = true ↔ run.outcomes[i]? = some (some (.ok true)) := by
  unfold succeeded
  split <;> simp_all

/-- The adapters that connected. -/
def connected (run : StartRun) : List Nat := (List.range run.outcomes.length).filter run.succeeded

theorem mem_connected {run : StartRun} {i : Nat} :
    i ∈ run.connected ↔ run.succeeded i = true := by
  rw [connected, List.mem_filter, List.mem_range]
  refine ⟨And.right, fun h => ⟨?_, h⟩⟩
  exact (List.getElem?_eq_some_iff.1 (succeeded_iff.1 h)).1

/-- What a connect that settled so adds to the failures. -/
def failuresOf (platform : JsString) : Except JsAny Bool → List JsAny
  | .ok true => []
  | .ok false =>
    [JsAny.error (js "Error") (js "adapter \"" ++ platform ++ js "\" connect returned false")]
  | .error err => [err]

def connectFailureReason (redact : JsString → JsString) :
    Option (Except JsAny Bool) → Except JsAny JsString
  | some (.error err) => described redact err
  | _ => .ok (js "connect returned false")

/-- `connectIsolated` once every connect has settled: it throws at the first reason that cannot
be described. -/
def connectIsolated (redact : JsString → JsString) (opts : GatewayRunnerOptions) (run : StartRun) :
    Except JsAny ConnectOutcome := do
  let failed ← ((List.range run.outcomes.length).filter (!run.succeeded ·)).mapM fun i => do
    let reason ← connectFailureReason redact (run.outcomes[i]?).join
    return { platform := opts.platform i, reason }
  return { connected := run.connected, failed }

end StartRun

inductive StopPhase where
  | notCalled
  /-- It waits for these dispatches, and for the timer. -/
  | draining (awaited : List Nat)
  | releasing (release : Release)
  | settled (r : Except JsAny Unit)

def StopPhase.called : StopPhase → Bool
  | .notCalled => false
  | _ => true

/-- Whether a dispatch's promise is in `inflight`. -/
inductive Tracking where
  /-- `dispatch` has not returned it yet. -/
  | calling
  | tracked
  | dropped
  deriving DecidableEq

/-- A dispatch under way. Of the two promises `inflight` holds for it the inner one is the tail of
the outer one, and settles as it does. -/
structure Dispatched where
  prog : DispatchProg Unit
  tracking : Tracking

structure Runner where
  startResult : Option StartResult := none
  startInFlight : Option Nat := none
  runs : List StartRun := []
  unsubs : List (Nat × Nat) := []
  dispatches : List Dispatched := []
  stopPhase : StopPhase := .notCalled
  log : List LogEvent := []

namespace Runner

inductive Action where
  | start
  /-- The call `connect()` the start `k` is in returns. -/
  | connectReturns (k : Nat)
  | connectSettles (k i : Nat) (r : Except JsAny Bool)
  /-- Every connect of the start `k` has settled, and it goes on. -/
  | connectsDone (k : Nat)
  | resumeStart (k : Nat)
  /-- The call `onInbound()` the start `k` is in returns, or throws. -/
  | onInboundReturns (k : Nat) (thrown : Option JsAny)
  | startDisconnects (k i : Nat) (r : Except JsAny Unit)
  | startReleased (k : Nat)
  /-- The reaction to a rejected start forgets it. -/
  | clearStart (k : Nat)
  | stop
  | drained
  | drainRejects (d : Nat)
  | drainTimeout
  | stopDisconnects (i : Nat) (r : Except JsAny Unit)
  | stopReleased
  /-- An adapter calls back with an event. -/
  | inbound (i : Nat) (event : BaseMessageEvent)
  | dispatchReturns (d : Nat)
  | dispatchStep (d : Nat) (env : ∀ c : DispatchCall, Except JsAny c.Answer)
  | untrack (d : Nat)

section
variable (redact : JsString → JsString) (opts : GatewayRunnerOptions)

/-- Note events, the oldest first. -/
def note (s : Runner) (events : List LogEvent) : Runner :=
  { s with log := events.reverse ++ s.log }

def setRun (s : Runner) (k : Nat) (run : StartRun) : Runner :=
  { s with runs := s.runs.set k run }

/-- The start `k` calls the next `connect()`, or is recorded as the one in flight. -/
def callNext (s : Runner) (k : Nat) (run : StartRun) : Runner :=
  if run.outcomes.length < opts.adapters.length then
    (s.setRun k { run with outcomes := run.outcomes ++ [none] }).note
      [.connect k run.outcomes.length]
  else { s.setRun k { run with phase := .connecting } with startInFlight := some k }

def start (s : Runner) : Runner :=
  if s.stopPhase.called then s.note [.startRefused runnerStopped]
  else
    match s.startResult, s.startInFlight with
    | some result, _ => s.note [.startReturned result]
    | none, some k => s.note [.startJoined k]
    | none, none =>
      ({ s with runs := s.runs ++ [StartRun.new] }.note [.startBegun s.runs.length]).callNext opts
        s.runs.length .new

def connectReturns (s : Runner) (k : Nat) : Option Runner := do
  let run ← s.runs[k]?
  match run.phase with
  | .calling => some (s.callNext opts k run)
  | _ => none

/-- A connect settles, at any time after it was called. -/
def connectSettles (s : Runner) (k i : Nat) (r : Except JsAny Bool) : Option Runner := do
  let run ← s.runs[k]?
  match run.phase, run.outcomes[i]? with
  | .calling, some none | .connecting, some none =>
    some ((s.setRun k { run with
        outcomes := run.outcomes.set i (some r)
        failures := run.failures ++ StartRun.failuresOf (opts.platform i) r }).note
      [.connectSettled k i r])
  | _, _ => none

def settleStart (s : Runner) (k : Nat) (run : StartRun) (r : Except JsAny StartResult) : Runner :=
  (s.setRun k { run with phase := .settled r }).note [.startSettled k r]

/-- The start resolves with a result it leaves for later calls. -/
def resolveStart (s : Runner) (k : Nat) (run : StartRun) (result : StartResult) : Runner :=
  { s with startResult := some result }.settleStart k run (.ok result)

/-- What `connectAllOrRollback` or `connectIsolated` does when every connect has settled. -/
def connectsDone (s : Runner) (k : Nat) : Option Runner := do
  let run ← s.runs[k]?
  match run.phase with
  | .connecting =>
    if !run.outcomes.all Option.isSome then none
    else
      match opts.connectFailure with
      | .rollback =>
        match run.failures with
        | [] =>
          some (s.setRun k { run with
            phase := .joined { connected := List.range opts.adapters.length, failed := [] } })
        | failure :: _ =>
          some ((s.setRun k { run with
              phase := .rollingBack
                { during := js "rolling back a failed start", remaining := run.connected }
                failure }).note (run.connected.map .disconnect))
      | .isolate =>
        match run.connectIsolated redact opts with
        | .ok outcome => some (s.setRun k { run with phase := .joined outcome })
        | .error e => some (s.settleStart k run (.error e))
  | _ => none

/-- What a start that wired these adapters resolves with. -/
def resultOf (outcome : ConnectOutcome) : StartResult where
  connected := outcome.connected.map opts.platform
  failed := outcome.failed

/-- `wireInbound` calls the next `onInbound()`, or the start resolves. -/
def wireNext (s : Runner) (k : Nat) (run : StartRun) (outcome : ConnectOutcome) :
    List Nat → Runner
  | [] => s.resolveStart k run (resultOf opts outcome)
  | next :: rest => s.setRun k { run with phase := .wiring next rest outcome }

/-- `runStart` after its connects. -/
def resumeStart (s : Runner) (k : Nat) : Option Runner := do
  let run ← s.runs[k]?
  match run.phase with
  | .joined outcome =>
    if s.stopPhase.called then
      some ((s.setRun k { run with
          phase := .releasing
            { during := js "releasing a start that stop() overtook"
              remaining := outcome.connected }
            outcome.failed }).note (outcome.connected.map .disconnect))
    else some (s.wireNext opts k run outcome outcome.connected)
  | _ => none

def onInboundReturns (s : Runner) (k : Nat) (thrown : Option JsAny) : Option Runner := do
  let run ← s.runs[k]?
  match run.phase, thrown with
  | .wiring _ _ _, some e => some (s.settleStart k run (.error e))
  | .wiring next rest outcome, none =>
    some (({ s with unsubs := s.unsubs ++ [(k, next)] }.note [.subscribe k next]).wireNext opts k
      run outcome rest)
  | _, _ => none

def startDisconnects (s : Runner) (k i : Nat) (r : Except JsAny Unit) : Option Runner := do
  let run ← s.runs[k]?
  match run.phase with
  | .rollingBack release failure =>
    if i ∉ release.remaining then none
    else
      let (release, events) := release.settle redact opts i r
      some ((s.setRun k { run with phase := .rollingBack release failure }).note events)
  | .releasing release failed =>
    if i ∉ release.remaining then none
    else
      let (release, events) := release.settle redact opts i r
      some ((s.setRun k { run with phase := .releasing release failed }).note events)
  | _ => none

/-- The release of a start has settled. -/
def startReleased (s : Runner) (k : Nat) : Option Runner := do
  let run ← s.runs[k]?
  match run.phase with
  | .rollingBack release failure =>
    match ← release.result with
    | .ok () => some (s.settleStart k run (.error failure))
    | .error e => some (s.settleStart k run (.error e))
  | .releasing release failed =>
    match ← release.result with
    | .ok () => some (s.resolveStart k run { connected := [], failed })
    | .error e => some (s.settleStart k run (.error e))
  | _ => none

def clearStart (s : Runner) (k : Nat) : Option Runner := do
  let run ← s.runs[k]?
  match run.phase with
  | .settled (.error _) =>
    if s.startInFlight = some k then some { s with startInFlight := none } else none
  | _ => none

/-- The dispatches whose promises are in `inflight`. -/
def inflight (s : Runner) : List Nat :=
  (List.range s.dispatches.length).filter fun d =>
    (s.dispatches[d]?).any (·.tracking = .tracked)

/-- `stop` after its drain: it disconnects every adapter the runner holds. -/
def releaseRegistered (s : Runner) : Runner :=
  { s with
    stopPhase := .releasing
      { during := js "stopping the runner", remaining := opts.registered } }.note
    (opts.registered.map .disconnect)

def stop (s : Runner) : Runner :=
  if s.stopPhase.called then s.note [.stopAgain]
  else
    let s := { s with unsubs := [] }.note
      (.stopCalled :: s.unsubs.map fun (k, i) => .unsubscribe k i)
    if s.inflight = [] then s.releaseRegistered opts
    else { s with stopPhase := .draining s.inflight }

/-- `Promise.all` of the awaited dispatches resolves. -/
def drained (s : Runner) : Option Runner :=
  match s.stopPhase with
  | .draining awaited =>
    if awaited.all fun d => (s.dispatches[d]?).any (·.prog.result matches some (.ok _)) then
      some (s.releaseRegistered opts)
    else none
  | _ => none

def settleStop (s : Runner) (r : Except JsAny Unit) : Runner :=
  { s with stopPhase := .settled r }.note [.stopSettled r]

/-- `Promise.all` of the awaited dispatches rejects with the first of them that did. -/
def drainRejects (s : Runner) (d : Nat) : Option Runner := do
  let dispatched ← s.dispatches[d]?
  match s.stopPhase, dispatched.prog.result with
  | .draining awaited, some (.error e) =>
    if d ∈ awaited then some (s.settleStop (.error e)) else none
  | _, _ => none

/-- The timer ends the drain. -/
def drainTimeout (s : Runner) : Option Runner :=
  match s.stopPhase with
  | .draining _ => some (s.releaseRegistered opts)
  | _ => none

def stopDisconnects (s : Runner) (i : Nat) (r : Except JsAny Unit) : Option Runner :=
  match s.stopPhase with
  | .releasing release =>
    if i ∉ release.remaining then none
    else
      let (release, events) := release.settle redact opts i r
      some ({ s with stopPhase := .releasing release }.note events)
  | _ => none

def stopReleased (s : Runner) : Option Runner :=
  match s.stopPhase with
  | .releasing release => release.result.map s.settleStop
  | _ => none

/-- An adapter the runner has subscribed to begins a dispatch. -/
def inbound (s : Runner) (i : Nat) (event : BaseMessageEvent) : Option Runner :=
  if s.log.any fun | .subscribe _ j => i = j | _ => false then
    some { s with dispatches := s.dispatches ++ [⟨dispatch redact opts event, .calling⟩] }
  else none

def dispatchReturns (s : Runner) (d : Nat) : Option Runner := do
  let dispatched ← s.dispatches[d]?
  if dispatched.tracking = .calling then
    some { s with dispatches := s.dispatches.set d { dispatched with tracking := .tracked } }
  else none

def dispatchStep (s : Runner) (d : Nat) (env : ∀ c : DispatchCall, Except JsAny c.Answer) :
    Option Runner := do
  let dispatched ← s.dispatches[d]?
  let next ← dispatched.prog.step env
  some { s with dispatches := s.dispatches.set d { dispatched with prog := next.2 } }

/-- The promise of a dispatch that has settled leaves `inflight`. -/
def untrack (s : Runner) (d : Nat) : Option Runner := do
  let dispatched ← s.dispatches[d]?
  if dispatched.tracking = .tracked ∧ dispatched.prog.finished then
    some { s with dispatches := s.dispatches.set d { dispatched with tracking := .dropped } }
  else none

def step (s : Runner) : Action → Option Runner
  | .start => some (s.start opts)
  | .connectReturns k => s.connectReturns opts k
  | .connectSettles k i r => s.connectSettles opts k i r
  | .connectsDone k => s.connectsDone redact opts k
  | .resumeStart k => s.resumeStart opts k
  | .onInboundReturns k thrown => s.onInboundReturns opts k thrown
  | .startDisconnects k i r => s.startDisconnects redact opts k i r
  | .startReleased k => s.startReleased k
  | .clearStart k => s.clearStart k
  | .stop => some (s.stop opts)
  | .drained => s.drained opts
  | .drainRejects d => s.drainRejects d
  | .drainTimeout => s.drainTimeout opts
  | .stopDisconnects i r => s.stopDisconnects redact opts i r
  | .stopReleased => s.stopReleased
  | .inbound i event => s.inbound redact opts i event
  | .dispatchReturns d => s.dispatchReturns d
  | .dispatchStep d env => s.dispatchStep d env
  | .untrack d => s.untrack d

end

end Runner

end TheokitGateways.Gateway
