import TheokitGateways.Async.Prog
import TheokitGateways.Gateway.Adapter
import TheokitGateways.Js.Any

/-!
# Hooks and the executor that fires them

A hook may be fired before an event is handled, after a reply and on an error.
What a hook throws is caught and printed, and printing it can throw again: a
thrown value need not have a message, nor one that converts to a string.
`redact` is the redactor the sources pass a text through.
-/

namespace TheokitGateways.Gateway
open Js Async

/-- What `pre_inbound` decides. -/
structure HookDecision where
  block : Option Bool := none
  message : Option JsString := none
  deriving DecidableEq

/-- A registered hook and the phases it declares: the executor's constructor refuses one without
a name, and one that declares no phase. -/
structure GatewayHook where
  name : JsString
  preInbound : Bool
  postOutbound : Bool
  onError : Bool
  name_ne_nil : name ≠ []
  declares_phase : preInbound || postOutbound || onError
  deriving DecidableEq

/-- The text `redactSecrets((err as Error).message)`. -/
def redacted (redact : JsString → JsString) (err : JsAny) : Except JsAny JsString := do
  let message ← err.read (js "message")
  return redact (← message.toStr)

/-- The text `(err as Error).message` has in a template. -/
def printed (err : JsAny) : Except JsAny JsString := do
  (← err.read (js "message")).interpolate

/-- What a dispatch calls. -/
inductive DispatchCall where
  | preInbound (hook : GatewayHook)
  /-- The handler of a command, or the default one. -/
  | handler (command : Option JsString)
  | onError (hook : GatewayHook) (error : JsAny)
  | reply (outbound : OutboundMessage)

abbrev DispatchCall.Answer : DispatchCall → Type
  | .preInbound _ => Option HookDecision
  | .handler _ => Unit
  | .onError _ _ => Unit
  | .reply _ => SendResult

/-- What a reply attempt calls. -/
inductive DeliverCall where
  | sendMessage (platform : JsString) (outbound : OutboundMessage)
  | postOutbound (hook : GatewayHook) (outbound : OutboundMessage) (result : SendResult)

abbrev DeliverCall.Answer : DeliverCall → Type
  | .sendMessage _ _ => SendResult
  | .postOutbound _ _ _ => Unit

abbrev DispatchProg (α : Type) : Type := Prog DispatchCall DispatchCall.Answer JsAny JsString α

abbrev DeliverProg (α : Type) : Type := Prog DeliverCall DeliverCall.Answer JsAny JsString α

abbrev DispatchEvent : Type := Event DispatchCall DispatchCall.Answer JsAny JsString

abbrev DeliverEvent : Type := Event DeliverCall DeliverCall.Answer JsAny JsString

/-- The decision of a hook that blocks. -/
def blocking (decision : Option HookDecision) : Option HookDecision :=
  decision.filter (·.block = some true)

/-- The line that names a hook's failure. -/
def hookLine (phase name message : JsString) : JsString :=
  js "[gateway] " ++ phase ++ js " hook \"" ++ name ++ js "\" threw: " ++ message ++ js "\n"

/-- A hook that throws blocks, with a message that does not carry what it threw. -/
def hookFailed (redact : JsString → JsString) (h : GatewayHook) (err : JsAny) :
    DispatchProg HookDecision := do
  let message ← Prog.ofExcept (redacted redact err)
  Prog.write (hookLine (js "pre_inbound") h.name message)
  return {
    block := some true
    message := some (js "Request blocked: hook \"" ++ h.name ++ js "\" failed.") }

/-- `pre_inbound` hooks one after another, up to the first that blocks or throws. -/
def firePreInbound (redact : JsString → JsString) : List GatewayHook → DispatchProg HookDecision
  | [] => return { block := some false }
  | h :: hooks =>
    if !h.preInbound then firePreInbound redact hooks
    else do
      match ← Prog.settle (.preInbound h) with
      | .error err => hookFailed redact h err
      | .ok decision =>
        match blocking decision with
        | some decision => return decision
        | none => firePreInbound redact hooks

/-- What is done with how a hook that only observes settled. -/
def report {Call : Type} {Answer : Call → Type} (phase : JsString) (h : GatewayHook) :
    Except JsAny Unit → Prog Call Answer JsAny JsString Unit
  | .ok () => return ()
  | .error err => do
    let message ← Prog.ofExcept (printed err)
    Prog.write (hookLine phase h.name message)

/-- The hooks of a phase that only observes, one after another, whatever they throw. -/
def fireObservers {Call : Type} {Answer : Call → Type} (phase : JsString)
    (declares : GatewayHook → Bool)
    (fire : GatewayHook → Prog Call Answer JsAny JsString (Except JsAny Unit)) :
    List GatewayHook → Prog Call Answer JsAny JsString Unit
  | [] => return ()
  | h :: hooks =>
    if !declares h then fireObservers phase declares fire hooks
    else do
      let settled ← fire h
      report phase h settled
      fireObservers phase declares fire hooks

def firePostOutbound (hooks : List GatewayHook) (outbound : OutboundMessage)
    (result : SendResult) : DeliverProg Unit :=
  fireObservers (js "post_outbound") (·.postOutbound)
    (fun h => Prog.settle (DeliverCall.postOutbound h outbound result)) hooks

def fireOnError (hooks : List GatewayHook) (error : JsAny) : DispatchProg Unit :=
  fireObservers (js "on_error") (·.onError)
    (fun h => Prog.settle (DispatchCall.onError h error)) hooks

section
variable {Call : Type} {Answer : Call → Type} {α : Type} {phase : JsString} {h : GatewayHook}
variable {f : Unit → Prog Call Answer JsAny JsString α}

theorem report_ok : (report phase h (.ok ()) >>= f) = f () := rfl

theorem report_printed {err : JsAny} {message : JsString} (hprinted : printed err = .ok message) :
    (report phase h (.error err) >>= f) = .emit (hookLine phase h.name message) (f ()) := by
  simp only [report, hprinted]
  rfl

theorem report_throw {err e : JsAny} (hprinted : printed err = .error e) :
    (report phase h (.error err) >>= f) = .throw e := by
  simp only [report, hprinted]
  rfl

end

end TheokitGateways.Gateway
