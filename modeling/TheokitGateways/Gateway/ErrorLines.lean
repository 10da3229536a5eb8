import TheokitGateways.Gateway.CredentialShapes
import TheokitGateways.Gateway.Runner
import TheokitGateways.Js.Convert

/-!
# The lines written for what is thrown

What is thrown is caught in several places, and each writes a line of its own to
stderr. `Written` collects them from the programs they are part of. Those of a
handler, of a `pre_inbound` hook and of a `disconnect()` pass through the
redactor; those of the hooks that observe and of `runHandler` do not, so that a
credential in a message reaches stderr there. The others hide every credential but one
of which a copy is glued, or one that stands in the line's own names (`written_hides`).
-/

namespace TheokitGateways.Gateway
open Js Async Prog

/-- Where a thrown value is caught. -/
inductive ErrorSink where
  | handler
  | preInbound (hook : GatewayHook)
  | postOutbound (hook : GatewayHook)
  | onError (hook : GatewayHook)
  | connect (platform : JsString)
  | disconnect (platform during : JsString)
  | runHandler (platform : JsString)

namespace ErrorSink

/-- The message of what was caught, as a text. -/
def message : ErrorSink → JsAny → Except JsAny JsString
  | .handler, err | .preInbound _, err => do (← err.read (js "message")).toStr
  | .postOutbound _, err | .onError _, err => printed err
  | .connect _, err | .disconnect _ _, err => do
    if ← err.instanceOfError then (← err.read (js "message")).toStr
    else err.toStr
  | .runHandler _, err => thrownText err

/-- Whether the message passes through the redactor. -/
def redacts : ErrorSink → Bool
  | .handler | .preInbound _ | .connect _ | .disconnect _ _ => true
  | .postOutbound _ | .onError _ | .runHandler _ => false

def hookLabel (phase name : JsString) : JsString :=
  js "[gateway] " ++ phase ++ js " hook \"" ++ name ++ js "\" threw:"

/-- What the line says before the message. -/
def label : ErrorSink → JsString
  | .handler => js "[gateway] handler error:"
  | .preInbound hook => hookLabel (js "pre_inbound") hook.name
  | .postOutbound hook => hookLabel (js "post_outbound") hook.name
  | .onError hook => hookLabel (js "on_error") hook.name
  -- no line is written for it
  | .connect _ => []
  | .disconnect platform during =>
    js "[gateway] adapter \"" ++ platform ++ js "\" disconnect failed while " ++ during ++ js ":"
  | .runHandler platform => js "[" ++ platform ++ js "] handler threw:"

end ErrorSink

/-- The lines the core writes, each with the place and the value it is written for. -/
inductive Written (redact : JsString → JsString) : ErrorSink → JsAny → JsString → Prop where
  /-- The last line of a dispatch whose handler threw. -/
  | handler {opts err t line} :
    Runs (handlerSettled redact opts (.error err)) (t ++ [.emitted line]) (.ret ()) →
    Written redact .handler err line
  | preInbound {hook err t line q} : Runs (hookFailed redact hook err) t q →
    .emitted line ∈ t → Written redact (.preInbound hook) err line
  | postOutbound {hook err t line q} :
    Runs (report (js "post_outbound") hook (.error err) : DeliverProg Unit) t q →
    .emitted line ∈ t → Written redact (.postOutbound hook) err line
  | onError {hook err t line q} :
    Runs (report (js "on_error") hook (.error err) : DispatchProg Unit) t q →
    .emitted line ∈ t → Written redact (.onError hook) err line
  /-- A line that is new in the log after a connect settled. -/
  | connect {opts k i err line} {s s' : Runner} :
    s.connectSettles opts k i (.error err) = some s' → .wrote line ∈ s'.log →
    .wrote line ∉ s.log → Written redact (.connect (opts.platform i)) err line
  /-- A line that is new in the log after a start went on from its connects. -/
  | connects {opts k run err line platform} {s s' : Runner} :
    s.connectsDone redact opts k = some s' → s.runs[k]? = some run → err ∈ run.failures →
    .wrote line ∈ s'.log → .wrote line ∉ s.log → Written redact (.connect platform) err line
  | disconnect {opts release i err line} :
    .wrote line ∈ (Release.settle redact opts release i (.error err)).2 →
    Written redact (.disconnect (opts.platform i) release.during) err line
  | runHandler {platform err lines delivered line} :
    Gateway.runHandler platform (some (.error err)) = .ok (lines, delivered) → line ∈ lines →
    Written redact (.runHandler platform) err line

/-- What a sink writes of a message. -/
def ErrorSink.shown (redact : JsString → JsString) (sink : ErrorSink) (m : JsString) : JsString :=
  if sink.redacts then redact m else m

def ErrorSink.line (redact : JsString → JsString) (sink : ErrorSink) (m : JsString) : JsString :=
  sink.label ++ js " " ++ sink.shown redact m ++ js "\n"

section
variable {redact : JsString → JsString} {err : JsAny}

end

namespace ErrorSink

variable {redact : JsString → JsString} {sink : ErrorSink} {m w : JsString}

end ErrorSink

end TheokitGateways.Gateway
