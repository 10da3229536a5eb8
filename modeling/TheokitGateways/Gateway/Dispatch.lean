import TheokitGateways.Gateway.Hooks

/-!
# One inbound event through the hook chain

`dispatch` fires the hooks, picks the handler and runs it; every reply, the
handler's and the one that answers a block, is an attempt of its own, `deliver`.
-/

namespace TheokitGateways.Gateway
open Js Async

/-- What `start` does when an adapter fails to connect. -/
inductive ConnectFailure where
  | rollback | isolate
  deriving DecidableEq

/-- What a runner is built with, and the commands registered on it, in order. -/
structure GatewayRunnerOptions where
  /-- The platforms of the adapters. -/
  adapters : List JsString
  hooks : List GatewayHook
  commandPrefixes : List JsString := [js "/"]
  commands : List JsString
  connectFailure : ConnectFailure := .rollback

/-- The command an event's text names: its first prefix that matches, then the name, then the
end of the text, a space or an `@`. -/
def matchSlashCommand (opts : GatewayRunnerOptions) (event : BaseMessageEvent) :
    Option JsString := do
  let activePrefix ← opts.commandPrefixes.find? (·.isPrefixOf event.text)
  opts.commands.find? fun name =>
    let full := activePrefix ++ name
    event.text = full || (full ++ js " ").isPrefixOf event.text ||
      (full ++ js "@").isPrefixOf event.text

/-- The error of a reply to a platform without an adapter. -/
def noAdapter (platform : JsString) : SendResult :=
  .failure (js "no_adapter") (js "no adapter for " ++ platform)

/-- One reply attempt: it is sent by the adapter of the event's platform, and every
`post_outbound` hook is told of it. -/
def deliver (opts : GatewayRunnerOptions) (event : BaseMessageEvent)
    (outbound : OutboundMessage) : DeliverProg SendResult := do
  let result ←
    if event.platform ∈ opts.adapters then
      Prog.await (DeliverCall.sendMessage event.platform outbound)
    else pure (noAdapter event.platform)
  firePostOutbound opts.hooks outbound result
  return result

/-- What the dispatch does with the handler's settlement. -/
def handlerSettled (redact : JsString → JsString) (opts : GatewayRunnerOptions) :
    Except JsAny Unit → DispatchProg Unit
  | .ok () => return ()
  | .error err => do
    fireOnError opts.hooks err
    let message ← Prog.ofExcept (redacted redact err)
    Prog.write (js "[gateway] handler error: " ++ message ++ js "\n")

/-- What follows the decision of the hooks: a reply to a block with a message, or the
handler. -/
def decided (redact : JsString → JsString) (opts : GatewayRunnerOptions)
    (event : BaseMessageEvent) (decision : HookDecision) : DispatchProg Unit :=
  if decision.block = some true then
    match decision.message with
    | none | some [] => return ()
    | some message => do
      -- `.catch(() => undefined)`: however the reply ends
      let _ ← Prog.settle (DispatchCall.reply { channel := event.channel, text := message })
      return ()
  else do
    let settled ← Prog.settle (DispatchCall.handler (matchSlashCommand opts event))
    handlerSettled redact opts settled

def dispatch (redact : JsString → JsString) (opts : GatewayRunnerOptions)
    (event : BaseMessageEvent) : DispatchProg Unit := do
  let decision ← firePreInbound redact opts.hooks
  decided redact opts event decision

end TheokitGateways.Gateway
