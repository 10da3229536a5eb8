import TheokitGateways.Gateway.MessageEvent
import TheokitGateways.Js.Any

/-!
# What passes between the runner and an adapter

The message an adapter sends and the result it answers instead of throwing, and
how an adapter runs the handler the runner subscribed.
-/

namespace TheokitGateways.Gateway
open Js

inductive Format where
  | plain | markdown | html
  deriving DecidableEq

structure OutboundMessage where
  channel : Channel
  text : JsString
  format : Option Format := none
  replyTo : Option JsString := none
  deriving DecidableEq

structure SendError where
  code : JsString
  message : JsString
  deriving DecidableEq

structure SendResult where
  ok : Bool
  messageId : Option JsString := none
  error : Option SendError := none
  deriving DecidableEq

/-- `{ ok: false, error: { code, message } }`. -/
def SendResult.failure (code message : JsString) : SendResult :=
  { ok := false, error := some ⟨code, message⟩ }

/-- What `deliver` answers. -/
inductive Delivered where
  | ok | noHandler | handlerThrew
  deriving DecidableEq

/-- What a handler threw, as `runHandler` prints it. -/
def thrownText (err : JsAny) : Except JsAny JsString := do
  if ← err.instanceOfError then (← err.read (js "message")).interpolate
  else err.toStr

/-- What was thrown, if anything, has a text. -/
def Prints {α : Type} : Except JsAny α → Prop
  | .ok _ => True
  | .error err => (thrownText err).isOk = true

instance {α : Type} : ∀ result : Except JsAny α, Decidable (Prints result)
  | .ok _ => inferInstanceAs (Decidable True)
  | .error _ => inferInstanceAs (Decidable (_ = true))

/-- What `connect` answers when a step of it throws; the text may throw itself. -/
def answerFailed (err : JsAny) : Except JsAny Bool := (thrownText err).map fun _ => false

theorem answerFailed_ne (err : JsAny) : answerFailed err ≠ .ok true := by
  unfold answerFailed
  cases thrownText err <;> simp [Except.map]

/-- `runHandler`, by how the handler settles if there is one: the lines it writes, and what it
answers. -/
def runHandler (platform : JsString) :
    Option (Except JsAny Unit) → Except JsAny (List JsString × Delivered)
  | none => .ok ([], .noHandler)
  | some (.ok ()) => .ok ([], .ok)
  | some (.error err) => do
    let message ← thrownText err
    return ([js "[" ++ platform ++ js "] handler threw: " ++ message ++ js "\n"], .handlerThrew)

end TheokitGateways.Gateway
