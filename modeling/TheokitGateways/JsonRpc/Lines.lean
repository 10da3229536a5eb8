import TheokitGateways.Signal.Normalize

/-!
# The lines a child can write

A throw inside the listener of a child's stdout ends the host. The client throws
on a line that is `null` and on an answer whose error is null; beyond that, Signal
throws on an envelope that is null, or that makes text of an object that hides
its own. On every other line both channels return.
-/

namespace TheokitGateways.IMessage
open Js JsonRpc

/-- The row that is queued, if the notification is of one; its turn comes later. -/
def onNotification (notification : RpcNotification) : Except TypeFault (Option Json) :=
  if notification.method ≠ js "message" then .ok none
  else .ok (optGet notification.params (js "message"))

def onLine (c : JsonRpcLineClient) (line : JsString) :
    Except TypeFault (JsonRpcLineClient × Option (Option Json)) :=
  c.onLine true onNotification line

end TheokitGateways.IMessage

namespace TheokitGateways.Signal
open Js JsonRpc

def onLine (now : Nat) (c : JsonRpcLineClient) (line : JsString) :
    Except TypeFault (JsonRpcLineClient × Option (Option SignalMessageEvent)) :=
  c.onLine false (onNotification now) line

end TheokitGateways.Signal

namespace TheokitGateways.JsonRpc
open Js

/-- The client and the callback read the message without a throw. -/
def readable (notifies : RpcNotification → Bool) (message : Json) : Bool :=
  !message.isNull &&
    match notificationOf message with
    | some notification => notifies notification
    | none => (answerId message).isNone || !(message.get (js "error")).any Json.isNull

/-- The line is of no concern to the client, or is a message that can be read. -/
def lineReads (notifies : RpcNotification → Bool) (c : JsonRpcLineClient) (line : JsString) :
    Bool :=
  (!c.isOpen || trim line = []) || (jsonParse line).all (readable notifies)

section
variable {keepsData : Bool} {E : Type} {onNotification : RpcNotification → Except TypeFault E}
  {notifies : RpcNotification → Bool} {message : Json}

theorem isOk_errorOutcome (error : Json) : (errorOutcome keepsData error).isOk = !error.isNull := by
  unfold errorOutcome
  cases hnull : error.isNull with
  | true =>
    rw [Json.read_null hnull]
    rfl
  | false =>
    rw [Json.read_of_not_null hnull, Json.read_of_not_null hnull]
    rfl

theorem isOk_answerOutcome (keepsData : Bool) :
    (answerOutcome keepsData message).isOk = !(message.get (js "error")).any Json.isNull := by
  unfold answerOutcome
  cases message.get (js "error") with
  | none => rfl
  | some error => exact isOk_errorOutcome error

/-- What a message is read as, and so whether the listener returns. -/
theorem isOk_readMessage (hnotify : ∀ n, (onNotification n).isOk = notifies n)
    (c : JsonRpcLineClient) :
    (readMessage keepsData message >>= c.receive onNotification).isOk =
      readable notifies message := by
  unfold readMessage readable
  cases hnull : message.isNull with
  | true =>
    rw [Json.read_null hnull]
    rfl
  | false =>
    rw [Json.read_of_not_null hnull]
    cases notificationOf message with
    | some notification =>
      refine Eq.trans ?_ (hnotify notification)
      show (onNotification notification >>= _).isOk = _
      cases onNotification notification <;> rfl
    | none =>
      cases answerId message with
      | none => rfl
      | some id =>
        refine Eq.trans ?_ (isOk_answerOutcome keepsData)
        show (answerOutcome keepsData message >>= _ >>= _).isOk = _
        cases answerOutcome keepsData message <;> rfl

/-- When a line throws, by when the callback does. -/
theorem isOk_onLine (hnotify : ∀ n, (onNotification n).isOk = notifies n)
    (c : JsonRpcLineClient) (line : JsString) :
    (c.onLine keepsData onNotification line).isOk = lineReads notifies c line := by
  unfold JsonRpcLineClient.onLine lineReads
  cases !c.isOpen || trim line = [] with
  | true => rfl
  | false =>
    cases hparse : jsonParse line with
    | none => rfl
    | some message => exact isOk_readMessage hnotify c

end

end TheokitGateways.JsonRpc

namespace TheokitGateways.Signal
open Js JsonRpc

/-- The envelope is not null, and what an event makes into text has one. -/
def envelopeReads (envelope : Json) : Bool :=
  !envelope.isNull &&
    match messageText envelope, senderIdOf envelope with
    | some _, some senderId =>
      senderId.converts && (sentAt envelope 0).converts && (groupIdOf envelope).all Json.converts
    | _, _ => true

def notificationReads (notification : RpcNotification) : Bool :=
  if notification.method ≠ js "receive" then true
  else (optGet notification.params (js "envelope")).all envelopeReads

/-- The time has a text whenever it was read. -/
theorem converts_sentAt (envelope : Json) (now now' : Nat) :
    (sentAt envelope now).converts = (sentAt envelope now').converts := by
  unfold sentAt
  rcases Json.coalesce (envelope.get (js "timestamp"))
    (optGet (envelope.get (js "dataMessage")) (js "timestamp")) with _ | ⟨_ | _ | _ | _ | _ | _⟩ <;>
    rfl

theorem isOk_channelOf (groupId : Option Json) (dmId : Json) :
    (channelOf groupId dmId).isOk = groupId.all Json.converts := by
  unfold channelOf
  cases groupId with
  | none => rfl
  | some groupId =>
    rw [Option.all_some, ← Json.isOk_interpolate]
    show (groupId.interpolate >>= _).isOk = _
    cases groupId.interpolate <;> rfl

theorem isOk_signalEnvelopeToMessageEvent (envelope : Json) (now : Nat) :
    (signalEnvelopeToMessageEvent envelope now).isOk = envelopeReads envelope := by
  unfold signalEnvelopeToMessageEvent envelopeReads
  cases hnull : envelope.isNull with
  | true =>
    rw [Json.read_null hnull]
    rfl
  | false =>
    rw [Json.read_of_not_null hnull]
    cases messageText envelope with
    | none => rfl
    | some text =>
      cases senderIdOf envelope with
      | none => rfl
      | some senderId =>
        simp only [← isOk_channelOf _ (Json.orElse (numberOf envelope) senderId),
          converts_sentAt envelope 0 now, ← Json.isOk_interpolate]
        show (senderId.interpolate >>= fun _ => (sentAt envelope now).interpolate >>= fun _ =>
          channelOf _ _ >>= _).isOk = _
        cases senderId.interpolate with
        | error fault => rfl
        | ok sender =>
          cases (sentAt envelope now).interpolate with
          | error fault => rfl
          | ok time => cases channelOf (groupIdOf envelope) _ <;> rfl

theorem isOk_onNotification (now : Nat) (notification : RpcNotification) :
    (onNotification now notification).isOk = notificationReads notification := by
  unfold onNotification notificationReads
  split
  · rfl
  · cases optGet notification.params (js "envelope") with
    | none => rfl
    | some envelope => exact isOk_signalEnvelopeToMessageEvent envelope now

end TheokitGateways.Signal

namespace TheokitGateways.JsonRpc
open Js

theorem isOk_iMessage_onNotification (notification : RpcNotification) :
    (IMessage.onNotification notification).isOk = true := by
  unfold IMessage.onNotification
  split <;> rfl

/-- The lines on which the two listeners return. -/
theorem listeners_return_iff (now : Nat) (c : JsonRpcLineClient) (line : JsString) :
    ((IMessage.onLine c line).isOk = true ↔ lineReads (fun _ => true) c line = true) ∧
      ((Signal.onLine now c line).isOk = true ↔
        lineReads Signal.notificationReads c line = true) := by
  constructor
  · rw [IMessage.onLine, isOk_onLine isOk_iMessage_onNotification]
  · rw [Signal.onLine, isOk_onLine (Signal.isOk_onNotification now)]

/-- `null` is a JSON value. -/
theorem null_line_throws :
    ¬ ∀ (now : Nat) (c : JsonRpcLineClient) (line : JsString),
      (IMessage.onLine c line).isOk = true ∧ (Signal.onLine now c line).isOk = true := by
  intro h
  have hthrows : (IMessage.onLine {} (js "null")).isOk = false := by decide +kernel
  rw [(h 0 {} (js "null")).1] at hthrows
  cases hthrows

end TheokitGateways.JsonRpc
