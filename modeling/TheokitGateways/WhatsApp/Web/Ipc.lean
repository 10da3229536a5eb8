import TheokitGateways.WhatsApp.BackendTypes

/-!
# What the bridge of the Web backend writes

The bridge is a child process that writes one event on each line of its stdout.
`IpcEvent` is an event as its type declares it, `parseEvent` what a line is read
as; a chunk may end anywhere in a line, and `cutLines_append` says that it makes
no difference where.
-/

namespace TheokitGateways.WhatsApp.Web
open Js Gateway

def newline : UInt16 := unit '\n'

/-- The lines of a text that have ended, and what comes after them. -/
def cutLines : JsString → List JsString × JsString
  | [] => ([], [])
  | c :: s =>
    if c = newline then ([] :: (cutLines s).1, (cutLines s).2)
    else
      match cutLines s with
      | ([], rest) => ([], c :: rest)
      | (line :: lines, rest) => ((c :: line) :: lines, rest)

/-- One round of the loop of `LineBuffer.push`. -/
theorem cutLines_eq (s : JsString) : cutLines s = match cutAt newline s with
    | some (line, rest) => (line :: (cutLines rest).1, (cutLines rest).2)
    | none => ([], s) := by
  induction s with
  | nil => rfl
  | cons c s ih => grind [cutLines, cutAt]

/-- What has not ended yet is read again with what follows it. -/
theorem cutLines_append (s t : JsString) : cutLines (s ++ t) =
    ((cutLines s).1 ++ (cutLines ((cutLines s).2 ++ t)).1, (cutLines ((cutLines s).2 ++ t)).2) := by
  induction s with
  | nil => rfl
  | cons c s ih =>
    rw [List.cons_append]
    by_cases hc : c = newline
    · grind [cutLines]
    · cases hlines : (cutLines s).1 with
      | nil => grind [cutLines]
      | cons line lines => grind [cutLines]

/-- A buffer of what has not ended. -/
abbrev LineBuffer := JsString

def LineBuffer.push (buffer : LineBuffer) (chunk : JsString) : List JsString × LineBuffer :=
  cutLines (buffer ++ chunk)

def parseEvent (line : JsString) : Option Json :=
  if line = [] then none
  else (jsonParse line).filter fun parsed => (optString (parsed.get (js "event"))).isSome

structure IpcMessage where
  msgId : JsString
  sender : JsString
  body : JsString
  isGroup : Bool
  chatId : JsString
  contactName : Option JsString
  timestamp : JsNumber

/-- The events that connecting and messages depend on. -/
inductive IpcEvent where
  | ready (botPhone : JsString)
  | message (message : IpcMessage)
  | error (message : JsString) (code : Option JsString)

/-- A member that is declared a string. -/
def textMember (v : Json) (key : JsString) : JsString := (optString (v.get key)).getD []

/-- An event of a kind the backend tells apart; what is declared of a member is not checked. -/
def IpcEvent.ofJson (event : Json) : Option IpcEvent :=
  let kind := textMember event (js "event")
  if kind = js "ready" then some (.ready (textMember event (js "botPhone")))
  else if kind = js "message" then some (.message {
    msgId := textMember event (js "msgId")
    sender := textMember event (js "from")
    body := textMember event (js "body")
    isGroup := match event.get (js "isGroup") with
      | some (.bool b) => b
      | _ => false
    chatId := textMember event (js "chatId")
    contactName := optString (event.get (js "contactName"))
    timestamp := match event.get (js "timestamp") with
      | some (.number n) => n
      | _ => 0 })
  else if kind = js "error" then
    some (.error (textMember event (js "message")) (optString (event.get (js "code"))))
  else none

example : cutLines (js "a\n\nb") = ([js "a", js ""], js "b") := by decide

end TheokitGateways.WhatsApp.Web
