import TheokitGateways.Gateway.MessageEvent
import TheokitGateways.Irc.Line

/-!
# A PRIVMSG as an event

`privmsgToMessageEvent` builds the event for one `PRIVMSG`, unless nobody should
see it: the adapter's own message, a CTCP request other than `ACTION`, a message
with no text.
-/

namespace TheokitGateways.Irc
open Js Gateway

/-- What the platform adds to an event. -/
structure IrcFields where
  target : JsString
  nick : JsString
  action : Bool
  tags : OrderedMap JsString JsString
  raw : JsString

structure IrcMessageEvent extends BaseMessageEvent where
  irc : IrcFields

structure Content where
  text : JsString
  action : Bool
  deriving DecidableEq

structure VisiblePrivmsg where
  target : JsString
  nick : JsString
  content : Content
  deriving DecidableEq

def ctcp : UInt16 := 0x01

/-- A body without its CTCP framing. -/
def ctcpInner (body : JsString) : JsString :=
  if body.getLast? = some ctcp ∧ 1 < body.length then body.tail.dropLast else body.tail

/-- The visible text of a body: an `ACTION` without its framing, none for other CTCP. -/
def ctcpContent (body : JsString) : Option Content :=
  if body.head? ≠ some ctcp then some ⟨body, false⟩
  else if !(js "ACTION ").isPrefixOf (ctcpInner body) then none
  else some ⟨(ctcpInner body).drop (js "ACTION ").length, true⟩

/-- Whether a target names a channel rather than the adapter's nick. -/
def isChannelTarget (target : JsString) : Bool :=
  target.head? = some (unit '#') || target.head? = some (unit '&')

section
variable (m : CaseMapping)

/-- The target, sender and text of a `PRIVMSG` someone should see. -/
def visiblePrivmsg (line : IrcLine) (ownNick : JsString) : Option VisiblePrivmsg :=
  let nick := nickOf line.linePrefix
  if line.command ≠ js "PRIVMSG" then none
  else
    match line.params with
    | target :: body :: _ =>
      if nick = [] then none
      else if ircLower m nick = ircLower m ownNick then none
      else
        match ctcpContent body with
        | none => none
        | some content => if content.text = [] then none else some ⟨target, nick, content⟩
    | _ => none

def privmsgToMessageEvent (line : IrcLine) (raw ownNick : JsString) (receivedAt : JsNumber)
    (counter : Nat) : Option IrcMessageEvent :=
  (visiblePrivmsg m line ownNick).map fun message =>
    { id := (line.tags.get (js "msgid")).getD
        (message.nick ++ js ":" ++ receivedAt.toStr ++ js ":" ++ natText counter)
      platform := js "irc"
      sender := { id := message.nick, displayName := some message.nick }
      channel :=
        if isChannelTarget message.target then { id := message.target, type := .group }
        else { id := message.nick, type := .dm }
      text := message.content.text
      receivedAt := receivedAt
      irc := ⟨message.target, message.nick, message.content.action, line.tags, raw⟩ }

end

end TheokitGateways.Irc
