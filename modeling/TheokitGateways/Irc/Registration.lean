import TheokitGateways.Irc.Line
import TheokitGateways.Js.Bytes

/-!
# The connect handshake

PASS, optional SASL PLAIN, NICK and USER, the retry of a nick in use, then JOIN
and the end of the names of each channel. `onLine` gives the machine after a
line, the lines it writes and how the handshake ended, if it did.
-/

namespace TheokitGateways.Irc
open Js

/-- How many times a nick in use is retried with `_` appended. -/
def nickRetries : Nat := 3

/-- SASL sends the credentials in base64 chunks of this many bytes. -/
def authenticateChunk : Nat := 400

structure RegistrationOptions where
  nick : JsString
  username : JsString
  realname : JsString
  password : Option JsString := none
  saslAccount : Option JsString := none
  saslPassword : Option JsString := none
  channels : List JsString

inductive RegistrationOutcome where
  | ok (nick : JsString)
  | refused (reason : JsString)
  deriving DecidableEq

def joinRefusals : List JsString :=
  [js "403", js "405", js "471", js "473", js "474", js "475", js "477"]

def saslRefusals : List JsString := [js "902", js "904", js "905", js "906", js "908"]

structure Registration where
  nick : JsString
  retries : Nat := 0
  welcomed : Bool := false
  saslDone : Bool := false
  /-- Capabilities offered so far by a `CAP LS` that may span several lines. -/
  offered : List JsString := []
  /-- A set, read by its members only. -/
  waitingFor : List JsString
  deriving DecidableEq

/-- What the machine does with a line. -/
structure Progress where
  after : Registration
  writes : List JsString := []
  outcome : Option RegistrationOutcome := none
  deriving DecidableEq

section
variable (m : CaseMapping) (opts : RegistrationOptions)

def Registration.new : Registration where
  nick := opts.nick
  waitingFor := opts.channels.map (ircLower m)

/-- The opening lines. -/
def Registration.start (r : Registration) : List JsString :=
  (match opts.password with
    | some password => [js "PASS :" ++ password]
    | none => []) ++
  (if opts.saslPassword.isSome then [js "CAP LS 302"] else []) ++
  [js "NICK " ++ r.nick, js "USER " ++ opts.username ++ js " 0 * :" ++ opts.realname]

/-- `line.params.at(-1) ?? ""`. -/
def IrcLine.last (line : IrcLine) : JsString := line.params.getLast?.getD []

/-- `line.params[i] ?? ""`. -/
def IrcLine.param (line : IrcLine) (i : Nat) : JsString := line.params[i]?.getD []

def Registration.onCap (r : Registration) (line : IrcLine) : Progress :=
  let subcommand := line.params[1]?
  let rest := line.params.drop 2
  let list := rest.getLast?.getD []
  if subcommand = some (js "LS") then
    let offered := r.offered ++ (list.splitOn 0x20).map (·.takeWhile (· ≠ unit '='))
    let r := { r with offered := offered }
    -- A multi-line LS marks every line but the last with `*` before the list.
    if 1 < rest.length then { after := r }
    else if !offered.contains (js "sasl") then
      { after := r, outcome := some (.refused (js "the server offers no SASL")) }
    else { after := r, writes := [js "CAP REQ :sasl"] }
  else if subcommand = some (js "ACK") ∧ (list.splitOn 0x20).contains (js "sasl") then
    { after := r, writes := [js "AUTHENTICATE PLAIN"] }
  else if subcommand = some (js "NAK") then
    { after := r, outcome := some (.refused (js "the server refused the sasl capability")) }
  else { after := r }

/-- The chunks of the loop of `onAuthenticate`; `fuel` is the length of what is left. -/
def authenticateChunks : (fuel : Nat) → (encoded : JsString) → List JsString
  | 0, _ => []
  | fuel + 1, encoded =>
    if encoded = [] then []
    else
      encoded.take authenticateChunk :: authenticateChunks fuel (encoded.drop authenticateChunk)

/-- The credentials in base64. -/
def credentials : JsString :=
  let account := opts.saslAccount.getD opts.nick
  base64Encode (utf8Encode (account ++ 0 :: account ++ 0 :: opts.saslPassword.getD []))

def Registration.onAuthenticate (r : Registration) (line : IrcLine) : Progress :=
  if line.params[0]? ≠ some (js "+") then { after := r }
  else
    let encoded := credentials opts
    { after := r
      writes := (authenticateChunks encoded.length encoded).map (js "AUTHENTICATE " ++ ·) ++
        -- A payload that ends on a chunk boundary is closed by an empty chunk.
        if encoded.length % authenticateChunk = 0 then [js "AUTHENTICATE +"] else [] }

def Registration.onNickInUse (r : Registration) : Progress :=
  if r.welcomed then { after := r }
  else if nickRetries ≤ r.retries then
    { after := r
      outcome := some (.refused
        (js "nick " ++ r.nick ++ js " is in use after " ++ natText nickRetries ++ js " retries")) }
  else
    let nick := r.nick ++ js "_"
    { after := { r with retries := r.retries + 1, nick := nick }, writes := [js "NICK " ++ nick] }

def Registration.onWelcome (r : Registration) (line : IrcLine) : Progress :=
  if opts.saslPassword.isSome ∧ r.saslDone = false then
    { after := r
      outcome := some (.refused
        (js "the server welcomed the nick without SASL, so the account is not logged in")) }
  else
    let r := { r with welcomed := true, nick := line.params[0]?.getD r.nick }
    if opts.channels.length = 0 then { after := r, outcome := some (.ok r.nick) }
    else { after := r, writes := [js "JOIN " ++ (js ",").intercalate opts.channels] }

def Registration.joinedAll (r : Registration) : Option RegistrationOutcome :=
  if r.welcomed = false ∨ 0 < r.waitingFor.length then none else some (.ok r.nick)

/-- Read one line. -/
def Registration.onLine (r : Registration) (line : IrcLine) : Progress :=
  let command := line.command
  if command = js "ERROR" then
    { after := r
      outcome := some (.refused (js "the server closed the link: " ++ line.param 0)) }
  else if command = js "CAP" then r.onCap line
  else if command = js "AUTHENTICATE" then r.onAuthenticate opts line
  else if saslRefusals.contains command then
    { after := r
      outcome := some (.refused (js "SASL refused (" ++ command ++ js "): " ++ line.last)) }
  else if joinRefusals.contains command then
    { after := r
      outcome := some (.refused (js "could not join " ++ line.params[1]?.getD (js "?") ++
        js " (" ++ command ++ js "): " ++ line.last)) }
  else if command = js "903" then
    { after := { r with saslDone := true }, writes := [js "CAP END"] }
  else if command = js "464" ∨ command = js "465" then
    { after := r
      outcome := some (.refused
        (js "the server refused the connection (" ++ command ++ js "): " ++ line.last)) }
  else if command = js "433" then r.onNickInUse
  else if command = js "001" then r.onWelcome opts line
  else if command = js "366" then
    let r := { r with waitingFor := r.waitingFor.filter (· ≠ ircLower m (line.param 1)) }
    { after := r, outcome := r.joinedAll }
  else { after := r }

end

end TheokitGateways.Irc
