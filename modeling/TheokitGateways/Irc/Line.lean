import TheokitGateways.Js.Header
import TheokitGateways.Js.OrderedMap

/-!
# One IRC line

A line is its tags, its source, a command and parameters, the trailing one kept
whole.
-/

namespace TheokitGateways.Irc
open Js

structure IrcLine where
  tags : OrderedMap JsString JsString := .empty
  linePrefix : Option JsString := none
  /-- In upper case, or a three-digit numeric. -/
  command : JsString
  params : List JsString

/-- `TAG_ESCAPES[next] ?? next` for one unit. -/
def tagEscape (next : UInt16) : UInt16 :=
  if next = unit ':' then unit ';'
  else if next = unit 's' then 0x20
  else if next = unit 'r' then 0x0D
  else if next = unit 'n' then 0x0A
  else next

def backslash : UInt16 := 0x5C

/-- `value.replace` of every backslash and the unit after it. -/
def unescapeTag : JsString → JsString
  | [] => []
  | [c] => if c = backslash then [] else [c]
  | c :: next :: value =>
    if c = backslash then
      if isLineTerminator next then next :: unescapeTag value
      else tagEscape next :: unescapeTag value
    else c :: unescapeTag (next :: value)

/-- One pair of the loop of `parseTags`. Setting `__proto__` to a string sets nothing. -/
def setTag (tags : OrderedMap JsString JsString) (pair : JsString) :
    OrderedMap JsString JsString :=
  if pair = [] then tags
  else
    let (key, value) :=
      match cutAt (unit '=') pair with
      | none => (pair, [])
      | some (key, value) => (key, unescapeTag value)
    if key = js "__proto__" then tags else tags.set key value

def parseTags (text : JsString) : OrderedMap JsString JsString :=
  (text.splitOn (unit ';')).foldl setTag .empty

/-- The loop of `splitCommand`; each round takes at least one unit of `rest`. -/
def paramsLoop : (fuel : Nat) → (rest : JsString) → List JsString
  | 0, _ => []
  | _, [] => []
  | fuel + 1, c :: rest =>
    if c = unit ':' then [rest]
    else
      match cutAt (unit ' ') (c :: rest) with
      | none => [c :: rest]
      | some ([], rest) => paramsLoop fuel rest
      | some (param, rest) => param :: paramsLoop fuel rest

section
variable (m : CaseMapping)

/-- The command and its parameters, the trailing one kept whole. -/
def splitCommand (text : JsString) : JsString × List JsString :=
  match cutAt (unit ' ') text with
  | none => (m.toUpperCase text, [])
  | some (command, rest) => (m.toUpperCase command, paramsLoop rest.length rest)

/-- The section that `mark` opens and a space ends, and the line after it: `none` when no space
ends it. -/
def takeSection (mark : UInt16) : JsString → Option (Option JsString × JsString)
  | [] => some (none, [])
  | c :: rest =>
    if c ≠ mark then some (none, c :: rest)
    else (cutAt (unit ' ') rest).map fun (text, rest) => (some text, rest.dropWhile isSpace)

/-- Parse one line, without its CRLF. -/
def parseIrcLine (raw : JsString) : Option IrcLine := do
  let (tags, rest) ← takeSection (unit '@') raw
  let (linePrefix, rest) ← takeSection (unit ':') rest
  let (command, params) := splitCommand m rest
  if command = [] then none
  else
    some { tags := (tags.map parseTags).getD .empty, linePrefix := linePrefix,
           command := command, params := params }

/-- Lower-case a name under the `rfc1459` case mapping. -/
def ircLower (name : JsString) : JsString :=
  replaceUnit (unit '~') (unit '^') (replaceUnit backslash (unit '|')
    (replaceUnit (unit ']') (unit '}') (replaceUnit (unit '[') (unit '{') (m.toLowerCase name))))

end

/-- The nick in a `nick!user@host` prefix, or the whole prefix when it has no `!`. -/
def nickOf : Option JsString → JsString
  | none => []
  | some linePrefix => linePrefix.takeWhile (· ≠ unit '!')

example : (parseIrcLine asciiCase (js "@msgid=a\\:b :bob!u@h privmsg #x  y :hi :there")).map
      (fun line => (line.tags.get (js "msgid"), nickOf line.linePrefix, line.command,
        line.params)) =
    some (some (js "a;b"), js "bob", js "PRIVMSG", [js "#x", js "y", js "hi :there"]) := by
  decide +kernel

end TheokitGateways.Irc
