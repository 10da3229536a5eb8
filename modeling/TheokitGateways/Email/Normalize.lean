import TheokitGateways.Gateway.MessageEvent
import TheokitGateways.Js.Any
import TheokitGateways.Js.Convert

/-!
# A mail as an event

`normalizeEmail` builds the event from what the mail parser makes of the raw
bytes. The parser is a parameter: it gives the parsed mail, or what it threw.
-/

namespace TheokitGateways.Email
open Js Gateway

structure AddressEntry where
  address : Option JsString := none
  name : Option JsString := none
  deriving DecidableEq

structure AddressObject where
  value : Option (List AddressEntry) := none
  deriving DecidableEq

/-- The fields of a parsed mail that are read. One address object is a list of one. -/
structure ParsedMail where
  messageId : Option JsString := none
  inReplyTo : Option JsString := none
  references : Option (JsString ⊕ List JsString) := none
  fromField : Option (List AddressObject) := none
  toField : Option (List AddressObject) := none
  ccField : Option (List AddressObject) := none
  subject : Option JsString := none
  text : Option JsString := none
  /-- The time of the date, which is not a number when the date is invalid. -/
  date : Option JsNumber := none
  /-- How many attachments the list of them has. -/
  attachments : Option Nat := none
  deriving DecidableEq

/-- What the platform adds to an event. -/
structure EmailFields where
  messageId : JsString
  inReplyTo : Option JsString
  references : Option (List JsString)
  subject : JsString
  fromAddress : JsString
  fromName : Option JsString
  recipients : List JsString
  attachmentCount : Nat
  raw : ParsedMail
  deriving DecidableEq

structure EmailMessageEvent extends BaseMessageEvent where
  email : EmailFields
  deriving DecidableEq

structure NormalizeOptions where
  botAddress : JsString
  maxBodyChars : Option JsNumber := none

def defaultMaxBody : JsNumber := 50000

/-- `id.replace(/^<|>$/g, "")`, absent for an absent or empty id. -/
def stripBraces : Option JsString → Option JsString
  | none | some [] => none
  | some id =>
    let rest := if id.head? = some (unit '<') then id.tail else id
    some (if rest.getLast? = some (unit '>') then rest.dropLast else rest)

/-- `s.split(/\s+/)` without its empty parts. -/
def words (s : JsString) : List JsString := (s.splitOnP isSpace).filter (· ≠ [])

def normalizeRefs (refs : Option (JsString ⊕ List JsString)) : Option (List JsString) :=
  match refs with
  | none => none
  | some refs =>
    let arr := refs.elim words id
    let cleaned := arr.filterMap fun r => stripBraces (some r)
    if cleaned = [] then none else some cleaned

def addressesFrom (obj : Option (List AddressObject)) : List AddressEntry :=
  (obj.getD []).flatMap fun o => o.value.getD []

/-- `s.slice(0, end)`. -/
def sliceTo (s : JsString) : JsNumber → JsString
  | .nan => []
  | .infinite negative => if negative then [] else s
  | .finite q =>
    if 0 ≤ q then s.take q.floor.toNat else s.take (s.length - (-q).floor.toNat)

/-- A body, capped. -/
def cappedText (rawText : JsString) (maxChars : JsNumber) : JsString :=
  if maxChars.lt (.ofInt rawText.length) then
    sliceTo rawText maxChars ++ js "\n\n[truncated — full body in event.email.raw]"
  else rawText

section
variable (m : CaseMapping) (opts : NormalizeOptions)

/-- The addresses a mail is to, without the bot's own. -/
def recipientsOf (parsed : ParsedMail) : List JsString :=
  (addressesFrom parsed.toField ++ addressesFrom parsed.ccField).filterMap fun entry => do
    let addr := trim (m.toLowerCase (← entry.address))
    if addr ≠ [] ∧ addr ≠ trim (m.toLowerCase opts.botAddress) then some addr else none

/-- The event of a parsed mail. -/
def eventOf (parsed : ParsedMail) (now : JsNumber) : EmailMessageEvent :=
  let messageId := (stripBraces parsed.messageId).getD (js "unknown")
  let sender := (addressesFrom parsed.fromField).head?
  let fromAddress := trim (m.toLowerCase ((sender.bind (·.address)).getD (js "anonymous")))
  let fromName := ((sender.bind (·.name)).map trim).filter (· ≠ [])
  { id := messageId
    platform := js "email"
    sender := { id := fromAddress, displayName := fromName }
    channel := { id := fromAddress, type := .dm, topicId := some messageId }
    text := cappedText (parsed.text.getD []) (opts.maxBodyChars.getD defaultMaxBody)
    receivedAt := parsed.date.getD now
    email :=
      { messageId := messageId
        inReplyTo := stripBraces parsed.inReplyTo
        references := normalizeRefs parsed.references
        subject := parsed.subject.getD (js "(no subject)")
        fromAddress := fromAddress
        fromName := fromName
        recipients := recipientsOf m opts parsed
        attachmentCount := parsed.attachments.getD 0
        raw := parsed } }

def normalizeEmail (simpleParser : List UInt8 → Except JsAny ParsedMail) (rawBuffer : List UInt8)
    (now : JsNumber) : Except JsAny EmailMessageEvent :=
  (simpleParser rawBuffer).map fun parsed => eventOf m opts parsed now

end

example : stripBraces (some (js "<a@b>")) = some (js "a@b") ∧ stripBraces (some []) = none := by
  decide +kernel

end TheokitGateways.Email
