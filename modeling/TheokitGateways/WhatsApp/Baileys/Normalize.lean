import TheokitGateways.Js.Convert
import TheokitGateways.WhatsApp.InboundRules

/-!
# Baileys envelopes

An envelope is refused unless each part that is read of it is there. It is a JSON
value but for its timestamp, which may be a `Long`: `long` is then what its
`toNumber` answers.
-/

namespace TheokitGateways.WhatsApp.Baileys
open Js Gateway

structure RawEnvelope where
  json : Json
  long : Option JsNumber := none

def statusBroadcastJid : JsString := js "status@broadcast"

def wrapperKeys : List JsString :=
  [js "ephemeralMessage", js "viewOnceMessage", js "viewOnceMessageV2",
    js "documentWithCaptionMessage"]

def maxWrapperDepth : Nat := 3

def asObject : Option Json → Option Json
  | some (.object members) => some (.object members)
  | some (.array list) => some (.array list)
  | _ => none

/-- A non-empty string. -/
def asText (value : Option Json) : Option JsString := (optString value).filter (· ≠ [])

/-- The text of a message that is an object, by how many levels may still be looked at. -/
def textOf : Nat → Json → Option JsString
  | 0, _ => none
  | levels + 1, message =>
    (asText (message.get (js "conversation"))).or <|
      ((asObject (message.get (js "extendedTextMessage"))).bind
        fun extended => asText (extended.get (js "text"))).or <|
      wrapperKeys.findSome? fun wrapper => do
        let inner ← asObject (message.get wrapper)
        let nested ← asObject (inner.get (js "message"))
        textOf levels nested

/-- `extractText`. The message itself is not checked to be an object: reading `null` throws. -/
def extractText : Option Json → Except JsAny (Option JsString)
  | none => .ok none
  | some .null => .error (.error (js "TypeError")
      (js "Cannot read properties of null (reading 'conversation')"))
  | some message => .ok (textOf (maxWrapperDepth + 1) message)

def toSeconds (timestamp : Option Json) (long : Option JsNumber) : Option JsNumber :=
  match long with
  | some n => if n.isFinite then some n else none
  | none =>
    match timestamp with
    | some (.number n) => some n
    | some (.string s) =>
      let parsed := stringToNumber s
      if parsed.isFinite then some parsed else none
    | _ => none

structure Parties where
  fromPhone : JsString
  channelId : JsString
  channelJid : JsString
  isGroup : Bool

def resolveParties (key : Json) (remoteJid : JsString) : Option Parties := do
  let isGroup := (js "@g.us").isSuffixOf remoteJid
  let senderJid ← if isGroup then asText (key.get (js "participant")) else some remoteJid
  let fromPhone := normalizeWhatsAppId senderJid
  let channelId := normalizeWhatsAppId remoteJid
  if fromPhone = [] ∨ channelId = [] then none
  else some ⟨fromPhone, channelId, remoteJid, isGroup⟩

/-- What the backend knows that an envelope cannot carry. -/
structure BaileysDispatchContext where
  selfJids : Option (List JsString) := none
  sentWamids : Option (List JsString) := none

inductive Verdict where
  | no | yes | yesFromSelf
  deriving DecidableEq

def isTrue : Option Json → Bool
  | some (.bool b) => b
  | _ => false

def isDispatchable (key : Json) (remoteJid wamid : JsString) (ctx : BaileysDispatchContext) :
    Verdict :=
  if remoteJid = statusBroadcastJid then .no
  else if !isTrue (key.get (js "fromMe")) then .yes
  else
    match ctx.selfJids with
    | none | some [] => .no
    | some selfJids =>
      if !selfJids.contains (normalizeWhatsAppId remoteJid) then .no
      else if (ctx.sentWamids.getD []).contains wamid then .no
      else .yesFromSelf

structure Addressed where
  key : Json
  remoteJid : JsString
  wamid : JsString

def addressingOf (envelope : Option Json) : Option Addressed := do
  let key ← asObject (optGet envelope (js "key"))
  let remoteJid ← asText (key.get (js "remoteJid"))
  let wamid ← asText (key.get (js "id"))
  return ⟨key, remoteJid, wamid⟩

def normalizeBaileysMessage (raw : RawEnvelope) (ctx : BaileysDispatchContext) :
    Except JsAny (Option WhatsAppInboundEvent) :=
  let envelope := asObject (some raw.json)
  match addressingOf envelope with
  | none => .ok none
  | some ⟨key, remoteJid, wamid⟩ =>
    let verdict := isDispatchable key remoteJid wamid ctx
    if verdict = .no then .ok none
    else do
      let text ← extractText (optGet envelope (js "message"))
      return do
        let text ← text
        let parties ← resolveParties key remoteJid
        let seconds ← toSeconds (optGet envelope (js "messageTimestamp")) raw.long
        return {
          wamid := wamid
          fromPhone := parties.fromPhone
          conversationType := if parties.isGroup then .group else .dm
          channelId := parties.channelId
          channelJid := some parties.channelJid
          text := text
          receivedAt := seconds * 1000
          backend := .baileys
          raw := raw.json
          fromSelf := if verdict = .yesFromSelf then some true else none
          contactName := asText (optGet envelope (js "pushName")) }

/-- The id an envelope is dispatched under, if it can be read. -/
def wamidOf (raw : RawEnvelope) : Option JsString :=
  (addressingOf (asObject (some raw.json))).map (·.wamid)

/-- An envelope says that the account itself sent it. -/
def isFromMe (raw : RawEnvelope) : Bool :=
  (addressingOf (asObject (some raw.json))).any fun a => isTrue (a.key.get (js "fromMe"))

variable {raw : RawEnvelope} {ctx : BaileysDispatchContext} {e : WhatsAppInboundEvent}

/-- The parts of an accepted envelope, and what its event says of them. -/
structure Accepted (raw : RawEnvelope) (ctx : BaileysDispatchContext) (e : WhatsAppInboundEvent)
    (a : Addressed) (parties : Parties) (seconds : JsNumber) : Prop where
  addressed : addressingOf (asObject (some raw.json)) = some a
  dispatchable : isDispatchable a.key a.remoteJid a.wamid ctx ≠ .no
  extracted : extractText (optGet (asObject (some raw.json)) (js "message")) = .ok (some e.text)
  resolved : resolveParties a.key a.remoteJid = some parties
  timed : toSeconds (optGet (asObject (some raw.json)) (js "messageTimestamp")) raw.long =
    some seconds
  wamid : e.wamid = a.wamid
  fromPhone : e.fromPhone = parties.fromPhone
  channelId : e.channelId = parties.channelId
  conversationType : e.conversationType = if parties.isGroup then .group else .dm
  receivedAt : e.receivedAt = seconds * 1000

theorem normalizeBaileysMessage_eq_some (h : normalizeBaileysMessage raw ctx = .ok (some e)) :
    ∃ a parties seconds, Accepted raw ctx e a parties seconds := by
  unfold normalizeBaileysMessage at h
  dsimp only at h
  split at h
  · cases h
  · rename_i key remoteJid wamid haddressed
    split at h
    · cases h
    · rename_i hverdict
      obtain ⟨extracted, hextracted, hread⟩ := bind_eq_ok.1 h
      obtain ⟨text, rfl, hrest⟩ := Option.bind_eq_some_iff.1 (Except.ok.inj hread)
      obtain ⟨parties, hparties, hrest⟩ := Option.bind_eq_some_iff.1 hrest
      obtain ⟨seconds, hseconds, hrest⟩ := Option.bind_eq_some_iff.1 hrest
      obtain rfl := Option.some.inj hrest
      exact ⟨⟨key, remoteJid, wamid⟩, parties, seconds, haddressed, hverdict, hextracted, hparties,
        hseconds, rfl, rfl, rfl, rfl, rfl⟩

/-- The addressing of an envelope that is to be dispatched. -/
def dispatched (raw : RawEnvelope) (ctx : BaileysDispatchContext) : Option Addressed :=
  (addressingOf (asObject (some raw.json))).filter fun a =>
    isDispatchable a.key a.remoteJid a.wamid ctx ≠ .no

theorem dispatched_eq_some {a : Addressed} :
    dispatched raw ctx = some a ↔ addressingOf (asObject (some raw.json)) = some a ∧
      isDispatchable a.key a.remoteJid a.wamid ctx ≠ .no := by
  simp [dispatched, Option.filter_eq_some_iff]

theorem normalizeBaileysMessage_of_none (h : dispatched raw ctx = none) :
    normalizeBaileysMessage raw ctx = .ok none := by
  unfold normalizeBaileysMessage
  dsimp only
  split
  · rfl
  · rename_i key remoteJid wamid haddressed
    refine if_pos (Decidable.of_not_not fun hverdict => ?_)
    have hsome := dispatched_eq_some.2 ⟨haddressed, hverdict⟩
    cases h.symm.trans hsome

/-- An envelope that is to be dispatched comes to nothing or to an event when its text can be
looked for. -/
theorem normalizeBaileysMessage_isOk_iff {a : Addressed} (h : dispatched raw ctx = some a) :
    (∃ o, normalizeBaileysMessage raw ctx = .ok o) ↔
      ∃ text, extractText (optGet (asObject (some raw.json)) (js "message")) = .ok text := by
  obtain ⟨haddressed, hverdict⟩ := dispatched_eq_some.1 h
  unfold normalizeBaileysMessage
  simp only [haddressed, if_neg hverdict]
  cases extractText (optGet (asObject (some raw.json)) (js "message")) with
  | error err => exact iff_of_false (fun ⟨_, ho⟩ => nomatch ho) (fun ⟨_, ho⟩ => nomatch ho)
  | ok text => exact iff_of_true ⟨_, rfl⟩ ⟨text, rfl⟩

/-- It is accepted when its parts are there. -/
theorem normalizeBaileysMessage_of_parts {a : Addressed} {text : JsString} {parties : Parties}
    {seconds : JsNumber} (h : dispatched raw ctx = some a)
    (htext : extractText (optGet (asObject (some raw.json)) (js "message")) = .ok (some text))
    (hparties : resolveParties a.key a.remoteJid = some parties)
    (hseconds : toSeconds (optGet (asObject (some raw.json)) (js "messageTimestamp")) raw.long =
      some seconds) :
    ∃ e, normalizeBaileysMessage raw ctx = .ok (some e) ∧ e.receivedAt = seconds * 1000 := by
  obtain ⟨haddressed, hverdict⟩ := dispatched_eq_some.1 h
  unfold normalizeBaileysMessage
  simp only [haddressed, if_neg hverdict]
  rw [htext, hparties, hseconds]
  exact ⟨_, rfl, rfl⟩

theorem wamidOf_of_normalize (h : normalizeBaileysMessage raw ctx = .ok (some e)) :
    wamidOf raw = some e.wamid := by
  obtain ⟨a, _, _, haccepted⟩ := normalizeBaileysMessage_eq_some h
  rw [wamidOf, haccepted.addressed, haccepted.wamid, Option.map_some]

/-- A message of the account's own is dispatched in a chat with itself, under an id that was not
sent. -/
theorem dispatchable_fromMe {a : Addressed} (hfrom : isTrue (a.key.get (js "fromMe")) = true)
    (h : isDispatchable a.key a.remoteJid a.wamid ctx ≠ .no) :
    (∃ selfJids, ctx.selfJids = some selfJids ∧ normalizeWhatsAppId a.remoteJid ∈ selfJids) ∧
      a.wamid ∉ ctx.sentWamids.getD [] := by
  unfold isDispatchable at h
  split at h
  · exact absurd rfl h
  · rw [hfrom, if_neg (by decide)] at h
    split at h
    · exact absurd rfl h
    · exact absurd rfl h
    · rename_i selfJids hself _
      simp only [Bool.not_eq_true', List.contains_iff_mem] at h
      grind

/-- An event of the account's own messages has an id that was not sent. -/
theorem not_mem_sentWamids (h : normalizeBaileysMessage raw ctx = .ok (some e))
    (hfrom : isFromMe raw = true) : e.wamid ∉ ctx.sentWamids.getD [] := by
  obtain ⟨a, _, _, haccepted⟩ := normalizeBaileysMessage_eq_some h
  have htrue : isTrue (a.key.get (js "fromMe")) = true := by
    simpa [isFromMe, haccepted.addressed] using hfrom
  rw [haccepted.wamid]
  exact (dispatchable_fromMe htrue haccepted.dispatchable).2

end TheokitGateways.WhatsApp.Baileys
