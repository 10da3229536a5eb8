import TheokitGateways.Gateway.Outbound
import TheokitGateways.Gateway.TrimmedParts
import TheokitGateways.Splitters

/-!
# Teams: `sendMessage` and `editMessage`

A part goes out with the format its text was declared to have, and once more as
plain text when the service finds it malformed. However often that happens and
whenever the App is taken away, a send has sent each part once at most
(`teams_sends_and_edits`).
-/

namespace TheokitGateways.Teams
open Js Gateway Async Prog

/-- What the SDK rejects with, as far as the adapter reads it. -/
inductive TeamsError where
  | text (s : JsString)
  /-- `text` is the text of the whole. -/
  | object (status statusCode : Option Nat) (message : Option JsString) (text : JsString)

def TeamsError.status : TeamsError → Option Nat
  | .text _ => none
  | .object status .. => status

def TeamsError.statusCode : TeamsError → Option Nat
  | .text _ => none
  | .object _ statusCode .. => statusCode

/-- The words of `NETWORK_ERR_RE`, in lower case. -/
def networkWords : List JsString :=
  [js "econn", js "enotfound", js "etimedout", js "ehostunreach", js "eai_again",
    js "fetch failed"]

def codeForTeamsStatus (status : Nat) : Option JsString :=
  if status = 401 ∨ status = 403 then some (js "auth_failed")
  else if status = 429 then some (js "rate_limit")
  else if status = 408 then some (js "timeout")
  else if status = 400 ∨ status = 404 then some (js "invalid_request")
  else if 500 ≤ status then some (js "server_error")
  else none

def mapTeamsError : TeamsError → SendError
  | .text s => ⟨js "unknown", s⟩
  | .object status statusCode message text =>
    let message := match message with
      | some m => if m = [] then text else m
      | none => text
    match (status.or statusCode).bind codeForTeamsStatus with
    | some code => ⟨code, message⟩
    | none =>
      if networkWords.any fun word => includes word (message.map asciiLower) then
        ⟨js "server_error", message⟩
      else ⟨js "unknown", message⟩

/-- The service found the activity malformed. -/
def isMalformedActivity (err : TeamsError) : Bool := err.statusCode.or err.status = some 400

inductive TextFormat where
  | markdown | xml
  deriving DecidableEq

def activityFormat : Option Format → Option TextFormat
  | some .markdown => some .markdown
  | some .html => some .xml
  | some .plain | none => none

structure Activity where
  text : JsString
  textFormat : Option TextFormat := none

inductive TeamsCall where
  /-- Whether there is an App and it is connected. -/
  | ready
  /-- Whether there is an App. -/
  | app
  | send (conversationId : JsString) (activity : Activity)
  /-- The update call that the installed SDK has. -/
  | update (conversationId activityId : JsString) (activity : Activity)

/-- The call only reads. -/
def TeamsCall.Reads : TeamsCall → Prop
  | .ready | .app => True
  | .send .. | .update .. => False

/-- What a call answers: a send, the id of the activity if there is one. -/
abbrev TeamsCall.Answer : TeamsCall → Type
  | .ready | .app => Bool
  | .send .. => Option JsString
  | .update .. => Unit

abbrev TeamsEvent := Event TeamsCall TeamsCall.Answer TeamsError JsString

abbrev TeamsProg (α : Type) := Prog TeamsCall TeamsCall.Answer TeamsError JsString α

def emptyText : SendResult := .failure (js "empty_text") (js "Empty text rejected.")

def notConnected : SendResult :=
  .failure (js "not_connected") (js "TeamsAdapter not connected.")

def noParts : SendResult :=
  .failure (js "empty_text") (js "Text reduced to zero parts after splitting.")

def refusedWith (err : TeamsError) : SendResult :=
    { ok := false, error := some (mapTeamsError err) }

def retryLine : JsString :=
  js "[gateway-teams] the service rejected the formatted activity; retrying as plain text\n"

/-- The `send` of an App that is gone. -/
def sendOfUndefined : TeamsError :=
  .object none none (some (js "Cannot read properties of undefined (reading 'send')"))
    (js "TypeError: Cannot read properties of undefined (reading 'send')")

def ready : TeamsProg Bool :=
  .call TeamsCall.ready fun
    | .ok true => .ret true
    | _ => .ret false

def appHeld : TeamsProg Bool :=
  .call TeamsCall.app fun
    | .ok true => .ret true
    | _ => .ret false

def sendActivity (conversationId : JsString) (activity : Activity) :
    TeamsProg (Except TeamsError (Option JsString)) :=
  settle (TeamsCall.send conversationId activity)

def updateActivity (conversationId activityId : JsString) (activity : Activity) :
    TeamsProg (Except TeamsError Unit) :=
  settle (TeamsCall.update conversationId activityId activity)

/-- `splitForTeams`, which may throw. -/
def partsOf (text : JsString) : TeamsProg (List JsString) :=
  match splitForTeams text with
  | .ok parts => .ret parts
  | .error message => .throw (.text message)

/-- The second attempt at a part, as plain text. -/
def sendPlain (channelId part : JsString) (last : Option JsString) :
    TeamsProg (Except SendResult (Option JsString)) := do
  if ← appHeld then
    match ← sendActivity channelId { text := part } with
    | .ok id => return .ok (id.or last)
    | .error retryErr => return .error (refusedWith retryErr)
  else return .error (refusedWith sendOfUndefined)

/-- After the service has refused an activity. -/
def afterRefusal (out : OutboundMessage) (last : Option JsString) (part : JsString)
    (err : TeamsError) : TeamsProg (Except SendResult (Option JsString)) :=
  if isMalformedActivity err then .emit retryLine (sendPlain out.channel.id part last)
  else return .error (refusedWith err)

/-- One pass of the loop. -/
def sendPartHonouringFormat (out : OutboundMessage) (last : Option JsString) (part : JsString) :
    TeamsProg (Except SendResult (Option JsString)) := do
  if ← appHeld then
    match ← sendActivity out.channel.id ⟨part, activityFormat out.format⟩ with
    | .ok id => return .ok (id.or last)
    | .error err => afterRefusal out last part err
  else return .error notConnected

/-- `sendMessage` once it is connected. -/
def sendParts (out : OutboundMessage) : TeamsProg SendResult := do
  let parts ← partsOf out.text
  if parts = [] then return noParts
  else do
    let sent ← inTurn (sendPartHonouringFormat out) none parts
    return answerOf sent

def sendMessage (out : OutboundMessage) : TeamsProg SendResult :=
  if out.text = [] then return emptyText
  else do
    if ← ready then sendParts out else return notConnected

/-- `editMessage` once the text is split. -/
def updateOne (messageId : JsString) (out : OutboundMessage) : List JsString → TeamsProg SendResult
  | [] => return noParts
  | [part] => do
    match ← updateActivity out.channel.id messageId ⟨part, activityFormat out.format⟩ with
    | .error err => return refusedWith err
    | .ok () => return { ok := true, messageId := some messageId }
  | parts => return .failure (js "edit_too_long") (js "text needs " ++ natText parts.length ++
      js " Teams activities; an edit replaces one")

def editMessage (messageId : JsString) (out : OutboundMessage) : TeamsProg SendResult :=
  if out.text = [] then return emptyText
  else do
    if ← ready then
      if messageId = [] then
        return .failure (js "invalid_message_id") (js "message id is empty")
      else do
        let parts ← partsOf out.text
        updateOne messageId out parts
    else return notConnected

/-- The part that Teams has taken with an event, and the id it gave it. -/
def posted : TeamsEvent → Option (JsString × Option JsString)
  | .answered (.send _ activity) (.ok id) => some (activity.text, id)
  | _ => none

/-- The part that Teams has put in the place of an activity with an event. -/
def updated (messageId : JsString) (out : OutboundMessage) : TeamsEvent → Option (JsString × Unit)
  | .answered (.update conversationId activityId activity) (.ok ()) =>
    if conversationId = out.channel.id ∧ activityId = messageId then some (activity.text, ())
    else none
  | _ => none

/-- There is an App, and Teams answers a call of it with what it asks for, but may find an activity
with a format malformed. -/
def Granted : (c : TeamsCall) → Except TeamsError c.Answer → Prop
  | .ready, r | .app, r => r = .ok true
  | .send _ activity, r => (∃ id, r = .ok id) ∨
    activity.textFormat ≠ none ∧ ∃ err, r = .error err ∧ isMalformedActivity err = true
  | .update .., r => r = .ok ()

/-- A send answers under the last id that there is. -/
def lastDefined (ids : List (Option JsString)) : Option JsString :=
  ids.foldl (fun last id => id.or last) none

theorem takes_sendPlain (channelId : JsString) (last : Option JsString) (part : JsString) :
    Takes posted (fun last id => id.or last) last part (·.ok = false)
      (sendPlain channelId part last) := by
  intro held
  refine .inl ⟨rfl, ?_⟩
  obtain _ | _ | _ := held
  · exact (rfl : (refusedWith sendOfUndefined).ok = false)
  · exact (rfl : (refusedWith sendOfUndefined).ok = false)
  · intro r
    cases r with
    | error err => exact .inl ⟨rfl, (rfl : (refusedWith err).ok = false)⟩
    | ok id => exact .inr ⟨id, rfl, rfl⟩

theorem takes_sendPartHonouringFormat (out : OutboundMessage) (last : Option JsString)
    (part : JsString) :
    Takes posted (fun last id => id.or last) last part (·.ok = false)
      (sendPartHonouringFormat out last part) := by
  intro held
  refine .inl ⟨rfl, ?_⟩
  obtain _ | _ | _ := held
  · exact (rfl : notConnected.ok = false)
  · exact (rfl : notConnected.ok = false)
  · intro r
    cases r with
    | error err =>
      refine .inl ⟨rfl, ?_⟩
      show Takes posted (fun last id => id.or last) last part (·.ok = false)
        (afterRefusal out last part err)
      unfold afterRefusal
      split
      · exact ⟨rfl, takes_sendPlain out.channel.id last part⟩
      · exact (rfl : (refusedWith err).ok = false)
    | ok id => exact .inr ⟨id, rfl, rfl⟩

/-- The requests of a send are for its conversation, with its format or none. -/
def IsOf (out : OutboundMessage) : TeamsCall → Prop
  | .ready | .app => True
  | .send conversationId activity => conversationId = out.channel.id ∧
    (activity.textFormat = activityFormat out.format ∨ activity.textFormat = none)
  | .update .. => False

theorem callsIn_partsOf {P : TeamsCall → Prop} (text : JsString) : (partsOf text).CallsIn P := by
  unfold partsOf
  split <;> trivial

theorem callsIn_sendPlain (out : OutboundMessage) (last : Option JsString) (part : JsString) :
    (sendPlain out.channel.id part last).CallsIn (IsOf out) := by
  refine ⟨trivial, fun held => ?_⟩
  obtain _ | _ | _ := held
  · trivial
  · trivial
  · refine ⟨⟨rfl, .inr rfl⟩, fun r => ?_⟩
    cases r <;> trivial

theorem callsIn_sendPartHonouringFormat (out : OutboundMessage) (last : Option JsString)
    (part : JsString) : (sendPartHonouringFormat out last part).CallsIn (IsOf out) := by
  refine ⟨trivial, fun held => ?_⟩
  obtain _ | _ | _ := held
  · trivial
  · trivial
  · refine ⟨⟨rfl, .inl rfl⟩, fun r => ?_⟩
    cases r with
    | ok id => trivial
    | error err =>
      show (afterRefusal out last part err).CallsIn (IsOf out)
      unfold afterRefusal
      split
      · exact callsIn_sendPlain out last part
      · trivial

theorem callsIn_sendMessage (out : OutboundMessage) : (sendMessage out).CallsIn (IsOf out) := by
  unfold sendMessage
  split
  · trivial
  · refine ⟨trivial, fun connected => ?_⟩
    obtain _ | _ | _ := connected
    · trivial
    · trivial
    · refine (callsIn_partsOf out.text).bind fun parts => ?_
      split
      · trivial
      · exact (callsIn_inTurn (callsIn_sendPartHonouringFormat out) none parts).bind fun _ =>
          trivial

variable {out : OutboundMessage} {parts : List JsString}

theorem partsOf_eq {text : JsString} (h : splitForTeams text = .ok parts) :
    partsOf text = .ret parts := by
  rw [partsOf, h]

theorem sendsParts_sendMessage (hparts : parts ≠ []) (hsplit : splitForTeams out.text = .ok parts) :
    SendsParts posted lastDefined parts (sendMessage out) := by
  have hrefused (_ : Option JsString) (_ : JsString) (r : SendResult) (hr : r.ok = false) :
      (answerOf (.error r)).ok = false := hr
  have hsends : SendsParts posted lastDefined parts (sendParts out) := by
    rw [sendParts, partsOf_eq hsplit]
    show SendsParts posted lastDefined parts (if parts = [] then _ else _)
    rw [if_neg hparts]
    exact sendsParts_inTurn (takes_sendPartHonouringFormat out) hrefused fun ids _ => ⟨rfl, rfl⟩
  unfold sendMessage
  split
  · exact sendsParts_refusal hparts rfl
  · refine sendsParts_call hparts fun connected => ⟨rfl, ?_⟩
    obtain _ | _ | _ := connected
    · exact sendsParts_refusal hparts rfl
    · exact sendsParts_refusal hparts rfl
    · exact hsends

/-- The second attempt at a part is one without a format. -/
theorem returnsUnder_sendPlain (channelId part : JsString) (last : Option JsString) :
    (sendPlain channelId part last).ReturnsUnder Granted fun r => ∃ a', r = .ok a' := by
  rintro _ rfl _ (⟨id, rfl⟩ | ⟨hformat, _⟩)
  · exact ⟨id.or last, rfl⟩
  · exact (hformat rfl).elim

theorem returnsUnder_sendPartHonouringFormat (out : OutboundMessage) (last : Option JsString)
    (part : JsString) :
    (sendPartHonouringFormat out last part).ReturnsUnder Granted fun r => ∃ a', r = .ok a' := by
  rintro _ rfl _ (⟨id, rfl⟩ | ⟨_, err, rfl, hmalformed⟩)
  · exact ⟨id.or last, rfl⟩
  · show (afterRefusal out last part err).ReturnsUnder Granted _
    rw [afterRefusal, if_pos hmalformed]
    exact returnsUnder_sendPlain out.channel.id part last

/-- A send that is granted its calls posts all parts, however often it goes back to plain text. -/
theorem delivers_sendMessage (hne : out.text ≠ []) (hparts : parts ≠ [])
    (hsplit : splitForTeams out.text = .ok parts) :
    Delivers Granted posted lastDefined parts (sendMessage out) := by
  refine ⟨sendsParts_sendMessage hparts hsplit, ?_⟩
  rw [sendMessage, if_neg hne]
  rintro _ rfl
  show (sendParts out).ReturnsUnder Granted (·.ok = true)
  rw [sendParts, partsOf_eq hsplit]
  show (if parts = [] then _ else _ : TeamsProg SendResult).ReturnsUnder Granted (·.ok = true)
  rw [if_neg hparts]
  exact returnsUnder_finish (returnsUnder_sendPartHonouringFormat out) (fun _ => rfl) none parts

theorem editsAs_editMessage {messageId : JsString} (hid : messageId ≠ []) (hne : out.text ≠ [])
    (hparts : parts ≠ []) (hsplit : splitForTeams out.text = .ok parts) :
    EditsAs Granted (updated messageId out) messageId parts TeamsCall.Reads
      (editMessage messageId out) := by
  have hone (part : JsString) :
      Delivers Granted (updated messageId out) (fun _ => some messageId) [part]
        (updateOne messageId out [part]) := by
    refine ⟨sendsParts_once fun r => ?_, ?_⟩
    · cases r with
      | error err => exact ⟨_, rfl, .inl ⟨rfl, rfl⟩⟩
      | ok => exact ⟨_, rfl, .inr ⟨(), if_pos ⟨rfl, rfl⟩, rfl, rfl⟩⟩
    · rintro _ rfl
      exact rfl
  have hedits : EditsAs Granted (updated messageId out) messageId parts TeamsCall.Reads
      (updateOne messageId out parts) :=
    editsAs_of_bodies (updateOne messageId out) hparts hone fun _ _ _ => ⟨trivial, rfl⟩
  rw [editMessage, if_neg hne, if_neg hid, partsOf_eq hsplit]
  refine editsAs_call hparts (show TeamsCall.ready.Reads from trivial) fun connected =>
    And.intro ?_ ?_
  · rfl
  · obtain _ | _ | _ := connected
    · exact .inr ⟨(fun h => nomatch h), _, rfl, rfl⟩
    · exact .inr ⟨(fun h => nomatch h), _, rfl, rfl⟩
    · exact .inl hedits

theorem refuses_editMessage (out : OutboundMessage) :
    OnlyRefuses TeamsCall.Reads (editMessage [] out) := by
  unfold editMessage
  split
  · exact ⟨trivial, rfl⟩
  · refine ⟨⟨trivial, fun connected => ?_⟩, fun connected => ?_⟩
    all_goals obtain _ | _ | _ := connected
    all_goals trivial

/-- Without parts nothing is asked of Teams, and the text is refused. -/
theorem refuses_of_no_parts (messageId : JsString) (hsplit : splitForTeams out.text = .ok []) :
    OnlyRefuses TeamsCall.Reads (sendMessage out) ∧
      OnlyRefuses TeamsCall.Reads (editMessage messageId out) := by
  constructor
  · rw [sendMessage, sendParts, partsOf_eq hsplit]
    split
    · exact ⟨trivial, rfl⟩
    · refine ⟨⟨trivial, fun connected => ?_⟩, fun connected => ?_⟩
      all_goals obtain _ | _ | _ := connected
      all_goals trivial
  · rw [editMessage, partsOf_eq hsplit]
    split
    · exact ⟨trivial, rfl⟩
    · by_cases hid : messageId = []
      · rw [if_pos hid]
        refine ⟨⟨trivial, fun connected => ?_⟩, fun connected => ?_⟩
        all_goals obtain _ | _ | _ := connected
        all_goals trivial
      · rw [if_neg hid]
        refine ⟨⟨trivial, fun connected => ?_⟩, fun connected => ?_⟩
        all_goals obtain _ | _ | _ := connected
        all_goals trivial

/-- The parts of a text are trimmed, and it loses nothing else. A send posts them in order, each
once, to its conversation, answers `ok` under the last id exactly when all are posted, and posts
them all when it is granted its calls, however often it goes back to plain text; an edit puts the
only one in the place of its activity, or makes no request, and it makes none under an empty id. A
text of white space has no part, and both refuse it. -/
theorem teams_sends_and_edits (messageId : JsString) (out : OutboundMessage) :
    ∃ parts, splitForTeams out.text = .ok parts ∧
      TrimmedSplit teamsMaxText out.text parts ∧ (sendMessage out).CallsIn (IsOf out) ∧
      (parts ≠ [] → Delivers Granted posted lastDefined parts (sendMessage out) ∧
        (messageId ≠ [] → EditsAs Granted (updated messageId out) messageId parts TeamsCall.Reads
          (editMessage messageId out))) ∧
      (parts = [] → OnlyRefuses TeamsCall.Reads (sendMessage out) ∧
        OnlyRefuses TeamsCall.Reads (editMessage messageId out)) ∧
      (messageId = [] → OnlyRefuses TeamsCall.Reads (editMessage messageId out)) := by
  obtain ⟨parts, hsplit, htrimmed⟩ := @chunkText_trimmed out.text teamsOptions 0
    ⟨by decide, by decide⟩ rfl StripLeading.spaces_onlySpace
  refine ⟨parts, hsplit, htrimmed, callsIn_sendMessage out, fun hparts => ?_, ?_, ?_⟩
  · have hne : out.text ≠ [] := by
      intro hempty
      rw [hempty] at htrimmed
      exact hparts (htrimmed.eq_nil_iff.2 rfl)
    exact ⟨delivers_sendMessage hne hparts hsplit,
      fun hid => editsAs_editMessage hid hne hparts hsplit⟩
  · rintro rfl
    exact refuses_of_no_parts messageId hsplit
  · rintro rfl
    exact refuses_editMessage out

/-- More than one activity takes, with markup. -/
def longText : OutboundMessage where
  channel := { id := js "19:c1", type := .group }
  text := letters 8001
  format := some .markdown

/-- Teams finds every activity with a format malformed. -/
def granting : (c : TeamsCall) → Except TeamsError c.Answer
  | .ready | .app => .ok true
  | .send _ activity =>
    if activity.textFormat = none then .ok (some (js "a1"))
    else .error (.object (some 400) none none [])
  | .update .. => .ok ()

theorem granted_granting (c : TeamsCall) : Granted c (granting c) := by
  cases c with
  | ready => exact rfl
  | app => exact rfl
  | send _ activity =>
    rw [granting]
    split
    · exact .inl ⟨_, rfl⟩
    · exact .inr ⟨‹_›, _, rfl, rfl⟩
  | update => exact rfl

theorem teams_sends_and_edits_longText :
    ∃ parts, splitForTeams longText.text = .ok parts ∧ 1 < parts.length ∧
      TrimmedSplit teamsMaxText longText.text parts ∧
      (∃ t r, Runs (sendMessage longText) t (.ret r) ∧ r.ok = true ∧
        (t.filterMap posted).map Prod.fst = parts) ∧
      OnlyRefuses TeamsCall.Reads (editMessage (js "a1") longText) ∧
      OnlyRefuses TeamsCall.Reads (editMessage [] longText) := by
  have hid : js "a1" ≠ [] := by decide
  obtain ⟨parts, hsplit, htrimmed, _, hsends, _, _⟩ := teams_sends_and_edits (js "a1") longText
  obtain ⟨_, _, _, _, _, _, hempty⟩ := teams_sends_and_edits [] longText
  have hlong : 1 < parts.length := by
    refine htrimmed.one_lt_length ?_
    rw [longText, countP_letters]
    decide
  obtain ⟨hdelivers, hedits⟩ := hsends (List.length_pos_iff.1 (Nat.lt_of_succ_lt hlong))
  exact ⟨parts, hsplit, hlong, htrimmed, hdelivers.exists_run granted_granting,
    (hedits hid).refuses hlong, hempty rfl⟩

end TheokitGateways.Teams
