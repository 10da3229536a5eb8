import TheokitGateways.Gateway.Outbound
import TheokitGateways.PlainRendering

/-!
# Slack: `sendMessage` and `editMessage`

A send posts its parts through the App the adapter holds when their turn comes, and
goes past a part when there is none. So a send that a `disconnect` cuts off still
answers `ok`: all parts are posted exactly when it does and it went past none, as
when every call is granted (`slack_sends_and_edits`).
-/

namespace TheokitGateways.Slack
open Js Gateway Async Prog

/-- The `data` of an error of the Web API. -/
structure SlackErrorData where
  error : Option JsString := none
  /-- The text of the number. -/
  retryAfter : Option JsString := none
  needed : Option JsString := none
  scope : Option JsString := none

/-- What a call of the client rejects with, as far as the adapter reads it. -/
structure SlackErrorLike where
  code : Option JsString := none
  data : Option SlackErrorData := none
  message : Option JsString := none

def mapSlackError (e : SlackErrorLike) : SendResult :=
  let code := ((e.data.bind (·.error)).or e.code).getD (js "platform_error")
  if code = js "rate_limited" then
    .failure (js "rate_limit")
      (js "retry after " ++ (e.data.bind (·.retryAfter)).getD (js "?") ++ js "s")
  else if code = js "channel_not_found" then
    .failure (js "channel_not_found") (js "channel id not found")
  else if code = js "not_in_channel" ∨ code = js "missing_scope" then
    .failure (js "no_permission") (((e.data.bind (·.needed)).or (e.data.bind (·.scope))).getD code)
  else if code = js "invalid_auth" ∨ code = js "token_revoked" ∨ code = js "account_inactive" then
    .failure (js "auth_error") code
  else if code = js "message_limit_exceeded" ∨ code = js "msg_too_long" then
    .failure (js "message_too_long") code
  else .failure (js "platform_error") (code ++ js ": " ++ e.message.getD (js "unknown"))

structure PostMessage where
  channel : JsString
  text : JsString
  threadTs : Option JsString := none
  /-- `mrkdwn: true` is there. -/
  mrkdwn : Bool := false

/-- What `await this.app?.client.chat.postMessage(…)` comes to. -/
inductive Posted where
  | noApp
  /-- A response, with its `ts` if that is a string. -/
  | response (ts : Option JsString)

inductive SlackCall where
  /-- Whether there is an App and it is connected. -/
  | ready
  | postMessage (args : PostMessage)
  | update (channel ts text : JsString)

/-- The call only reads. -/
def SlackCall.Reads : SlackCall → Prop
  | .ready => True
  | .postMessage _ | .update .. => False

abbrev SlackCall.Answer : SlackCall → Type
  | .ready => Bool
  | .postMessage _ => Posted
  | .update .. => Unit

abbrev SlackEvent := Event SlackCall SlackCall.Answer SlackErrorLike Empty

abbrev SlackProg (α : Type) := Prog SlackCall SlackCall.Answer SlackErrorLike Empty α

def editPartsRefusal (partCount : Nat) : SendResult :=
  partsRefusal (js "Slack messages") partCount

def emptyText : SendResult := .failure (js "empty_text") (js "text is empty")

def notConnected : SendResult := .failure (js "not_connected") (js "adapter not connected")

def ready : SlackProg Bool :=
  .call SlackCall.ready fun
    | .ok true => .ret true
    | _ => .ret false

/-- `splitForSlack`, which may throw. -/
def partsOf (text : JsString) : SlackProg (List JsString) :=
  match splitForSlack text with
  | .ok parts => .ret parts
  | .error message => .throw { message := some message }

def messageOf (out : OutboundMessage) (chunk : JsString) : PostMessage where
  channel := out.channel.id
  text := chunk
  threadTs := out.channel.topicId
  mrkdwn := out.format = some .markdown

def postMessage (args : PostMessage) : SlackProg (Except SlackErrorLike Posted) :=
  settle (SlackCall.postMessage args)

def update (channel ts text : JsString) : SlackProg (Except SlackErrorLike Unit) :=
  settle (SlackCall.update channel ts text)

/-- One pass of the loop. The id of a part that has none takes the place of the one before it. -/
def postChunk (out : OutboundMessage) (_ : Option JsString) (chunk : JsString) :
    SlackProg (Except SendResult (Option JsString)) := do
  match ← postMessage (messageOf out chunk) with
  | .ok (.response ts) => return .ok ts
  | .ok .noApp => return .ok none
  | .error err => return .error (mapSlackError err)

/-- `sendMessage` once it is connected. -/
def postChunks (out : OutboundMessage) : SlackProg SendResult := do
  let chunks ← partsOf out.text
  let sent ← inTurn (postChunk out) none chunks
  return answerOf sent

def sendMessage (out : OutboundMessage) : SlackProg SendResult :=
  if out.text = [] then return emptyText
  else do
    if ← ready then postChunks out else return notConnected

/-- `editMessage` once the text is split. -/
def updateOne (messageId : JsString) (out : OutboundMessage) : List JsString → SlackProg SendResult
  | [part] => do
    match ← update out.channel.id messageId part with
    | .error err => return mapSlackError err
    | .ok () => return { ok := true, messageId := some messageId }
  | parts => return editPartsRefusal parts.length

def editMessage (messageId : JsString) (out : OutboundMessage) : SlackProg SendResult :=
  if out.text = [] then return emptyText
  else do
    if ← ready then
      if messageId = [] then
        return .failure (js "invalid_message_id") (js "message id is empty")
      else do
        let parts ← partsOf out.text
        updateOne messageId out parts
    else return notConnected

/-- The part that a send is done with after an event, and the id it has for it. -/
def handled : SlackEvent → Option (JsString × Option JsString)
  | .answered (.postMessage args) (.ok .noApp) => some (args.text, none)
  | .answered (.postMessage args) (.ok (.response ts)) => some (args.text, ts)
  | _ => none

/-- The part that Slack has taken with an event. -/
def posted : SlackEvent → Option JsString
  | .answered (.postMessage args) (.ok (.response _)) => some args.text
  | _ => none

/-- The part that a send went past, for want of an App. -/
def skipped : SlackEvent → Option JsString
  | .answered (.postMessage args) (.ok .noApp) => some args.text
  | _ => none

/-- The part that Slack has put in the place of a message with an event. -/
def updated (messageId : JsString) (out : OutboundMessage) : SlackEvent → Option (JsString × Unit)
  | .answered (.update channel ts text) (.ok ()) =>
    if channel = out.channel.id ∧ ts = messageId then some (text, ()) else none
  | _ => none

/-- There is an App, and Slack answers a call of it with what it asks for. -/
def Granted : (c : SlackCall) → Except SlackErrorLike c.Answer → Prop
  | .ready, r => r = .ok true
  | .postMessage _, r => ∃ ts, r = .ok (.response ts)
  | .update .., r => r = .ok ()

theorem not_ok_mapSlackError (e : SlackErrorLike) : (mapSlackError e).ok = false := by
  unfold mapSlackError
  dsimp only
  split
  · rfl
  · split
    · rfl
    · split
      · rfl
      · split
        · rfl
        · split <;> rfl

theorem takes_postChunk (out : OutboundMessage) (a : Option JsString) (chunk : JsString) :
    Takes handled (fun _ ts => ts) a chunk (·.ok = false) (postChunk out a chunk) := by
  intro r
  obtain err | _ | ts := r
  · exact .inl ⟨rfl, not_ok_mapSlackError err⟩
  · exact .inr ⟨none, rfl, rfl⟩
  · exact .inr ⟨ts, rfl, rfl⟩

/-- The requests of a send are for its channel and its thread, as markup if it says so. -/
def IsOf (out : OutboundMessage) : SlackCall → Prop
  | .ready => True
  | .postMessage args => args = messageOf out args.text
  | .update .. => False

theorem callsIn_partsOf {P : SlackCall → Prop} (text : JsString) : (partsOf text).CallsIn P := by
  unfold partsOf
  split <;> trivial

theorem callsIn_sendMessage (out : OutboundMessage) : (sendMessage out).CallsIn (IsOf out) := by
  have hpost (a : Option JsString) (chunk : JsString) :
      (postChunk out a chunk).CallsIn (IsOf out) := by
    refine ⟨rfl, fun r => ?_⟩
    obtain _ | _ | _ := r
    all_goals trivial
  unfold sendMessage
  split
  · trivial
  · refine ⟨trivial, fun connected => ?_⟩
    obtain _ | _ | _ := connected
    · trivial
    · trivial
    · exact (callsIn_partsOf out.text).bind fun chunks =>
        (callsIn_inTurn hpost none chunks).bind fun _ => trivial

/-- A loop that keeps what it noted last ends with that of the last pass. -/
theorem foldl_latest {α : Type} (tss : List (Option α)) (a : Option α) :
    tss.foldl (fun _ ts => ts) a = (tss.getLast?).getD a := by
  induction tss generalizing a with
  | nil => rfl
  | cons ts tss ih =>
    rw [List.foldl_cons, ih, List.getLast?_cons]
    rfl

variable {out : OutboundMessage} {parts : List JsString}

theorem partsOf_eq {text : JsString} (h : splitForSlack text = .ok parts) :
    partsOf text = .ret parts := by
  rw [partsOf, h]

theorem sendsParts_sendMessage (hne : out.text ≠ []) (hparts : parts ≠ [])
    (hsplit : splitForSlack out.text = .ok parts) :
    SendsParts handled (fun tss => tss.getLast?.getD none) parts (sendMessage out) := by
  have hrefused (_ : Option JsString) (_ : JsString) (r : SendResult) (hr : r.ok = false) :
      (answerOf (.error r)).ok = false := hr
  have hposts : SendsParts handled (fun tss => tss.getLast?.getD none) parts (postChunks out) := by
    rw [postChunks, partsOf_eq hsplit]
    refine sendsParts_inTurn (takes_postChunk out) hrefused fun tss _ => ⟨rfl, ?_⟩
    rw [answerOf, foldl_latest]
  rw [sendMessage, if_neg hne]
  refine sendsParts_call hparts fun connected => ⟨rfl, ?_⟩
  obtain _ | _ | _ := connected
  · exact sendsParts_refusal hparts rfl
  · exact sendsParts_refusal hparts rfl
  · exact hposts

/-- A send that is granted its calls is done with all parts. -/
theorem delivers_sendMessage (hne : out.text ≠ []) (hparts : parts ≠ [])
    (hsplit : splitForSlack out.text = .ok parts) :
    Delivers Granted handled (fun tss => tss.getLast?.getD none) parts (sendMessage out) := by
  refine ⟨sendsParts_sendMessage hne hparts hsplit, ?_⟩
  have hpost (a : Option JsString) (chunk : JsString) :
      (postChunk out a chunk).ReturnsUnder Granted fun r => ∃ a', r = .ok a' := by
    rintro _ ⟨ts, rfl⟩
    exact ⟨ts, rfl⟩
  rw [sendMessage, if_neg hne]
  rintro _ rfl
  show (postChunks out).ReturnsUnder Granted (·.ok = true)
  rw [postChunks, partsOf_eq hsplit]
  exact returnsUnder_finish hpost (fun _ => rfl) none parts

theorem editsAs_editMessage {messageId : JsString} (hid : messageId ≠ []) (hne : out.text ≠ [])
    (hparts : parts ≠ []) (hsplit : splitForSlack out.text = .ok parts) :
    EditsAs Granted (updated messageId out) messageId parts SlackCall.Reads
      (editMessage messageId out) := by
  have hone (part : JsString) :
      Delivers Granted (updated messageId out) (fun _ => some messageId) [part]
        (updateOne messageId out [part]) := by
    refine ⟨sendsParts_once fun r => ?_, ?_⟩
    · cases r with
      | error err => exact ⟨_, rfl, .inl ⟨rfl, not_ok_mapSlackError err⟩⟩
      | ok => exact ⟨_, rfl, .inr ⟨(), if_pos ⟨rfl, rfl⟩, rfl, rfl⟩⟩
    · rintro _ rfl
      exact rfl
  have hedits : EditsAs Granted (updated messageId out) messageId parts SlackCall.Reads
      (updateOne messageId out parts) :=
    editsAs_of_bodies (updateOne messageId out) hparts hone fun _ _ _ =>
      ⟨trivial, not_ok_partsRefusal _ _⟩
  rw [editMessage, if_neg hne, if_neg hid, partsOf_eq hsplit]
  refine editsAs_call hparts (show SlackCall.ready.Reads from trivial) fun connected =>
    And.intro ?_ ?_
  · rfl
  · obtain _ | _ | _ := connected
    · exact .inr ⟨(fun h => nomatch h), _, rfl, rfl⟩
    · exact .inr ⟨(fun h => nomatch h), _, rfl, rfl⟩
    · exact .inl hedits

theorem refuses_editMessage (out : OutboundMessage) :
    OnlyRefuses SlackCall.Reads (editMessage [] out) := by
  unfold editMessage
  split
  · exact ⟨trivial, rfl⟩
  · refine ⟨⟨trivial, fun connected => ?_⟩, fun connected => ?_⟩
    all_goals obtain _ | _ | _ := connected
    all_goals trivial

/-- The parts that a send is done with are those that were posted and those it went past. -/
theorem posted_sublist_handled (t : List SlackEvent) :
    (t.filterMap posted).Sublist ((t.filterMap handled).map Prod.fst) ∧
      (t.filterMap handled).length = (t.filterMap posted).length +
        (t.filterMap skipped).length := by
  induction t with
  | nil => exact ⟨List.Sublist.slnil, rfl⟩
  | cons e t ih =>
    obtain ⟨hsub, hlength⟩ := ih
    match e with
    | .answered (.postMessage args) (.ok .noApp) =>
      refine ⟨hsub.cons args.text, ?_⟩
      show (t.filterMap handled).length + 1 =
        (t.filterMap posted).length + ((t.filterMap skipped).length + 1)
      omega
    | .answered (.postMessage args) (.ok (.response ts)) =>
      refine ⟨hsub.cons_cons args.text, ?_⟩
      show (t.filterMap handled).length + 1 =
        (t.filterMap posted).length + 1 + (t.filterMap skipped).length
      omega
    | .answered (.postMessage _) (.error _) => exact ⟨hsub, hlength⟩
    | .answered .ready _ => exact ⟨hsub, hlength⟩
    | .answered (.update ..) _ => exact ⟨hsub, hlength⟩
    | .emitted o => exact o.elim

/-- What Slack has taken of a text: all of it, in order, exactly when the send answers `ok` and went
past no part. -/
theorem posted_eq_iff {t : List SlackEvent} {r : SendResult}
    (hsends : SendsParts handled (fun tss => tss.getLast?.getD none) parts (sendMessage out))
    (hrun : Runs (sendMessage out) t (.ret r)) :
    t.filterMap posted = parts ↔ r.ok = true ∧ t.filterMap skipped = [] := by
  have hsent := hsends t _ hrun
  obtain ⟨hsub, hlength⟩ := posted_sublist_handled t
  have hprefix := hsent.first.length_le
  rw [List.length_map] at hprefix
  constructor
  · intro hall
    have hparts := congrArg List.length hall
    have hnone : (t.filterMap skipped).length = 0 := by omega
    have hhandled : ((t.filterMap handled).map Prod.fst).length = parts.length := by
      rw [List.length_map]
      omega
    exact ⟨(hsent.complete r rfl).2 (hsent.first.eq_of_length hhandled),
      List.length_eq_zero_iff.1 hnone⟩
  · rintro ⟨hok, hnone⟩
    have hhandled := (hsent.complete r rfl).1 hok
    rw [← hhandled]
    refine hsub.eq_of_length ?_
    rw [List.length_map, hlength, hnone, List.length_nil, Nat.add_zero]

/-- A send that is granted its calls goes past no part. -/
theorem skipped_of_granted {t : List SlackEvent} (ht : ∀ c r, .answered c r ∈ t → Granted c r) :
    t.filterMap skipped = [] := by
  rw [List.filterMap_eq_nil_iff]
  intro e he
  unfold skipped
  split
  · obtain ⟨ts, hts⟩ := ht _ _ he
    cases hts
  · rfl

/-- The parts of a text that is not empty fit and are the text again but for white space at the
cuts. A send goes through them in order, each once, for its channel and thread, and all are posted
exactly when it answers `ok` and went past none, which it does when it is granted its calls; an edit
puts the only one in the place of its message, or only reads whether there is a connection, and it
does no more under an empty id. -/
theorem slack_sends_and_edits (messageId : JsString) (out : OutboundMessage)
    (hne : out.text ≠ []) : ∃ parts, splitForSlack out.text = .ok parts ∧
      ((∀ part ∈ parts, part ≠ [] ∧ part.length ≤ slackMaxText) ∧ SplitsAtSpace out.text parts) ∧
      ((sendMessage out).CallsIn (IsOf out) ∧
        Delivers Granted handled (fun tss => tss.getLast?.getD none) parts (sendMessage out) ∧
        ∀ t r, Runs (sendMessage out) t (.ret r) →
          (t.filterMap posted = parts ↔ r.ok = true ∧ t.filterMap skipped = []) ∧
          ((∀ c a, .answered c a ∈ t → Granted c a) → t.filterMap posted = parts)) ∧
      (messageId ≠ [] → EditsAs Granted (updated messageId out) messageId parts SlackCall.Reads
        (editMessage messageId out)) ∧
      (messageId = [] → OnlyRefuses SlackCall.Reads (editMessage messageId out)) := by
  have hsplits : SplitsTo slackMaxText splitForSlack :=
    splitsTo_chunkText ⟨by decide, by decide⟩ rfl StripLeading.spaces_onlySpace
  obtain ⟨parts, hsplit, hfits, hspace⟩ := hsplits out.text hne
  have hparts : parts ≠ [] := by
    rintro rfl
    obtain ⟨stripped, _, _, hflat⟩ := hspace
    exact hne (by simpa using hflat)
  have hdelivers := delivers_sendMessage hne hparts hsplit
  refine ⟨parts, hsplit, ⟨hfits, hspace⟩,
    ⟨callsIn_sendMessage out, hdelivers, fun t r hrun => ?_⟩,
    fun hid => editsAs_editMessage hid hne hparts hsplit, ?_⟩
  · have hiff := posted_eq_iff hdelivers.sends hrun
    exact ⟨hiff, fun ht => hiff.2 ⟨hdelivers.answers.of_runs hrun ht, skipped_of_granted ht⟩⟩
  · rintro rfl
    exact refuses_editMessage out

/-- More than one message takes, in a thread. -/
def longText : OutboundMessage where
  channel := { id := js "C1", type := .thread, topicId := some (js "1.2") }
  text := letters 4001
  format := some .markdown

/-- Slack with a `ts` for every message. -/
def granting : (c : SlackCall) → Except SlackErrorLike c.Answer
  | .ready => .ok true
  | .postMessage _ => .ok (.response (some (js "1.3")))
  | .update .. => .ok ()

theorem granted_granting (c : SlackCall) : Granted c (granting c) := by
  cases c with
  | ready => exact rfl
  | postMessage => exact ⟨_, rfl⟩
  | update => exact rfl

theorem slack_sends_and_edits_longText : longText.text ≠ [] ∧
    ∃ parts, splitForSlack longText.text = .ok parts ∧ 1 < parts.length ∧
      SplitsAtSpace longText.text parts ∧
      (∃ t r, Runs (sendMessage longText) t (.ret r) ∧ r.ok = true ∧
        t.filterMap posted = parts) ∧
      OnlyRefuses SlackCall.Reads (editMessage (js "1.3") longText) ∧
      OnlyRefuses SlackCall.Reads (editMessage [] longText) := by
  have hne : longText.text ≠ [] := letters_ne_nil (by decide)
  have hid : js "1.3" ≠ [] := by decide
  obtain ⟨parts, hsplit, ⟨hfits, hspace⟩, ⟨_, hdelivers, hposts⟩, hedits, _⟩ :=
    slack_sends_and_edits (js "1.3") longText hne
  obtain ⟨_, _, _, _, _, hempty⟩ := slack_sends_and_edits [] longText hne
  have hlong : 1 < parts.length := by
    refine hspace.one_lt_length (fun part hpart => (hfits part hpart).2) ?_
    rw [longText, countP_letters]
    decide
  obtain ⟨t, r, hrun, hok, ht⟩ := hdelivers.answers.exists_run granted_granting
  have hall : t.filterMap posted = parts :=
    (hposts t r hrun).2 fun c a ha => ht c a ha ▸ granted_granting c
  exact ⟨hne, parts, hsplit, hlong, hspace, ⟨t, r, hrun, hok, hall⟩,
    (hedits hid).refuses hlong, hempty rfl⟩

end TheokitGateways.Slack
