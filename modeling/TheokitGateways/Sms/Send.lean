import TheokitGateways.Gateway.Outbound
import TheokitGateways.Sms.Places
import TheokitGateways.Sms.Webhook

/-!
# SMS: `sendMessage`

The backend is asked for one part after another, and looks for its client each time.
A refusal says after how many parts it came, which the adapter finds by looking for
the part among all of them; it is the number of parts that the provider has taken,
since no part is sent twice (`sms_sends`).
-/

namespace TheokitGateways.Sms
open Js Gateway Async Prog

/-- What a provider's client rejects with, as far as a backend reads it. -/
structure RestError where
  status : Option Nat := none
  statusCode : Option Nat := none
  /-- `response?.status`. -/
  responseStatus : Option Nat := none
  message : Option JsString := none
  /-- The message of an error, else its text. -/
  text : JsString := []

structure CreateArgs where
  sender : JsString
  recipient : JsString
  body : JsString

structure PlivoCreateResponse where
  apiId : Option JsString := none
  messageUuid : Option (List JsString) := none
  message_uuid : Option (List JsString) := none

/-- A message of what Vonage's `send` answers. -/
structure VonageMessage where
  /-- `"message-id"`. -/
  message_id : Option JsString := none
  messageId : Option JsString := none
  status : Option JsString := none

inductive SmsCall where
  /-- Reading the client of the backend: whether there is one. -/
  | client
  | warnedAboutFormat
  | twilioCreate (args : CreateArgs)
  | plivoCreate (args : CreateArgs)
  | vonageSend (args : CreateArgs)

/-- What a call answers: Twilio the `sid`, and Vonage the messages. -/
abbrev SmsCall.Answer : SmsCall → Type
  | .client | .warnedAboutFormat => Bool
  | .twilioCreate _ => JsString
  | .plivoCreate _ => PlivoCreateResponse
  | .vonageSend _ => Option (List VonageMessage)

abbrev SmsEvent := Event SmsCall SmsCall.Answer RestError JsString

abbrev SmsProg (α : Type) := Prog SmsCall SmsCall.Answer RestError JsString α

/-- The refusal for a status that has one of its own, if the provider rejects with 400. -/
def refusalOf (provider : JsString) (rejects : Bool) (status : Nat) (e : RestError) : SendResult :=
  if status = 429 then
    .failure (js "rate_limit") (e.message.getD (provider ++ js " rate limit"))
  else if status = 401 ∨ status = 403 then
    .failure (js "permission_denied") (e.message.getD (provider ++ js " auth error"))
  else if rejects ∧ status = 400 then
    .failure (js "invalid_request") (e.message.getD (provider ++ js " rejected request"))
  else .failure (js "send_failed") (e.message.getD e.text)

def mapTwilioError (e : RestError) : SendResult :=
  refusalOf (js "Twilio") true (e.status.getD 0) e

def mapPlivoError (e : RestError) : SendResult :=
  refusalOf (js "Plivo") true ((e.statusCode.or e.status).getD 0) e

-- Vonage has no refusal of its own for 400.
def mapVonageError (e : RestError) : SendResult :=
  refusalOf (js "Vonage") false ((e.status.or e.responseStatus).getD 0) e

/-- A request of a backend, when it has a client. -/
def request (backend : JsString) (c : SmsCall)
    (result : Except RestError c.Answer → SendResult) : SmsProg SendResult :=
  .call SmsCall.client fun
    | .ok true => .call c fun r => .ret (result r)
    | _ => .ret (.failure (js "not_connected") (backend ++ js ".connect() not called"))

namespace TwilioBackend

def resultOf : Except RestError JsString → SendResult
  | .ok sid => { ok := true, messageId := some sid }
  | .error err => mapTwilioError err

def sendMessage (args : CreateArgs) : SmsProg SendResult :=
  request (js "TwilioBackend") (.twilioCreate args) resultOf

end TwilioBackend

namespace PlivoBackend

/-- The id of a message, empty if the answer has none. -/
def idOf (resp : PlivoCreateResponse) : JsString :=
  (((resp.messageUuid.bind List.head?).or (resp.message_uuid.bind List.head?)).or
    resp.apiId).getD []

def resultOf : Except RestError PlivoCreateResponse → SendResult
  | .ok resp => { ok := true, messageId := some (idOf resp) }
  | .error err => mapPlivoError err

def sendMessage (args : CreateArgs) : SmsProg SendResult :=
  request (js "PlivoBackend") (.plivoCreate args) resultOf

end PlivoBackend

namespace VonageBackend

def idOf (msg : Option VonageMessage) : JsString :=
  ((msg.bind (·.message_id)).or (msg.bind (·.messageId))).getD []

/-- The status of a message that Vonage has not taken. -/
def failedStatus (msg : Option VonageMessage) : Option JsString :=
  (msg.bind (·.status)).filter (· ≠ js "0")

def resultOf : Except RestError (Option (List VonageMessage)) → SendResult
  | .ok messages =>
    let msg := messages.bind List.head?
    match failedStatus msg with
    | some status => .failure (js "send_failed") (js "Vonage returned status=" ++ status)
    | none => { ok := true, messageId := some (idOf msg) }
  | .error err => mapVonageError err

def sendMessage (args : CreateArgs) : SmsProg SendResult :=
  request (js "VonageBackend") (.vonageSend args) resultOf

end VonageBackend

def SMSBackend.sendMessage (b : SMSBackend) (args : CreateArgs) : SmsProg SendResult :=
  match b.kind with
  | .twilio => TwilioBackend.sendMessage args
  | .plivo => PlivoBackend.sendMessage args
  | .vonage => VonageBackend.sendMessage args

def emptyText : SendResult := .failure (js "empty_text") (js "outbound text is empty")

def formatName : Format → JsString
  | .plain => js "plain"
  | .markdown => js "markdown"
  | .html => js "html"

def formatLine (format : Format) : JsString :=
  js "[gateway-sms] format=\"" ++ formatName format ++ js "\" was declared, and SMS cannot " ++
    js "carry it — the medium is plain text. Sending unformatted; this is logged once.\n"

/-- `warnFormatUnsupported`, and what follows it. -/
def warnFormatUnsupported (format : Option Format) (rest : SmsProg SendResult) :
    SmsProg SendResult :=
  match format with
  | none | some .plain => rest
  | some format =>
    .call SmsCall.warnedAboutFormat fun
      | .ok true => rest
      | _ => .emit (formatLine format) rest

/-- The refusal of a part among all of them. -/
def partialFailure (parts : List JsString) (part : JsString) (result : SendResult) : SendResult :=
  .failure ((result.error.map (·.code)).getD (js "partial_send_failure"))
    (js "partial send failed after " ++ natText (parts.idxOf part) ++ js "/" ++
      natText parts.length ++ js ": " ++ (result.error.map (·.message)).getD (js "unknown"))

/-- What becomes of a part, by the backend's result. -/
def counted (parts : List JsString) (part : JsString) (result : SendResult) :
    Except SendResult (Option JsString) :=
  if result.ok then .ok result.messageId else .error (partialFailure parts part result)

section
variable (segment : JsString → List JsString) (lib : Libraries) (b : SMSBackend)
  (fromNumber : JsString)

/-- One pass of the loop. -/
def sendPart (recipient : JsString) (parts : List JsString) (_ : Option JsString)
    (part : JsString) : SmsProg (Except SendResult (Option JsString)) := do
  let result ← b.sendMessage ⟨fromNumber, recipient, part⟩
  return counted parts part result

/-- The loop, which answers the last result. -/
def sendParts (recipient : JsString) (parts : List JsString) : SmsProg SendResult :=
  if parts = [] then return .failure (js "send_failed") (js "no parts sent")
  else do
    let sent ← inTurn (sendPart b fromNumber recipient parts) none parts
    return answerOf sent

def sendMessage (out : OutboundMessage) : SmsProg SendResult :=
  if out.text = [] then return emptyText
  else
    match normalizeE164 lib (.string out.channel.id) b.defaultCountry with
    | .error err => return .failure (js "invalid_phone_number") err.text
    | .ok recipient =>
      match splitForSMS segment out.text with
      | .error message => .throw { message := some message, text := message }
      | .ok parts => warnFormatUnsupported out.format (sendParts b fromNumber recipient parts)

end

/-- The part that a provider has taken with an event, and the id it has given it. -/
def posted : SmsEvent → Option (JsString × JsString)
  | .answered (.twilioCreate args) (.ok sid) => some (args.body, sid)
  | .answered (.plivoCreate args) (.ok resp) => some (args.body, PlivoBackend.idOf resp)
  | .answered (.vonageSend args) (.ok messages) =>
    let msg := messages.bind List.head?
    if (VonageBackend.failedStatus msg).isSome then none
    else some (args.body, VonageBackend.idOf msg)
  | _ => none

/-- The backend has a client, and the provider takes every part. -/
def Granted : (c : SmsCall) → Except RestError c.Answer → Prop
  | .client, r => r = .ok true
  | .warnedAboutFormat, _ => True
  | .twilioCreate _, r => ∃ sid, r = .ok sid
  | .plivoCreate _, r => ∃ resp, r = .ok resp
  | .vonageSend _, r => ∃ messages, r = .ok messages ∧
    VonageBackend.failedStatus (messages.bind List.head?) = none

/-- The requests are for one recipient. -/
def IsTo (fromNumber recipient : JsString) : SmsCall → Prop
  | .client | .warnedAboutFormat => True
  | .twilioCreate args | .plivoCreate args | .vonageSend args =>
    args.sender = fromNumber ∧ args.recipient = recipient

theorem not_ok_refusalOf (provider : JsString) (rejects : Bool) (status : Nat) (e : RestError) :
    (refusalOf provider rejects status e).ok = false := by
  unfold refusalOf
  split
  · rfl
  · split
    · rfl
    · split <;> rfl

variable {segment : JsString → List JsString} {lib : Libraries} {b : SMSBackend}
  {fromNumber recipient : JsString} {out : OutboundMessage} {parts : List JsString}

/-- An answer is a success under the id of the part that was taken with it. -/
def Tells (c : SmsCall) (body : JsString) (result : Except RestError c.Answer → SendResult) :
    Prop :=
  ∀ r, (posted (.answered c r) = none ∧ (result r).ok = false) ∨
    ∃ id, posted (.answered c r) = some (body, id) ∧
      result r = { ok := true, messageId := some id }

theorem TwilioBackend.tells (args : CreateArgs) :
    Tells (.twilioCreate args) args.body TwilioBackend.resultOf := by
  intro r
  cases r with
  | error err => exact .inl ⟨rfl, not_ok_refusalOf ..⟩
  | ok sid => exact .inr ⟨sid, rfl, rfl⟩

theorem PlivoBackend.tells (args : CreateArgs) :
    Tells (.plivoCreate args) args.body PlivoBackend.resultOf := by
  intro r
  cases r with
  | error err => exact .inl ⟨rfl, not_ok_refusalOf ..⟩
  | ok resp => exact .inr ⟨PlivoBackend.idOf resp, rfl, rfl⟩

theorem VonageBackend.tells (args : CreateArgs) :
    Tells (.vonageSend args) args.body VonageBackend.resultOf := by
  intro r
  cases r with
  | error err => exact .inl ⟨rfl, not_ok_refusalOf ..⟩
  | ok messages =>
    rw [posted, VonageBackend.resultOf]
    cases VonageBackend.failedStatus (messages.bind List.head?) with
    | some status => exact .inl ⟨rfl, rfl⟩
    | none => exact .inr ⟨_, rfl, rfl⟩

/-- A pass of the loop refuses with where it was. -/
def RefusedAt (parts : List JsString) (part : JsString) (refusal : SendResult) : Prop :=
  ∃ result, refusal = partialFailure parts part result

theorem takes_request {backend : JsString} {c : SmsCall} {part : JsString}
    {result : Except RestError c.Answer → SendResult} (h : Tells c part result)
    (a : Option JsString) :
    Takes posted (fun _ id => some id) a part (RefusedAt parts part)
      (request backend c result >>= fun r => .ret (counted parts part r)) := by
  have hrefused {r : SendResult} (hno : r.ok = false) :
      Takes posted (fun _ id => some id) a part (RefusedAt parts part)
        (Prog.ret (counted parts part r) : SmsProg _) := by
    rw [counted, hno]
    exact ⟨r, rfl⟩
  intro present
  refine .inl ⟨rfl, ?_⟩
  obtain _ | _ | _ := present
  · exact hrefused rfl
  · exact hrefused rfl
  · intro r
    obtain ⟨hnone, hno⟩ | ⟨id, htaken, hresult⟩ := h r
    · exact .inl ⟨hnone, hrefused hno⟩
    · refine .inr ⟨id, htaken, ?_⟩
      show TakenAs posted _ a id (Prog.ret (counted parts part (result r)))
      rw [hresult]
      exact rfl

theorem takes_sendPart (a : Option JsString) (part : JsString) :
    Takes posted (fun _ id => some id) a part (RefusedAt parts part)
      (sendPart b fromNumber recipient parts a part) := by
  unfold sendPart SMSBackend.sendMessage
  split
  · exact takes_request (TwilioBackend.tells ⟨fromNumber, recipient, part⟩) a
  · exact takes_request (PlivoBackend.tells ⟨fromNumber, recipient, part⟩) a
  · exact takes_request (VonageBackend.tells ⟨fromNumber, recipient, part⟩) a

theorem callsIn_request {backend : JsString} {c : SmsCall}
    {result : Except RestError c.Answer → SendResult} (h : IsTo fromNumber recipient c) :
    (request backend c result).CallsIn (IsTo fromNumber recipient) := by
  refine ⟨trivial, fun present => ?_⟩
  obtain _ | _ | _ := present
  · trivial
  · trivial
  · exact ⟨h, fun _ => trivial⟩

theorem callsIn_sendParts :
    (sendParts b fromNumber recipient parts).CallsIn (IsTo fromNumber recipient) := by
  have hpart (a : Option JsString) (part : JsString) :
      (sendPart b fromNumber recipient parts a part).CallsIn (IsTo fromNumber recipient) := by
    have hsend : (b.sendMessage ⟨fromNumber, recipient, part⟩).CallsIn
        (IsTo fromNumber recipient) := by
      unfold SMSBackend.sendMessage
      split
      all_goals exact callsIn_request ⟨rfl, rfl⟩
    exact hsend.bind fun _ => trivial
  unfold sendParts
  split
  · trivial
  · exact (callsIn_inTurn hpart none _).bind fun _ => trivial

theorem sendsParts_sendParts (hparts : parts ≠ []) :
    SendsParts posted List.getLast? parts (sendParts b fromNumber recipient parts) := by
  have hsend (a : Option JsString) (part : JsString) :
      Takes posted (fun _ id => some id) a part (RefusedAt parts part)
        (sendPart b fromNumber recipient parts a part) := takes_sendPart a part
  rw [sendParts, if_neg hparts]
  refine sendsParts_inTurn hsend (fun a part r hr => ?_) fun ids _ => ⟨rfl, ?_⟩
  · obtain ⟨result, rfl⟩ := hr
    rfl
  · have hlast := foldl_last id ids none
    rw [Option.map_id, id_eq, Option.or_none] at hlast
    exact hlast

/-- A request that is granted sends its part. -/
theorem returnsUnder_request {backend : JsString} {c : SmsCall}
    {result : Except RestError c.Answer → SendResult} (part : JsString)
    (h : ∀ r, Granted c r → (result r).ok = true) :
    (request backend c result >>= fun r => .ret (counted parts part r)).ReturnsUnder Granted
      fun r => ∃ a', r = .ok a' := by
  rintro _ rfl r hr
  show ∃ a', counted parts part (result r) = .ok a'
  rw [counted, if_pos (h r hr)]
  exact ⟨_, rfl⟩

theorem returnsUnder_sendPart (a : Option JsString) (part : JsString) :
    (sendPart b fromNumber recipient parts a part).ReturnsUnder Granted
      fun r => ∃ a', r = .ok a' := by
  unfold sendPart SMSBackend.sendMessage
  split
  · refine returnsUnder_request part ?_
    rintro _ ⟨sid, rfl⟩
    rfl
  · refine returnsUnder_request part ?_
    rintro _ ⟨resp, rfl⟩
    rfl
  · refine returnsUnder_request part ?_
    rintro _ ⟨messages, rfl, htaken⟩
    rw [VonageBackend.resultOf]
    simp only [htaken]

/-- A loop that is granted its calls sends all parts. -/
theorem delivers_sendParts (hparts : parts ≠ []) :
    Delivers Granted posted List.getLast? parts (sendParts b fromNumber recipient parts) := by
  refine ⟨sendsParts_sendParts hparts, ?_⟩
  rw [sendParts, if_neg hparts]
  exact returnsUnder_finish (fun a part => returnsUnder_sendPart a part) (fun _ => rfl) none parts

/-- A refusal says after how many parts it came. -/
theorem partialFailure_of_runs (hnodup : parts.Nodup) (hparts : parts ≠ []) {t : List SmsEvent}
    {r : SendResult} (h : Runs (sendParts b fromNumber recipient parts) t (.ret r))
    (hno : r.ok = false) : ∃ code message,
      r = .failure code (js "partial send failed after " ++ natText (t.filterMap posted).length ++
        js "/" ++ natText parts.length ++ js ": " ++ message) := by
  rw [sendParts, if_neg hparts] at h
  obtain ⟨refusal, part, rest, rfl, hat, result, rfl⟩ :=
    refusal_inTurn (fun a part => takes_sendPart a part) (fun _ => rfl) h hno
  have hindex : parts.idxOf part = (t.filterMap posted).length := by
    have hfresh : part ∉ (t.filterMap posted).map Prod.fst := by
      rw [hat] at hnodup
      exact fun hmem => (List.nodup_append.1 hnodup).2.2 part hmem part (by simp) rfl
    rw [hat, List.idxOf_append, if_neg hfresh, List.idxOf_cons_self, List.length_map]
    omega
  rw [← hindex]
  exact ⟨(result.error.map (·.code)).getD _, (result.error.map (·.message)).getD _, rfl⟩

/-- A run of what follows a warning, which takes no part. -/
theorem runs_warnFormatUnsupported {format : Option Format} {rest : SmsProg SendResult}
    {t : List SmsEvent} {r : SendResult}
    (h : Runs (warnFormatUnsupported format rest) t (.ret r)) :
    ∃ t', Runs rest t' (.ret r) ∧ t.filterMap posted = t'.filterMap posted := by
  have hwarned (line : JsString) (t : List SmsEvent) (h : Runs (.emit line rest) t (.ret r)) :
      ∃ t', Runs rest t' (.ret r) ∧ t.filterMap posted = t'.filterMap posted := by
    obtain ⟨_, heq⟩ | ⟨t', rfl, hrest⟩ := runs_emit.1 h
    · cases heq
    · exact ⟨t', hrest, rfl⟩
  unfold warnFormatUnsupported at h
  split at h
  · exact ⟨t, h, rfl⟩
  · exact ⟨t, h, rfl⟩
  · obtain ⟨_, heq⟩ | ⟨already, t', rfl, hrest⟩ := runs_call.1 h
    · cases heq
    · obtain _ | _ | _ := already
      · exact hwarned _ t' hrest
      · exact hwarned _ t' hrest
      · exact ⟨t', hrest, rfl⟩

/-- The warning is no part of the send. -/
theorem delivers_warnFormatUnsupported (hparts : parts ≠ []) {format : Option Format}
    {rest : SmsProg SendResult} (h : Delivers Granted posted List.getLast? parts rest) :
    Delivers Granted posted List.getLast? parts (warnFormatUnsupported format rest) := by
  unfold warnFormatUnsupported
  split
  · exact h
  · exact h
  · refine ⟨sendsParts_call hparts fun already => ⟨rfl, ?_⟩, fun already _ => ?_⟩
    all_goals obtain _ | _ | _ := already
    · exact sendsParts_emit hparts rfl h.sends
    · exact sendsParts_emit hparts rfl h.sends
    · exact h.sends
    all_goals exact h.answers

theorem callsIn_warnFormatUnsupported {format : Option Format} {rest : SmsProg SendResult}
    (h : rest.CallsIn (IsTo fromNumber recipient)) :
    (warnFormatUnsupported format rest).CallsIn (IsTo fromNumber recipient) := by
  unfold warnFormatUnsupported
  split
  · exact h
  · exact h
  · refine ⟨trivial, fun already => ?_⟩
    obtain _ | _ | _ := already
    all_goals exact h

/-- The parts of a text are sent to its number in order, each once; the answer is `ok` under the id
of the last exactly when all are taken, which they are when the calls are granted, and otherwise
says after how many of them it came. -/
theorem sms_sends (hsegment : Partitions segment) (hne : out.text ≠ [])
    (hnumber : normalizeE164 lib (.string out.channel.id) b.defaultCountry = .ok recipient)
    (hsplit : splitForSMS segment out.text = .ok parts) :
    (sendMessage segment lib b fromNumber out).CallsIn (IsTo fromNumber recipient) ∧
      Delivers Granted posted List.getLast? parts (sendMessage segment lib b fromNumber out) ∧
      ∀ t r, Runs (sendMessage segment lib b fromNumber out) t (.ret r) → r.ok = false →
        ∃ code message,
          r = .failure code (js "partial send failed after " ++
            natText (t.filterMap posted).length ++ js "/" ++ natText parts.length ++ js ": " ++
            message) := by
  have hparts : parts ≠ [] ∧ parts.Nodup := by
    obtain rfl | ⟨bodies, hmany, _, rfl⟩ := smsPasses_parts hsegment hsplit
    · exact ⟨by simp, by simp⟩
    · refine ⟨List.length_pos_iff.1 ?_, nodup_numbered bodies⟩
      rw [length_numbered]
      omega
  obtain ⟨hparts, hnodup⟩ := hparts
  have hsend : sendMessage segment lib b fromNumber out =
      warnFormatUnsupported out.format (sendParts b fromNumber recipient parts) := by
    rw [sendMessage, if_neg hne, hnumber, hsplit]
  rw [hsend]
  refine ⟨callsIn_warnFormatUnsupported callsIn_sendParts,
    delivers_warnFormatUnsupported hparts (delivers_sendParts hparts), fun t r h hno => ?_⟩
  obtain ⟨t', hrest, heq⟩ := runs_warnFormatUnsupported h
  rw [heq]
  exact partialFailure_of_runs hnodup hparts hrest hno

/-- A number of California. -/
def californian : JsString := js "+14155550100"

/-- libphonenumber, which finds that number valid. -/
def readsCalifornian : Libraries := { refusing with
  parsePhoneNumber := fun input _ => match input with
    | .string number => .ok (if number = californian then some californian else none)
    | _ => .ok none }

/-- More than one segment takes. -/
def longText : OutboundMessage where
  channel := { id := californian, type := .dm }
  text := letters 1601

theorem length_of_mem_accented {text s : JsString} (hs : s ∈ accented text) : s.length ≤ 2 := by
  unfold accented at hs
  split at hs
  · next htext =>
    obtain rfl := List.mem_singleton.1 hs
    rw [htext]
    decide
  · obtain ⟨c, _, rfl⟩ := List.mem_map.1 hs
    exact Nat.succ_le_succ (Nat.zero_le 1)

/-- The segments of `longText`. -/
theorem splitForSMS_longText :
    ∃ parts, splitForSMS accented longText.text = .ok parts ∧ 1 < parts.length := by
  have hlength : longText.text.length = 1601 := length_letters 1601
  have hclusters : ∀ s ∈ accented longText.text, s.length ≤ 1600 - 20 := fun s hs =>
    Nat.le_trans (length_of_mem_accented hs) (by decide)
  obtain ⟨parts, hok, ⟨hfits, _⟩ | ⟨_, bodies, hmany, rfl, _⟩⟩ :=
    smsPasses_spec partitions_accented hclusters (by decide) (by rw [hlength]; decide) 7
      (show 1 ≤ 8 by decide) (by omega)
  · rw [hlength] at hfits
    exact absurd hfits (by decide)
  · refine ⟨_, hok, ?_⟩
    rwa [length_numbered]

/-- Twilio takes every part. -/
def granting : (c : SmsCall) → Except RestError c.Answer
  | .client | .warnedAboutFormat => .ok true
  | .twilioCreate _ => .ok (js "SM1")
  | .plivoCreate _ => .ok {}
  | .vonageSend _ => .ok none

theorem granted_granting (c : SmsCall) : Granted c (granting c) := by
  cases c with
  | client => exact rfl
  | warnedAboutFormat => trivial
  | twilioCreate => exact ⟨_, rfl⟩
  | plivoCreate => exact ⟨_, rfl⟩
  | vonageSend => exact ⟨_, rfl, rfl⟩

theorem sms_sends_longText : Partitions accented ∧ longText.text ≠ [] ∧
    normalizeE164 readsCalifornian (.string longText.channel.id) none = .ok californian ∧
    ∃ parts, splitForSMS accented longText.text = .ok parts ∧ 1 < parts.length ∧
      (sendMessage accented readsCalifornian twilioBackend californian longText).CallsIn
        (IsTo californian californian) ∧
      ∃ t r, Runs (sendMessage accented readsCalifornian twilioBackend californian longText) t
        (.ret r) ∧ r.ok = true ∧ (t.filterMap posted).map Prod.fst = parts := by
  have hne : longText.text ≠ [] := letters_ne_nil (by decide)
  have hnumber : normalizeE164 readsCalifornian (.string longText.channel.id) none =
      .ok californian := by
    have hread : normalizeE164 readsCalifornian (.string californian) none = .ok californian := rfl
    exact hread
  obtain ⟨parts, hsplit, hmany⟩ := splitForSMS_longText
  obtain ⟨hcalls, hdelivers, _⟩ := @sms_sends accented readsCalifornian twilioBackend californian
    californian longText parts partitions_accented hne hnumber hsplit
  exact ⟨partitions_accented, hne, hnumber, parts, hsplit, hmany, hcalls,
    hdelivers.exists_run granted_granting⟩

end TheokitGateways.Sms
