import TheokitGateways.Gateway.Outbound
import TheokitGateways.Js.JsonText
import TheokitGateways.NextcloudTalk.Webhook
import TheokitGateways.Splitters

/-!
# Nextcloud Talk: `sendMessage`

A part goes out as JSON under a signature over its own random and its text. Talk
checks it as the adapter checks a webhook's, reads the part from the JSON, and takes
the parts in order; a refusal in the middle says which part it was about
(`talk_sends`).
-/

namespace TheokitGateways.NextcloudTalk
open Js Gateway Async Prog

/-- What is posted to Talk, as far as Talk reads it. -/
structure TalkRequest where
  url : JsString
  /-- The two headers of the signature. -/
  random : JsString
  signature : JsString
  body : JsString

inductive TalkCall where
  | connected
  | warnedAboutHtml
  | fetch (request : TalkRequest)
  /-- `cancel` of the body of the answer. -/
  | cancel

/-- What a call answers: a request, the status. -/
abbrev TalkCall.Answer : TalkCall → Type
  | .connected | .warnedAboutHtml => Bool
  | .fetch _ => Nat
  | .cancel => Unit

-- A call rejects with the text of its error, and what is written is a line.
abbrev TalkEvent := Event TalkCall TalkCall.Answer JsString JsString

abbrev TalkProg (α : Type) := Prog TalkCall TalkCall.Answer JsString JsString α

/-- The bytes that each call of `randomBytes(32)` draws. -/
abbrev Draws := Nat → { bytes : List UInt8 // bytes.length = 32 }

/-- `replace(/\/+$/, "")`. -/
def stripSlashes (baseUrl : JsString) : JsString :=
  (baseUrl.reverse.dropWhile (· = unit '/')).reverse

def isRoomUnit (c : UInt16) : Bool :=
  (unit 'A' ≤ c && c ≤ unit 'Z') || (unit 'a' ≤ c && c ≤ unit 'z') || (unit '0' ≤ c && c ≤ unit '9')

/-- `ROOM_TOKEN.test(room)`. -/
def isRoomToken (room : JsString) : Bool := room ≠ [] && room.all isRoomUnit

def roomUrl (baseUrl room : JsString) : JsString :=
  stripSlashes baseUrl ++ js "/ocs/v2.php/apps/spreed/api/v1/bot/" ++ room ++ js "/message"

def sendError (status : Nat) : SendError :=
  if status = 401 then
    ⟨js "talk_unauthorized", js "Talk refused the bot's signature (401): check that secret " ++
      js "matches the installed bot"⟩
  else if status = 400 then
    ⟨js "talk_bad_request", js "Talk refused the message (400): the room may not exist or the " ++
      js "bot is not in it"⟩
  else ⟨js "talk_http_error", js "Talk answered HTTP " ++ natText status⟩

def emptyText : SendResult := .failure (js "empty_text") (js "outbound text is empty")

def invalidRoom (room : JsString) : SendResult :=
  .failure (js "invalid_room") (js "channel.id must be a Talk room token (letters and digits), " ++
    js "got " ++ Json.quoteString room)

def notConnected : SendResult :=
  .failure (js "not_connected") (js "NextcloudTalkAdapter.connect() has not succeeded")

def htmlLine : JsString :=
  js "[gateway-nextcloud-talk] format=\"html\" was declared and Talk has no html mode; sending " ++
    js "the text unchanged. Logged once.\n"

/-- The body of a request. -/
def messageBody (text referenceId : JsString) : Json :=
  .object [(js "message", .string text), (js "referenceId", .string referenceId)]

/-- The message that Talk reads from a body, and its reference. -/
def readMessage (body : JsString) : Option (JsString × JsString) :=
  match (jsonParse body).bind (·.get (js "message")),
    (jsonParse body).bind (·.get (js "referenceId")) with
  | some (.string text), some (.string referenceId) => some (text, referenceId)
  | _, _ => none

theorem readMessage_messageBody (text referenceId : JsString) :
    readMessage (messageBody text referenceId).stringify = some (text, referenceId) := by
  have hkeys : [js "message", js "referenceId"].Nodup := by decide
  have hwritable : (messageBody text referenceId).Writable := ⟨hkeys, trivial, trivial, trivial⟩
  rw [readMessage, jsonParse_stringify hwritable]
  rfl

/-- What a status answers for the message with a reference. -/
def resultOf (status : Nat) (referenceId : JsString) : SendResult :=
  if status = 201 then { ok := true, messageId := some referenceId }
  else { ok := false, error := some (sendError status) }

/-- A refusal among several parts says which one it is about. -/
def located (partCount index : Nat) (result : SendResult) : SendResult :=
  match result.error with
  | none => result
  | some error =>
    if partCount = 1 then result
    else .failure error.code (js "part " ++ natText (index + 1) ++ js " of " ++ natText partCount ++
      js ": " ++ error.message)

/-- What a part came to: how many parts are sent, and the reference of the first, or a refusal. -/
def counted (partCount : Nat) (sent : Nat × Option JsString) (result : SendResult) :
    Except SendResult (Nat × Option JsString) :=
  if result.ok then .ok (sent.1 + 1, sent.2.or result.messageId)
  else .error (located partCount sent.1 result)

section
-- The runtime's HMAC-SHA256 of bytes under a secret.
variable (hmacSha256 : JsString → List UInt8 → List UInt8) (secret baseUrl : JsString)
  (draws : Draws)

/-- The request for the part at a place: its random is drawn first, then its reference. -/
def requestFor (room text : JsString) (index : Nat) : TalkRequest :=
  let random := hexText (draws (2 * index)).1
  let referenceId := hexText (draws (2 * index + 1)).1
  { url := roomUrl baseUrl room
    random := random
    signature := talkSignature hmacSha256 secret random text
    body := (messageBody text referenceId).stringify }

def fetch (request : TalkRequest) : TalkProg (Except JsString Nat) :=
  settle (TalkCall.fetch request)

def cancelBody : TalkProg (Except JsString Unit) := settle TalkCall.cancel

/-- `post`. -/
def post (room text : JsString) (index : Nat) : TalkProg SendResult := do
  match ← fetch (requestFor hmacSha256 secret baseUrl draws room text index) with
  | .error message => return .failure (js "talk_http_error") message
  | .ok status =>
    let _ ← cancelBody
    return resultOf status (hexText (draws (2 * index + 1)).1)

/-- One pass of the loop. -/
def sendPart (room : JsString) (partCount : Nat) (sent : Nat × Option JsString) (part : JsString) :
    TalkProg (Except SendResult (Nat × Option JsString)) := do
  let result ← post hmacSha256 secret baseUrl draws room part sent.1
  return counted partCount sent result

/-- What the loop answers. -/
def answered : Except SendResult (Nat × Option JsString) → SendResult
  | .error refusal => refusal
  | .ok (_, first) => { ok := true, messageId := first }

def sendParts (room : JsString) (parts : List JsString) : TalkProg SendResult := do
  let sent ← inTurn (sendPart hmacSha256 secret baseUrl draws room parts.length) (0, none) parts
  return answered sent

/-- `sendParts(room, splitForTalk(text))`. -/
def sendText (room text : JsString) : TalkProg SendResult :=
  match splitForTalk text with
  | .ok parts => sendParts hmacSha256 secret baseUrl draws room parts
  | .error message => .throw message

/-- What `textFor` writes first. -/
def warned (out : OutboundMessage) (rest : TalkProg SendResult) : TalkProg SendResult :=
  if out.format = some .html then
    .call TalkCall.warnedAboutHtml fun
      | .ok true => rest
      | _ => .emit htmlLine rest
  else rest

def sendMessage (out : OutboundMessage) : TalkProg SendResult :=
  if out.text = [] then return emptyText
  else if !isRoomToken out.channel.id then return invalidRoom out.channel.id
  else .call TalkCall.connected fun
    | .ok true =>
      warned out (sendText hmacSha256 secret baseUrl draws out.channel.id out.text)
    | _ => .ret notConnected

/-- The part that Talk has taken with an event, and its reference: it answers 201, and has read both
from the body. -/
def posted : TalkEvent → Option (JsString × JsString)
  | .answered (.fetch request) (.ok status) =>
    if status = 201 then readMessage request.body else none
  | _ => none

/-- There is a connection, and Talk takes every part. -/
def Granted : (c : TalkCall) → Except JsString c.Answer → Prop
  | .connected, r => r = .ok true
  | .fetch _, r => r = .ok 201
  | .warnedAboutHtml, _ | .cancel, _ => True

/-- Talk finds the request to be of its bot: it is for the room, and carries the signature of its
text. -/
def Signed (toLowerCase : JsString → JsString) (room : JsString) (request : TalkRequest) : Prop :=
  request.url = roomUrl baseUrl room ∧ ∃ text referenceId,
    readMessage request.body = some (text, referenceId) ∧
      verifyTalkSignature hmacSha256 toLowerCase secret (some request.random) text
        (some request.signature) = true

end

variable {hmacSha256 : JsString → List UInt8 → List UInt8} {secret baseUrl : JsString}
  {draws : Draws} {room : JsString}

/-- The parts of a text are the text again, none is empty, and none has more code points than the
limit. -/
theorem talkParts_spec {limit : Nat} (hlimit : 0 < limit) (text : JsString) (place : Nat) :
    (talkParts limit hlimit (characters text) place).flatten =
        ((characters text).drop place).flatten ∧
      ∀ part ∈ talkParts limit hlimit (characters text) place,
        part ≠ [] ∧ (characters part).length ≤ limit := by
  fun_induction talkParts limit hlimit (characters text) place with
  | case1 place hmore ih =>
    obtain ⟨hflat, hparts⟩ := ih
    have hrest := (characters_of_split (List.take_append_drop place (characters text)).symm).2
    have hchunk := (characters_of_split (hrest.trans
      (List.take_append_drop limit ((characters text).drop place)).symm)).1
    constructor
    · rw [List.flatten_cons, hflat, ← List.flatten_append, ← List.drop_drop,
        List.take_append_drop]
    · refine List.forall_mem_cons.2 ⟨⟨fun hnil => ?_, ?_⟩, hparts⟩
      · rw [hnil] at hchunk
        have hlength := congrArg List.length hchunk
        rw [List.length_take, List.length_drop] at hlength
        simp only [characters, List.length_nil] at hlength
        omega
      · rw [hchunk]
        exact List.length_take_le ..
  | case2 place hdone =>
    rw [List.drop_eq_nil_of_le (by omega)]
    simp

/-- A text that is not empty takes a part. -/
theorem splitForTalk_spec {text : JsString} (hne : text ≠ []) :
    ∃ parts, splitForTalk text = .ok parts ∧ parts ≠ [] ∧ parts.flatten = text ∧
      ∀ part ∈ parts, part ≠ [] ∧ (characters part).length ≤ talkMaxLength := by
  have hlimit : 0 < talkMaxLength := by decide
  obtain ⟨hflat, hparts⟩ := talkParts_spec hlimit text 0
  rw [List.drop_zero, characters_flatten] at hflat
  refine ⟨_, dif_pos hlimit, ?_, hflat, hparts⟩
  intro hnil
  rw [hnil] at hflat
  exact hne hflat.symm

theorem hexText_ne_nil {bytes : List UInt8} (h : bytes ≠ []) : hexText bytes ≠ [] := by
  cases bytes with
  | nil => contradiction
  | cons b bytes => simp [hexText]

/-- What the adapter signs is what it accepts of Talk. -/
theorem signed_requestFor {toLowerCase : JsString → JsString}
    (hlower : ∀ bytes, toLowerCase (hexText bytes) = hexText bytes)
    (hdigest : ∀ key message, hmacSha256 key message ≠ []) (text : JsString) (index : Nat) :
    Signed hmacSha256 secret baseUrl toLowerCase room
      (requestFor hmacSha256 secret baseUrl draws room text index) := by
  refine ⟨rfl, text, _, readMessage_messageBody _ _, ?_⟩
  have hrandom : hexText (draws (2 * index)).1 ≠ [] := by
    refine hexText_ne_nil fun hnil => ?_
    have hlength := (draws (2 * index)).2
    rw [hnil] at hlength
    cases hlength
  have hsignature (random : JsString) : talkSignature hmacSha256 secret random text ≠ [] :=
    hexText_ne_nil (hdigest _ _)
  have hlowered (random : JsString) : toLowerCase (talkSignature hmacSha256 secret random text) =
      talkSignature hmacSha256 secret random text := hlower _
  unfold verifyTalkSignature requestFor
  dsimp only
  rw [if_neg (not_or.2 ⟨hrandom, hsignature _⟩), hlowered, decide_eq_true rfl]

/-- What is noted of a part that Talk took. -/
def note (sent : Nat × Option JsString) (referenceId : JsString) : Nat × Option JsString :=
  (sent.1 + 1, sent.2.or (some referenceId))

theorem foldl_note (ids : List JsString) (sent : Nat × Option JsString) :
    ids.foldl note sent = (sent.1 + ids.length, sent.2.or ids.head?) := by
  induction ids generalizing sent with
  | nil => simp
  | cons id ids ih =>
    rw [List.foldl_cons, ih, note, List.length_cons, List.head?_cons]
    refine Prod.ext ?_ ?_
    · show sent.1 + 1 + ids.length = sent.1 + (ids.length + 1)
      omega
    · cases sent.2 <;> rfl

theorem takes_sendPart (partCount : Nat) (sent : Nat × Option JsString) (part : JsString) :
    Takes posted note sent part (fun refusal => ∃ error,
        refusal = located partCount sent.1 { ok := false, error := some error })
      (sendPart hmacSha256 secret baseUrl draws room partCount sent part) := by
  intro r
  cases r with
  | error message => exact .inl ⟨rfl, ⟨js "talk_http_error", message⟩, rfl⟩
  | ok status =>
    by_cases hcreated : status = 201
    · have htaken : posted (.answered (.fetch (requestFor hmacSha256 secret baseUrl draws room part
          sent.1)) (.ok status)) = some (part, hexText (draws (2 * sent.1 + 1)).1) := by
        rw [posted, if_pos hcreated]
        exact readMessage_messageBody _ _
      refine .inr ⟨_, htaken, fun r => ⟨rfl, ?_⟩⟩
      show TakenAs posted note sent _ (Prog.ret (counted partCount sent (resultOf status _)))
      rw [resultOf, if_pos hcreated]
      exact rfl
    · have htaken : posted (.answered (.fetch (requestFor hmacSha256 secret baseUrl draws room part
          sent.1)) (.ok status)) = none := by
        rw [posted, if_neg hcreated]
      refine .inl ⟨htaken, fun r => .inl ⟨rfl, ?_⟩⟩
      show Takes posted note sent part _ (Prog.ret (counted partCount sent (resultOf status _)))
      rw [resultOf, if_neg hcreated]
      exact ⟨sendError status, rfl⟩

theorem answered_foldl (ids : List JsString) :
    answered (.ok (ids.foldl note (0, none))) = { ok := true, messageId := ids.head? } := by
  rw [foldl_note, answered, Option.none_or]

theorem not_ok_located {partCount index : Nat} {error : SendError} :
    (located partCount index { ok := false, error := some error }).ok = false := by
  rw [located]
  dsimp only
  split <;> rfl

theorem sendsParts_sendParts {parts : List JsString} :
    SendsParts posted List.head? parts (sendParts hmacSha256 secret baseUrl draws room parts) := by
  have hrefused (sent : Nat × Option JsString) (_ : JsString) (r : SendResult)
      (hr : ∃ error, r = located parts.length sent.1 { ok := false, error := some error }) :
      (answered (.error r)).ok = false := by
    obtain ⟨error, rfl⟩ := hr
    exact not_ok_located
  refine sendsParts_inTurn (takes_sendPart parts.length) hrefused fun ids _ => ?_
  rw [answered_foldl]
  exact ⟨rfl, rfl⟩

theorem returnsUnder_sendPart (partCount : Nat) (sent : Nat × Option JsString) (part : JsString) :
    (sendPart hmacSha256 secret baseUrl draws room partCount sent part).ReturnsUnder Granted
      fun r => ∃ sent', r = .ok sent' := by
  rintro _ rfl _ _
  exact ⟨_, rfl⟩

/-- A refusal after parts that were taken says which part it is about. -/
theorem located_of_runs {parts : List JsString} {t : List TalkEvent} {r : SendResult}
    (hrun : Runs (sendParts hmacSha256 secret baseUrl draws room parts) t (.ret r))
    (hno : r.ok = false) (htaken : t.filterMap posted ≠ []) : ∃ code message,
      r = .failure code (js "part " ++ natText ((t.filterMap posted).length + 1) ++ js " of " ++
        natText parts.length ++ js ": " ++ message) := by
  have hdone (sent : Nat × Option JsString) : (answered (.ok sent)).ok = true := rfl
  obtain ⟨refusal, part, rest, rfl, hparts, error, rfl⟩ :=
    refusal_inTurn (takes_sendPart parts.length) hdone hrun hno
  have hlength := congrArg List.length hparts
  have hpos := List.length_pos_iff.2 htaken
  rw [List.length_append, List.length_map, List.length_cons] at hlength
  refine ⟨error.code, error.message, ?_⟩
  show located _ _ _ = _
  rw [located, foldl_note]
  dsimp only
  rw [if_neg (by omega), Nat.zero_add, List.length_map]

variable {out : OutboundMessage}

theorem sendText_eq {text : JsString} {parts : List JsString} (h : splitForTalk text = .ok parts) :
    sendText hmacSha256 secret baseUrl draws room text =
      sendParts hmacSha256 secret baseUrl draws room parts := by
  rw [sendText, h]

theorem sendsParts_warned {parts : List JsString} (hparts : parts ≠ []) {rest : TalkProg SendResult}
    (h : SendsParts posted List.head? parts rest) :
    SendsParts posted List.head? parts (warned out rest) := by
  unfold warned
  split
  · refine sendsParts_call hparts fun r => ⟨rfl, ?_⟩
    obtain _ | _ | _ := r
    · exact sendsParts_emit hparts rfl h
    · exact sendsParts_emit hparts rfl h
    · exact h
  · exact h

theorem returnsUnder_warned {rest : TalkProg SendResult}
    (h : rest.ReturnsUnder Granted (·.ok = true)) :
    (warned out rest).ReturnsUnder Granted (·.ok = true) := by
  unfold warned
  split
  · intro already _
    obtain _ | _ | _ := already
    all_goals exact h
  · exact h

/-- A run of what follows a warning, which takes no part. -/
theorem runs_warned {rest : TalkProg SendResult} {t : List TalkEvent} {r : SendResult}
    (h : Runs (warned out rest) t (.ret r)) :
    ∃ t', Runs rest t' (.ret r) ∧ t.filterMap posted = t'.filterMap posted := by
  unfold warned at h
  split at h
  · obtain ⟨_, heq⟩ | ⟨already, t₁, rfl, hrest⟩ := runs_call.1 h
    · cases heq
    · have hemitted (t₂ : List TalkEvent) (hemit : Runs (.emit htmlLine rest) t₂ (.ret r)) :
          ∃ t', Runs rest t' (.ret r) ∧ t₂.filterMap posted = t'.filterMap posted := by
        obtain ⟨_, heq⟩ | ⟨t₃, rfl, hlast⟩ := runs_emit.1 hemit
        · cases heq
        · exact ⟨t₃, hlast, rfl⟩
      obtain _ | _ | _ := already
      · exact hemitted t₁ hrest
      · exact hemitted t₁ hrest
      · exact ⟨t₁, hrest, rfl⟩
  · exact ⟨t, h, rfl⟩

/-- Every request is signed. -/
def AllSigned (hmacSha256 : JsString → List UInt8 → List UInt8) (secret baseUrl : JsString)
    (toLowerCase : JsString → JsString) (room : JsString) : TalkCall → Prop
  | .fetch request => Signed hmacSha256 secret baseUrl toLowerCase room request
  | .connected | .warnedAboutHtml | .cancel => True

theorem callsIn_sendMessage {toLowerCase : JsString → JsString}
    (hlower : ∀ bytes, toLowerCase (hexText bytes) = hexText bytes)
    (hdigest : ∀ key message, hmacSha256 key message ≠ []) (out : OutboundMessage) :
    (sendMessage hmacSha256 secret baseUrl draws out).CallsIn
      (AllSigned hmacSha256 secret baseUrl toLowerCase out.channel.id) := by
  have hpart (partCount : Nat) (sent : Nat × Option JsString) (part : JsString) :
      (sendPart hmacSha256 secret baseUrl draws out.channel.id partCount sent part).CallsIn
        (AllSigned hmacSha256 secret baseUrl toLowerCase out.channel.id) := by
    refine ⟨signed_requestFor hlower hdigest part sent.1, fun r => ?_⟩
    cases r with
    | error message => trivial
    | ok status => exact ⟨trivial, fun _ => trivial⟩
  have htext : (sendText hmacSha256 secret baseUrl draws out.channel.id out.text).CallsIn
      (AllSigned hmacSha256 secret baseUrl toLowerCase out.channel.id) := by
    unfold sendText
    split
    · exact (callsIn_inTurn (hpart _) _ _).bind fun _ => trivial
    · trivial
  unfold sendMessage
  split
  · trivial
  · split
    · trivial
    · refine ⟨trivial, fun connected => ?_⟩
      obtain _ | _ | _ := connected
      · trivial
      · trivial
      · show (warned out _).CallsIn _
        unfold warned
        split
        · refine ⟨trivial, fun already => ?_⟩
          obtain _ | _ | _ := already
          all_goals exact htext
        · exact htext

/-- The parts of a text are the text again, of 32000 code points at most. A send posts them to its
room in order, each once, under a signature that the adapter's own check accepts for what Talk reads
in the body; it answers `ok` under the first reference exactly when all are posted, posts them all
when it is granted its calls, and a refusal after some says which part it is about. -/
theorem talk_sends {toLowerCase : JsString → JsString}
    (hlower : ∀ bytes, toLowerCase (hexText bytes) = hexText bytes)
    (hdigest : ∀ key message, hmacSha256 key message ≠ []) (hne : out.text ≠ [])
    (hroom : isRoomToken out.channel.id = true) : ∃ parts, splitForTalk out.text = .ok parts ∧
      (parts.flatten = out.text ∧
        ∀ part ∈ parts, part ≠ [] ∧ (characters part).length ≤ talkMaxLength) ∧
      (sendMessage hmacSha256 secret baseUrl draws out).CallsIn
        (AllSigned hmacSha256 secret baseUrl toLowerCase out.channel.id) ∧
      Delivers Granted posted List.head? parts (sendMessage hmacSha256 secret baseUrl draws out) ∧
      ∀ t r, Runs (sendMessage hmacSha256 secret baseUrl draws out) t (.ret r) → r.ok = false →
        t.filterMap posted ≠ [] → ∃ code message,
          r = .failure code (js "part " ++ natText ((t.filterMap posted).length + 1) ++ js " of " ++
            natText parts.length ++ js ": " ++ message) := by
  obtain ⟨parts, hsplit, hparts, hflat, hfits⟩ := splitForTalk_spec hne
  have hrooms : ¬(!isRoomToken out.channel.id) = true := by simp [hroom]
  refine ⟨parts, hsplit, ⟨hflat, hfits⟩, callsIn_sendMessage hlower hdigest out, ⟨?_, ?_⟩, ?_⟩
  · rw [sendMessage, if_neg hne, if_neg hrooms, sendText_eq hsplit]
    refine sendsParts_call hparts fun connected => ⟨rfl, ?_⟩
    obtain _ | _ | _ := connected
    · exact sendsParts_refusal hparts rfl
    · exact sendsParts_refusal hparts rfl
    · exact sendsParts_warned hparts sendsParts_sendParts
  · rw [sendMessage, if_neg hne, if_neg hrooms, sendText_eq hsplit]
    rintro _ rfl
    exact returnsUnder_warned
      (returnsUnder_finish (returnsUnder_sendPart parts.length) (fun _ => rfl) _ parts)
  · intro t r hrun hno htaken
    rw [sendMessage, if_neg hne, if_neg hrooms, sendText_eq hsplit] at hrun
    obtain ⟨_, heq⟩ | ⟨connected, t', rfl, hrest⟩ := runs_call.1 hrun
    · cases heq
    · obtain _ | _ | _ := connected
      · obtain ⟨rfl, _⟩ := runs_ret.1 hrest
        exact (htaken rfl).elim
      · obtain ⟨rfl, _⟩ := runs_ret.1 hrest
        exact (htaken rfl).elim
      · obtain ⟨t'', hsent, heq⟩ := runs_warned hrest
        have hposted :
            (Event.answered TalkCall.connected (.ok true) :: t' : List TalkEvent).filterMap posted =
              t''.filterMap posted := heq
        rw [hposted] at htaken ⊢
        exact located_of_runs hsent hno htaken

/-- More than one message takes. -/
def longText : OutboundMessage where
  channel := { id := js "abc123", type := .group }
  text := letters 32001

/-- Each draw is its place, 32 times. -/
def placeDraws : Draws := fun n => ⟨List.replicate 32 (UInt8.ofNat n), List.length_replicate⟩

/-- The HMAC-SHA256 under `leaveSecret` of what `longText` is signed with, the random of a part and
the part: 32000 letters, and one. -/
def longTextDigest (_ : JsString) (message : List UInt8) : List UInt8 :=
  if message.length = 65 then
    [0x38, 0x60, 0x3a, 0x3f, 0x01, 0xff, 0xdf, 0xe1, 0x9b, 0x7d, 0xe4, 0xea, 0xf5, 0xa6, 0x4c, 0x24,
      0x32, 0x48, 0x28, 0x44, 0xa5, 0x09, 0x15, 0x4b, 0xb7, 0xd9, 0x50, 0x6c, 0xb3, 0x66,
      0xb1, 0xae]
  else
    [0xc6, 0x17, 0x16, 0x4c, 0x8b, 0xff, 0x15, 0xdc, 0xad, 0x3c, 0x5d, 0x05, 0xbe, 0xd8, 0xdc, 0xec,
      0x4c, 0x6b, 0xc5, 0x9f, 0xd0, 0x1e, 0xe2, 0x7f, 0x16, 0x64, 0x96, 0x22, 0x39, 0x74,
      0xbd, 0xf7]

theorem longTextDigest_ne_nil (key : JsString) (message : List UInt8) :
    longTextDigest key message ≠ [] := by
  unfold longTextDigest
  split <;> exact List.cons_ne_nil _ _

theorem asciiLower_hexText (bytes : List UInt8) :
    (hexText bytes).map asciiLower = hexText bytes := by
  have hdigit (n : Nat) (hn : n < 16) : asciiLower (hexDigitUnit n) = hexDigitUnit n := by
    revert n
    decide
  induction bytes with
  | nil => rfl
  | cons b bytes ih =>
    have hb := b.toNat_lt
    have hstep : hexText (b :: bytes) =
        hexDigitUnit (b.toNat / 16) :: hexDigitUnit (b.toNat % 16) :: hexText bytes := rfl
    rw [hstep, List.map_cons, List.map_cons, ih, hdigit _ (by omega), hdigit _ (by omega)]

theorem length_characters_letters (n : Nat) : (characters (letters n)).length = n := by
  have hletter : isHighSurrogate (unit 'a') = false := by decide
  have hcons (m : Nat) : letters (m + 1) = unit 'a' :: letters m := by
    rw [letters, letters, List.replicate_succ]
  have hnil : letters 0 = [] := by rw [letters, List.replicate_zero]
  induction n with
  | zero =>
    rw [hnil]
    rfl
  | succ n ih =>
    cases n with
    | zero =>
      rw [hcons, hnil]
      rfl
    | succ n =>
      rw [hcons, hcons, characters, hletter, Bool.false_and, if_neg Bool.false_ne_true,
        List.length_cons, ← hcons, ih]

/-- Talk takes every part. -/
def granting : (c : TalkCall) → Except JsString c.Answer
  | .connected | .warnedAboutHtml => .ok true
  | .fetch _ => .ok 201
  | .cancel => .ok ()

theorem granted_granting (c : TalkCall) : Granted c (granting c) := by
  cases c with
  | connected => exact rfl
  | warnedAboutHtml => trivial
  | fetch => exact rfl
  | cancel => trivial

theorem talk_sends_longText :
    (∀ bytes, (hexText bytes).map asciiLower = hexText bytes) ∧
      (∀ key message, longTextDigest key message ≠ []) ∧ longText.text ≠ [] ∧
      isRoomToken longText.channel.id = true ∧ ∃ parts, splitForTalk longText.text = .ok parts ∧
      1 < parts.length ∧ parts.flatten = longText.text ∧
      (sendMessage longTextDigest leaveSecret (js "https://x.org") placeDraws longText).CallsIn
        (AllSigned longTextDigest leaveSecret (js "https://x.org") (·.map asciiLower)
          longText.channel.id) ∧
      ∃ t r,
        Runs (sendMessage longTextDigest leaveSecret (js "https://x.org") placeDraws longText) t
          (.ret r) ∧ r.ok = true ∧ (t.filterMap posted).map Prod.fst = parts := by
  have hne : longText.text ≠ [] := letters_ne_nil (by decide)
  obtain ⟨parts, hsplit, ⟨hflat, hfits⟩, hsigned, hdelivers, _⟩ :=
    talk_sends asciiLower_hexText longTextDigest_ne_nil hne (by decide)
  refine ⟨asciiLower_hexText, longTextDigest_ne_nil, hne, by decide, parts, hsplit, ?_, hflat,
    hsigned, hdelivers.exists_run granted_granting⟩
  obtain _ | ⟨part, _ | ⟨other, rest⟩⟩ := parts
  · exact (hne hflat.symm).elim
  · have hpart := (hfits part List.mem_cons_self).2
    rw [List.flatten_singleton] at hflat
    rw [hflat, longText, length_characters_letters] at hpart
    exact absurd hpart (by decide)
  · simp

end TheokitGateways.NextcloudTalk
