import TheokitGateways.Gateway.Outbound
import TheokitGateways.Js.NumberText
import TheokitGateways.Telegram.Balanced
import TheokitGateways.Telegram.Paths

/-!
# Telegram: `sendMessage` and `editMessage`

The adapter holds ids as texts and Telegram as numbers. A send answers under the
text of the last message's id, an edit under it is of that message
(`telegram_sends_and_edits`), and what is sent to the channel of an event goes to
the chat and the topic the event came from (`telegram_replies_in_place`).
-/

namespace TheokitGateways.Telegram
open Js Gateway Async Prog

/-- What a call of the API rejects with. -/
inductive TelegramError where
  | grammy (errorCode : Nat) (description : JsString)
  | http (message : JsString)
  | other (message : JsString)

/-- What `description.toLowerCase().includes` tells of an English phrase. -/
def mentions (phrase description : JsString) : Bool :=
  includes phrase (description.map asciiLower)

def mapSendError : TelegramError → SendResult
  | .grammy errorCode description =>
    if mentions (js "rate limit") description ∨ errorCode = 429 then
      .failure (js "rate_limited") description
    else if mentions (js "forbidden") description ∨ errorCode = 403 then
      .failure (js "no_permission") description
    else if mentions (js "parse") description then .failure (js "markdown_error") description
    else .failure (js "telegram_" ++ natText errorCode) description
  | .http message => .failure (js "network_error") message
  | .other message => .failure (js "unknown") message

/-- Telegram refuses an edit because the message already shows its text. -/
def isNotModified : TelegramError → Bool
  | .grammy _ description => mentions (js "message is not modified") description
  | .http _ | .other _ => false

inductive ParseMode where
  | markdown | html
  deriving DecidableEq

def mapFormat : Option Format → Option ParseMode
  | some .markdown => some .markdown
  | some .html => some .html
  | some .plain | none => none

structure SendMessage where
  chatId : JsNumber
  text : JsString
  parseMode : Option ParseMode
  messageThreadId : Option JsNumber
  /-- The `message_id` of the reply parameters. -/
  replyTo : Option JsNumber

structure EditMessageText where
  chatId : JsNumber
  messageId : JsNumber
  text : JsString
  parseMode : Option ParseMode

inductive TelegramCall where
  | sendMessage (args : SendMessage)
  | editMessageText (args : EditMessageText)
  | sendChatAction (chatId : JsNumber) (action : JsString)

/-- What a call answers: a message that was sent, its id. -/
abbrev TelegramCall.Answer : TelegramCall → Type
  | .sendMessage _ => JsNumber
  | .editMessageText _ | .sendChatAction .. => Unit

abbrev TelegramEvent := Event TelegramCall TelegramCall.Answer TelegramError Empty

abbrev TelegramProg (α : Type) := Prog TelegramCall TelegramCall.Answer TelegramError Empty α

/-- Digits only, then a safe positive integer. -/
def parseMessageId (messageId : JsString) : Option JsNumber :=
  if messageId ≠ [] ∧ messageId.all JsonParser.isDigit = true then
    let id := stringToNumber messageId
    if id.isSafeInteger = true ∧ JsNumber.lt 0 id = true then some id else none
  else none

def editPartsRefusal (partCount : Nat) : SendResult :=
  partsRefusal (js "Telegram messages") partCount

def emptyText : SendResult := .failure (js "empty_text") (js "text is empty")

def invalidChannel (out : OutboundMessage) : SendResult :=
  .failure (js "invalid_channel") (js "channel.id \"" ++ out.channel.id ++ js "\" not numeric")

def sendTo (args : SendMessage) : TelegramProg (Except TelegramError JsNumber) :=
  settle (TelegramCall.sendMessage args)

def editText (args : EditMessageText) : TelegramProg (Except TelegramError Unit) :=
  settle (TelegramCall.editMessageText args)

def messageOf (out : OutboundMessage) (chunk : JsString) : SendMessage where
  chatId := stringToNumber out.channel.id
  text := chunk
  parseMode := mapFormat out.format
  messageThreadId := out.channel.topicId.map stringToNumber
  replyTo := out.replyTo.map stringToNumber

/-- One pass of the loop. -/
def post (out : OutboundMessage) (_ : Option JsString) (chunk : JsString) :
    TelegramProg (Except SendResult (Option JsString)) := do
  match ← sendTo (messageOf out chunk) with
  | .ok id => return .ok (some id.toStr)
  | .error err => return .error (mapSendError err)

def sendMessage (out : OutboundMessage) : TelegramProg SendResult :=
  if out.text = [] then return emptyText
  else if stringToNumber out.channel.id = .nan then return invalidChannel out
  else do
    let sent ← inTurn (post out) none (splitForTelegram out.text)
    return answerOf sent

/-- `editMessage` once the text is split. -/
def editOne (messageId : JsString) (id : JsNumber) (out : OutboundMessage) :
    List JsString → TelegramProg SendResult
  | [part] => do
    match ← editText ⟨stringToNumber out.channel.id, id, part, mapFormat out.format⟩ with
    | .ok () => return { ok := true, messageId := some messageId }
    | .error err =>
      if isNotModified err then return { ok := true, messageId := some messageId }
      else return mapSendError err
  | parts => return editPartsRefusal parts.length

def editMessage (messageId : JsString) (out : OutboundMessage) : TelegramProg SendResult :=
  if out.text = [] then return emptyText
  else
    match parseMessageId messageId with
    | none =>
      return .failure (js "invalid_message_id")
        (js "message id \"" ++ messageId ++ js "\" is not a positive integer")
    | some id =>
      if stringToNumber out.channel.id = .nan then return invalidChannel out
      else editOne messageId id out (splitForTelegram out.text)

def startTyping (channelId : JsString) : TelegramProg Unit :=
  if stringToNumber channelId = .nan then return ()
  else .call (TelegramCall.sendChatAction (stringToNumber channelId) (js "typing")) fun _ => .ret ()

/-- The part that Telegram has taken with an event, and the id of its message. -/
def posted : TelegramEvent → Option (JsString × JsNumber)
  | .answered (.sendMessage args) (.ok id) => some (args.text, id)
  | _ => none

/-- The part that the message shows after an event: Telegram has put it there, or says it was. -/
def shown (id : JsNumber) (out : OutboundMessage) : TelegramEvent → Option (JsString × Unit)
  | .answered (.editMessageText args) r =>
    let done : Bool := match r with
      | .ok () => true
      | .error err => isNotModified err
    if args.chatId = stringToNumber out.channel.id ∧ args.messageId = id ∧ done = true then
      some (args.text, ())
    else none
  | _ => none

/-- Telegram does what a call asks for, or says that the message already shows its text. -/
def Granted : (c : TelegramCall) → Except TelegramError c.Answer → Prop
  | .sendMessage _, r => ∃ id, r = .ok id
  | .editMessageText _, r => r = .ok () ∨ ∃ err, r = .error err ∧ isNotModified err = true
  | .sendChatAction .., _ => True

/-- An id is read as the number its digits say, and no other text is an id. -/
theorem parseMessageId_eq_some_iff {messageId : JsString} {id : JsNumber} :
    parseMessageId messageId = some id ↔ (messageId ≠ [] ∧ JsonParser.AreDigits messageId) ∧
      (0 < JsonParser.digitsValue messageId ∧
        JsonParser.digitsValue messageId < 9007199254740992) ∧
      id = .finite (JsonParser.digitsValue messageId) := by
  unfold parseMessageId
  by_cases hdigits : messageId ≠ [] ∧ messageId.all JsonParser.isDigit = true
  · have hall : JsonParser.AreDigits messageId := List.all_eq_true.1 hdigits.2
    have hread := JsonParser.stringToNumber_digits hall hdigits.1
    have hsafe := @JsNumber.safe_round_iff (JsonParser.digitsValue messageId)
    rw [if_pos hdigits, hread]
    dsimp only
    by_cases hvalue : 0 < JsonParser.digitsValue messageId ∧
        JsonParser.digitsValue messageId < 9007199254740992
    · rw [if_pos (hsafe.2 hvalue), JsNumber.round_natCast hvalue.2]
      constructor
      · intro h
        cases h
        exact ⟨⟨hdigits.1, hall⟩, hvalue, rfl⟩
      · rintro ⟨_, _, rfl⟩
        rfl
    · rw [if_neg fun h => hvalue (hsafe.1 h)]
      exact ⟨fun h => (nomatch h), fun h => (hvalue h.2.1).elim⟩
  · rw [if_neg hdigits]
    exact ⟨fun h => (nomatch h), fun h => (hdigits ⟨h.1.1, List.all_eq_true.2 h.1.2⟩).elim⟩

/-- The text of an id is read as the id. -/
theorem parseMessageId_toStr {n : Nat} (hpos : 0 < n) (hn : n < 9007199254740992) :
    parseMessageId (JsNumber.finite n).toStr = some (.finite n) := by
  obtain ⟨hdigits, hne⟩ := JsNumber.areDigits_toStr hpos hn
  have hround := JsNumber.round_natCast hn
  have hread : stringToNumber (JsNumber.finite n).toStr = .finite n :=
    JsonParser.stringToNumber_toStr hround
  have hsafe := JsNumber.safe_round_iff.2 ⟨hpos, hn⟩
  rw [hround] at hsafe
  unfold parseMessageId
  rw [if_pos ⟨hne, List.all_eq_true.2 hdigits⟩, hread]
  exact if_pos hsafe

theorem not_ok_mapSendError (err : TelegramError) : (mapSendError err).ok = false := by
  unfold mapSendError
  split
  · split
    · rfl
    · split
      · rfl
      · split <;> rfl
  · rfl
  · rfl

theorem takes_post (out : OutboundMessage) (a : Option JsString) (chunk : JsString) :
    Takes posted (fun _ id => some id.toStr) a chunk (·.ok = false) (post out a chunk) := by
  intro r
  cases r with
  | error err => exact .inl ⟨rfl, not_ok_mapSendError err⟩
  | ok id => exact .inr ⟨id, rfl, rfl⟩

/-- The requests of a send are for its chat and its topic, with its markup, and answer the same
message. -/
def IsOf (out : OutboundMessage) : TelegramCall → Prop
  | .sendMessage args => args = messageOf out args.text
  | .editMessageText _ | .sendChatAction .. => False

theorem callsIn_sendMessage (out : OutboundMessage) : (sendMessage out).CallsIn (IsOf out) := by
  have hpost (a : Option JsString) (chunk : JsString) : (post out a chunk).CallsIn (IsOf out) := by
    refine ⟨rfl, fun r => ?_⟩
    cases r <;> trivial
  unfold sendMessage
  split
  · trivial
  · split
    · trivial
    · exact (callsIn_inTurn hpost none _).bind fun _ => trivial

variable {out : OutboundMessage}

theorem splitForTelegram_ne_nil {text : JsString} (hne : text ≠ []) :
    splitForTelegram text ≠ [] := by
  intro hnil
  obtain ⟨stripped, _, _, hflat⟩ := (splitForTelegram_parts hne).2
  rw [hnil] at hflat
  exact hne (by simpa using hflat)

/-- A send answers under the text of the last id. -/
def lastIdText (ids : List JsNumber) : Option JsString := ids.getLast?.map JsNumber.toStr

theorem sendsParts_sendMessage (hne : out.text ≠ [])
    (hchat : stringToNumber out.channel.id ≠ .nan) :
    SendsParts posted lastIdText (splitForTelegram out.text) (sendMessage out) := by
  rw [sendMessage, if_neg hne, if_neg hchat]
  exact sendsParts_lastText JsNumber.toStr (takes_post out) _

/-- A send to a chat posts all parts when it is granted its calls. -/
theorem delivers_sendMessage (hne : out.text ≠ []) (hchat : stringToNumber out.channel.id ≠ .nan) :
    Delivers Granted posted lastIdText (splitForTelegram out.text) (sendMessage out) := by
  refine ⟨sendsParts_sendMessage hne hchat, ?_⟩
  have hpost (a : Option JsString) (chunk : JsString) :
      (post out a chunk).ReturnsUnder Granted fun r => ∃ a', r = .ok a' := by
    rintro _ ⟨id, rfl⟩
    exact ⟨some id.toStr, rfl⟩
  rw [sendMessage, if_neg hne, if_neg hchat]
  exact returnsUnder_finish hpost (fun _ => rfl) none _

/-- An edit that matches on the parts. -/
theorem editMessage_eq {messageId : JsString} {id : JsNumber}
    (hid : parseMessageId messageId = some id) (hne : out.text ≠ [])
    (hchat : stringToNumber out.channel.id ≠ .nan) :
    editMessage messageId out = editOne messageId id out (splitForTelegram out.text) := by
  rw [editMessage, if_neg hne, hid]
  exact if_neg hchat

theorem editsAs_editMessage {messageId : JsString} {id : JsNumber}
    (hid : parseMessageId messageId = some id) (hne : out.text ≠ [])
    (hchat : stringToNumber out.channel.id ≠ .nan) :
    EditsAs Granted (shown id out) messageId (splitForTelegram out.text) (fun _ => False)
      (editMessage messageId out) := by
  have hone (part : JsString) :
      Delivers Granted (shown id out) (fun _ => some messageId) [part]
        (editOne messageId id out [part]) := by
    refine ⟨sendsParts_once fun r => ?_, ?_⟩
    · cases r with
      | ok => exact ⟨_, rfl, .inr ⟨(), if_pos ⟨rfl, rfl, rfl⟩, rfl, rfl⟩⟩
      | error err =>
        by_cases hsame : isNotModified err = true
        · refine ⟨_, if_pos hsame, .inr ⟨(), if_pos ⟨rfl, rfl, hsame⟩, rfl, rfl⟩⟩
        · exact ⟨_, if_neg hsame, .inl ⟨if_neg fun h => hsame h.2.2, not_ok_mapSendError err⟩⟩
    · rintro _ (rfl | ⟨err, rfl, hsame⟩)
      · exact rfl
      · show (if isNotModified err = true then _ else _ : TelegramProg SendResult).ReturnsUnder
          Granted (·.ok = true)
        rw [if_pos hsame]
        exact rfl
  rw [editMessage_eq hid hne hchat]
  exact editsAs_of_bodies (editOne messageId id out) (splitForTelegram_ne_nil hne) hone
    fun _ _ _ => ⟨trivial, not_ok_partsRefusal _ _⟩

theorem refuses_editMessage {messageId : JsString} (hid : parseMessageId messageId = none)
    (out : OutboundMessage) : OnlyRefuses (fun _ => False) (editMessage messageId out) := by
  rw [editMessage, hid]
  split <;> exact ⟨trivial, rfl⟩

/-- The parts of a text that is not empty fit and are the text again but for newlines at the cuts. A
send to a chat posts them in order, each once, in its topic and with its markup, answers `ok` under
the text of the last id exactly when all are posted, and posts them all when it is granted its
calls; an edit shows the only one in the place of the message its id names, or makes no request, and
it makes none under a text that is no id. -/
theorem telegram_sends_and_edits (out : OutboundMessage) (hne : out.text ≠ [])
    (hchat : stringToNumber out.channel.id ≠ .nan) :
    ((∀ part ∈ splitForTelegram out.text, part ≠ [] ∧ part.length ≤ 4096) ∧
        SplitsAtNewlines out.text (splitForTelegram out.text)) ∧
      ((sendMessage out).CallsIn (IsOf out) ∧
        Delivers Granted posted lastIdText (splitForTelegram out.text) (sendMessage out)) ∧
      ∀ messageId,
        (∀ id, parseMessageId messageId = some id →
          EditsAs Granted (shown id out) messageId (splitForTelegram out.text) (fun _ => False)
            (editMessage messageId out)) ∧
        (parseMessageId messageId = none →
          OnlyRefuses (fun _ => False) (editMessage messageId out)) :=
  ⟨splitForTelegram_parts hne, ⟨callsIn_sendMessage out, delivers_sendMessage hne hchat⟩,
    fun _ => ⟨fun _ hid => editsAs_editMessage hid hne hchat, fun hid =>
      refuses_editMessage hid out⟩⟩

/-- More than one message takes. -/
def longText : OutboundMessage where
  channel := { id := js "42", type := .dm }
  text := letters 4097

theorem longText_ne_nil : longText.text ≠ [] := letters_ne_nil (by decide)

theorem number_longText : stringToNumber longText.channel.id ≠ .nan := by decide +kernel

/-- Several parts of a text of letters. -/
theorem one_lt_length_letters {n : Nat} (hn : 4096 < n) :
    1 < (splitForTelegram (letters n)).length := by
  obtain ⟨hfits, hsplits⟩ := splitForTelegram_parts
    (letters_ne_nil (Nat.lt_of_le_of_lt (by decide) hn))
  refine hsplits.splitsAtSpace.one_lt_length (fun part hpart => (hfits part hpart).2) ?_
  rwa [countP_letters]

/-- Telegram with an id for every text. -/
def granting : (c : TelegramCall) → Except TelegramError c.Answer
  | .sendMessage args => .ok (.finite ((args.text.length + 1 : Nat) : Rat))
  | .editMessageText _ => .ok ()
  | .sendChatAction .. => .ok ()

theorem granted_granting (c : TelegramCall) : Granted c (granting c) := by
  cases c with
  | sendMessage => exact ⟨_, rfl⟩
  | editMessageText => exact .inl rfl
  | sendChatAction => trivial

theorem telegram_sends_and_edits_longText : longText.text ≠ [] ∧
    stringToNumber longText.channel.id ≠ .nan ∧
      1 < (splitForTelegram longText.text).length ∧
      (∃ t r, Runs (sendMessage longText) t (.ret r) ∧ r.ok = true ∧
        (t.filterMap posted).map Prod.fst = splitForTelegram longText.text) ∧
      OnlyRefuses (fun _ => False) (editMessage (js "7") longText) ∧
      OnlyRefuses (fun _ => False) (editMessage (js "7.5") longText) := by
  have hlong : 1 < (splitForTelegram longText.text).length := one_lt_length_letters (by decide)
  have hid : parseMessageId (js "7") = some (.finite 7) := by decide +kernel
  have hnone : parseMessageId (js "7.5") = none := by decide +kernel
  obtain ⟨_, ⟨_, hdelivers⟩, hedits⟩ :=
    telegram_sends_and_edits longText longText_ne_nil number_longText
  exact ⟨longText_ne_nil, number_longText, hlong, hdelivers.exists_run granted_granting,
    ((hedits _).1 _ hid).refuses hlong, (hedits _).2 hnone⟩

/-- Telegram's ids are positive integers of 53 bits. -/
def IdsOfTelegram (t : List TelegramEvent) : Prop :=
  ∀ part id, (part, id) ∈ t.filterMap posted →
    ∃ n : Nat, 0 < n ∧ n < 9007199254740992 ∧ id = .finite n

/-- What a send has answered `ok` under is the text of the id of the message that it sent last. It
is read back as this id, and an edit under it to the same chat is a request for that message. -/
theorem telegram_edits_what_it_sent {out : OutboundMessage} (hne : out.text ≠ [])
    (hchat : stringToNumber out.channel.id ≠ .nan) {t : List TelegramEvent} {r : SendResult}
    (hrun : Runs (sendMessage out) t (.ret r)) (hok : r.ok = true) (hids : IdsOfTelegram t) :
    ∃ part id idText, (t.filterMap posted).getLast? = some (part, id) ∧
      r.messageId = some idText ∧ parseMessageId idText = some id ∧
      ∀ new : OutboundMessage, new.channel = out.channel → new.text ≠ [] →
        EditsAs Granted (shown id new) idText (splitForTelegram new.text) (fun _ => False)
          (editMessage idText new) ∧
        ∀ part, splitForTelegram new.text = [part] → (editMessage idText new).pending =
          some (.editMessageText
            ⟨stringToNumber out.channel.id, id, part, mapFormat new.format⟩) := by
  have hsent := sendsParts_sendMessage hne hchat t _ hrun
  have hall := (hsent.complete r rfl).1 hok
  have hposted : t.filterMap posted ≠ [] := by
    intro hnil
    rw [hnil] at hall
    exact splitForTelegram_ne_nil hne hall.symm
  have hlast := List.getLast?_eq_some_getLast hposted
  obtain ⟨n, hpos, hn, hid⟩ := hids _ _ (List.getLast_mem hposted)
  generalize (t.filterMap posted).getLast hposted = last at *
  obtain ⟨part, id⟩ := last
  dsimp only at hid
  subst hid
  have hread := parseMessageId_toStr hpos hn
  refine ⟨part, _, (JsNumber.finite n).toStr, hlast, ?_, hread, fun new hnew hne' => ?_⟩
  · rw [hsent.named r rfl hok, lastIdText, List.getLast?_map, hlast]
    rfl
  · have hnewChat : stringToNumber new.channel.id ≠ .nan := hnew ▸ hchat
    refine ⟨editsAs_editMessage hread hne' hnewChat, fun part hpart => ?_⟩
    rw [editMessage_eq hread hne' hnewChat, hpart, ← hnew]
    rfl

/-- `longText` is sent in its parts. -/
theorem longText_runs : ∃ t r, Runs (sendMessage longText) t (.ret r) ∧ r.ok = true ∧
    IdsOfTelegram t := by
  have hdelivers := delivers_sendMessage longText_ne_nil number_longText
  obtain ⟨t, r, hrun, hok, ht⟩ := hdelivers.answers.exists_run granted_granting
  refine ⟨t, r, hrun, hok, fun part id hmem => ?_⟩
  have hpart : part ∈ splitForTelegram longText.text :=
    (hdelivers.sends t _ hrun).first.subset (List.mem_map_of_mem hmem)
  have hfits := (splitForTelegram_parts longText_ne_nil).1 part hpart
  obtain ⟨e, he, htaken⟩ := List.mem_filterMap.1 hmem
  unfold posted at htaken
  split at htaken
  · rename_i args id'
    have hid := ht _ _ he
    cases htaken
    cases hid
    exact ⟨args.text.length + 1, by omega, by omega, rfl⟩
  · cases htaken

theorem telegram_edits_what_it_sent_longText : ∃ t r, Runs (sendMessage longText) t (.ret r) ∧
    r.ok = true ∧ IdsOfTelegram t ∧
    ∃ part id idText, (t.filterMap posted).getLast? = some (part, id) ∧
      r.messageId = some idText ∧ parseMessageId idText = some id ∧
      (editMessage idText { longText with text := js "short" }).pending =
        some (.editMessageText ⟨stringToNumber longText.channel.id, id, js "short", none⟩) := by
  have hone : splitForTelegram (js "short") = [js "short"] := by decide
  obtain ⟨t, r, hrun, hok, hids⟩ := longText_runs
  obtain ⟨part, id, idText, hlast, hnamed, hread, hedits⟩ :=
    telegram_edits_what_it_sent longText_ne_nil number_longText hrun hok hids
  have hshort : js "short" ≠ [] := by decide
  exact ⟨t, r, hrun, hok, hids, part, id, idText, hlast, hnamed, hread,
    (hedits { longText with text := js "short" } rfl hshort).2 _ hone⟩

/-- What is sent to the channel of an event goes to the chat it came from, and to its topic, all of
it when the calls are granted; the chat is also the one that sees the bot typing. -/
theorem telegram_replies_in_place {ρ : Type} {chat msg : Json} {sender : Option Json} {raw : ρ}
    {event : TelegramMessageEvent ρ} (hevent : buildEvent chat msg sender raw = .ok event)
    {chatId : JsNumber} (hchat : event.chatId = some (.number chatId))
    (hdouble : chatId.IsDouble)
    (hthread : ∀ v, event.threadId = some v → ∃ n, v = .number n ∧ n.IsDouble)
    {out : OutboundMessage}
    (hchannel : out.channel = ⟨event.channelId, event.channelType, event.topicId⟩)
    (hne : out.text ≠ []) :
    (sendMessage out).CallsIn (fun
      | .sendMessage args => args.chatId = chatId ∧
        args.messageThreadId.map Json.number = event.threadId
      | _ => False) ∧
      Delivers Granted posted lastIdText (splitForTelegram out.text) (sendMessage out) ∧
      (startTyping event.channelId).pending = some (.sendChatAction chatId (js "typing")) ∧
      (startTyping event.channelId).Returns fun _ => True := by
  obtain ⟨_, chatText, hchatText, _, _, _, _, topicId, htopic, _, _, _, _, rfl⟩ :=
    buildEvent_eq_ok.1 hevent
  dsimp only at hchat hthread hchannel ⊢
  have hid : stringToNumber out.channel.id = chatId := by
    rw [hchat] at hchatText
    cases hchatText
    rw [hchannel]
    exact hdouble.stringToNumber_toStr
  have htopicId : (out.channel.topicId.map stringToNumber).map Json.number =
      msg.get (js "message_thread_id") := by
    rw [hchannel]
    cases hv : msg.get (js "message_thread_id") with
    | none =>
      rw [hv] at htopic
      cases htopic
      rfl
    | some v =>
      obtain ⟨n, rfl, hn⟩ := hthread v hv
      rw [hv] at htopic
      cases htopic
      exact congrArg (some ∘ Json.number) hn.stringToNumber_toStr
  have hnumber : stringToNumber out.channel.id ≠ .nan := by
    obtain ⟨q, rfl, _⟩ := hdouble
    rw [hid]
    nofun
  refine ⟨(callsIn_sendMessage out).mono fun call hcall => ?_, delivers_sendMessage hne hnumber,
    ?_⟩
  · match call with
    | .sendMessage args =>
      rw [show args = messageOf out args.text from hcall]
      exact ⟨hid, htopicId⟩
    | .editMessageText _ => exact hcall
    | .sendChatAction .. => exact hcall
  · have hsame : out.channel.id = chatText := by rw [hchannel]
    rw [← hsame, startTyping, if_neg hnumber, hid]
    exact ⟨rfl, fun _ => trivial⟩

/-- A message in a topic of a group. -/
def topicMessage : Json :=
  .object [(js "message_id", .number (.finite 5)), (js "date", .number (.finite 0)),
    (js "message_thread_id", .number (.finite 3))]

def groupChat : Json :=
  .object [(js "id", .number (.finite (-100))), (js "type", .string (js "supergroup"))]

theorem telegram_replies_in_place_topic : ∃ event : TelegramMessageEvent Unit,
    buildEvent groupChat topicMessage none () = .ok event ∧
      (sendMessage ⟨⟨event.channelId, event.channelType, event.topicId⟩, letters 4097, none,
        none⟩).CallsIn (fun
        | .sendMessage args => args.chatId = .finite (-100) ∧
          args.messageThreadId.map Json.number = event.threadId
        | _ => False) ∧
      1 < (splitForTelegram (letters 4097)).length ∧
      (∃ t r, Runs (sendMessage ⟨⟨event.channelId, event.channelType, event.topicId⟩,
        letters 4097, none, none⟩) t (.ret r) ∧ r.ok = true ∧
        (t.filterMap posted).map Prod.fst = splitForTelegram (letters 4097)) ∧
      (startTyping event.channelId).pending =
        some (.sendChatAction (.finite (-100)) (js "typing")) := by
  have hchat : groupChat.get (js "id") = some (.number (.finite (-100))) := rfl
  have hthread : topicMessage.get (js "message_thread_id") = some (.number (.finite 3)) := rfl
  have hbuilt : ∃ event, buildEvent groupChat topicMessage none () = .ok event := ⟨_, rfl⟩
  obtain ⟨event, hevent⟩ := hbuilt
  have hfields : event.chatId = groupChat.get (js "id") ∧
      event.threadId = topicMessage.get (js "message_thread_id") := by
    cases hevent
    exact ⟨rfl, rfl⟩
  obtain ⟨hcalls, hdelivers, htyping, _⟩ := telegram_replies_in_place hevent
    (hfields.1.trans hchat) ⟨-100, rfl, by decide +kernel⟩ (fun v hv => by
      cases hthread.symm.trans (hfields.2.symm.trans hv)
      exact ⟨.finite 3, rfl, 3, rfl, by decide +kernel⟩)
    (rfl : OutboundMessage.channel
      ⟨⟨event.channelId, event.channelType, event.topicId⟩, letters 4097, none, none⟩ = _)
    (letters_ne_nil (by decide))
  exact ⟨event, hevent, hcalls, one_lt_length_letters (by decide),
    hdelivers.exists_run granted_granting, htyping⟩

end TheokitGateways.Telegram
