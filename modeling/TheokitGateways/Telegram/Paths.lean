import TheokitGateways.Telegram.Inbound

/-!
# Telegram: when the two ways agree

The webhook and polling give the handler the same event of an update exactly when
polling's own rules admit the sender and the narrowing drops nothing, or when
neither way makes an event. `parseInbound` itself never throws.
-/

namespace TheokitGateways.Telegram
open Js Gateway

/-- An update of the Bot API: its one optional member may be a message. -/
def IsUpdate (update : Json) : Prop :=
  ∃ members, update = .object members ∧
    ∀ message, members.lookup (js "message") = some message →
      message.isObject = true ∧
        ∀ m ∈ members, m.1 = js "update_id" ∨ m.1 = js "message"

/-- What grammY documents: `bot.on("message")` passes over an update without a message, and
the shortcuts of a context read the one member its update has. -/
structure IsGrammy (context : Json → Option Context) : Prop where
  skips : ∀ update, IsUpdate update → update.get (js "message") = none → context update = none
  reads : ∀ update message, IsUpdate update → update.get (js "message") = some message →
    context update =
      some ⟨some message, message.get (js "chat"), message.get (js "from")⟩

/-- The sender is no bot, and is allowed when there is a list. -/
def Admitted (a : TelegramAdapter) (sender : Option Json) : Prop :=
  isBot sender = false ∧
    (a.allowedUsers = [] ∨ ∃ id ∈ a.allowedUsers, senderIdText sender [] = .ok id)

/-- A field the narrowing keeps: absent, or a number that is finite. -/
def KeptNumber (v : Option Json) : Prop := v = none ∨ v.any isFiniteNumber = true

def KeptString (v : Option Json) : Prop := v = none ∨ v.any Json.isString = true

/-- The narrowing changes nothing the event is made of. -/
structure FieldsKept (message : Json) : Prop where
  text : (messageText message).isString = true
  thread : KeptNumber (message.get (js "message_thread_id"))
  reply : KeptNumber (optGet (message.get (js "reply_to_message")) (js "message_id"))
  username : KeptString (optGet (message.get (js "from")) (js "username"))
  firstName : KeptString (optGet (message.get (js "from")) (js "first_name"))
  sender : (optGet (message.get (js "from")) (js "id")).any isFiniteNumber = true ∨
    senderIdText (message.get (js "from")) (js "anonymous") = .ok (js "anonymous") ∧
      optGet (message.get (js "from")) (js "username") = none ∧
      optGet (message.get (js "from")) (js "first_name") = none

/-- A value that has a text, when there is one. -/
def Convertible (v : Option Json) : Prop := ∀ w, v = some w → ∃ s, w.toStr = .ok s

/-- Every value the mapping converts has a text. -/
structure Buildable (chat message : Json) : Prop where
  chat_ne_null : chat ≠ .null
  chatId : Convertible (chat.get (js "id"))
  messageId : Convertible (message.get (js "message_id"))
  sender : Convertible (optGet (message.get (js "from")) (js "id"))
  thread : Convertible (message.get (js "message_thread_id"))
  date : Convertible (message.get (js "date"))
  reply : Convertible (optGet (message.get (js "reply_to_message")) (js "message_id"))

/-- Polling admits the sender and the narrowing keeps every field, or, when the update lacks a
field the webhook requires, polling makes no event either. -/
def SameInbound (a : TelegramAdapter) (update : Json) : Prop :=
  a.handler = true → ∀ message, update.get (js "message") = some message →
    match readRequired update with
    | some _ => Admitted a (message.get (js "from")) ∧ FieldsKept message
    | none => Admitted a (message.get (js "from")) →
        ∀ chat, message.get (js "chat") = some chat → ¬ Buildable chat message

section Narrowing

variable (msg : Json) (messageId date : JsNumber)

theorem narrowMessage_keys : [js "message_id", js "date", js "text", js "caption",
    js "message_thread_id", js "reply_to_message"].Nodup := by decide

@[simp] theorem narrowMessage_messageId :
    (narrowMessage msg messageId date).get (js "message_id") = some (.number messageId) :=
  Json.get_ofOptional _ narrowMessage_keys

@[simp] theorem narrowMessage_date :
    (narrowMessage msg messageId date).get (js "date") = some (.number date) :=
  Json.get_ofOptional _ narrowMessage_keys

@[simp] theorem narrowMessage_text :
    (narrowMessage msg messageId date).get (js "text") = keepString (msg.get (js "text")) :=
  Json.get_ofOptional _ narrowMessage_keys

@[simp] theorem narrowMessage_caption :
    (narrowMessage msg messageId date).get (js "caption") =
      keepString (msg.get (js "caption")) :=
  Json.get_ofOptional _ narrowMessage_keys

@[simp] theorem narrowMessage_thread :
    (narrowMessage msg messageId date).get (js "message_thread_id") =
      keepNumber (msg.get (js "message_thread_id")) :=
  Json.get_ofOptional _ narrowMessage_keys

@[simp] theorem narrowMessage_reply :
    optGet ((narrowMessage msg messageId date).get (js "reply_to_message")) (js "message_id") =
      keepNumber (optGet (msg.get (js "reply_to_message")) (js "message_id")) := by
  have hget : (narrowMessage msg messageId date).get (js "reply_to_message") =
      (keepNumber (optGet (msg.get (js "reply_to_message")) (js "message_id"))).map
        fun id => .object [(js "message_id", id)] :=
    Json.get_ofOptional _ narrowMessage_keys
  rw [hget]
  cases keepNumber (optGet (msg.get (js "reply_to_message")) (js "message_id")) <;> rfl

theorem narrowSender_keys : [js "id", js "username", js "first_name"].Nodup := by decide

variable (sender : Option Json)

theorem narrowSender_id :
    optGet (narrowSender sender) (js "id") = keepNumber (optGet sender (js "id")) := by
  unfold narrowSender
  cases keepNumber (optGet sender (js "id")) with
  | none => rfl
  | some id => exact Json.get_ofOptional _ narrowSender_keys

variable {sender}

theorem narrowSender_of_unusable (h : keepNumber (optGet sender (js "id")) = none) :
    narrowSender sender = none := by
  simp [narrowSender, h]

theorem narrowSender_username {id : Json} (h : keepNumber (optGet sender (js "id")) = some id) :
    optGet (narrowSender sender) (js "username") =
      keepString (optGet sender (js "username")) := by
  simp only [narrowSender, h]
  exact Json.get_ofOptional _ narrowSender_keys

theorem narrowSender_firstName {id : Json} (h : keepNumber (optGet sender (js "id")) = some id) :
    optGet (narrowSender sender) (js "first_name") =
      keepString (optGet sender (js "first_name")) := by
  simp only [narrowSender, h]
  exact Json.get_ofOptional _ narrowSender_keys

end Narrowing

theorem keepString_eq_self {v : Option Json} : v = keepString v ↔ KeptString v := by
  cases v with
  | none => simp [keepString, KeptString]
  | some v => cases h : v.isString <;> simp [keepString, KeptString, Option.filter, h]

theorem keepNumber_eq_self {v : Option Json} : v = keepNumber v ↔ KeptNumber v := by
  cases v with
  | none => simp [keepNumber, KeptNumber]
  | some v => cases h : isFiniteNumber v <;> simp [keepNumber, KeptNumber, Option.filter, h]

/-- Dropping what is no string changes a fallback chain exactly when it ends in no string. -/
theorem orElse_keepString {v : Option Json} {d d' : Json} (hd' : d'.isString = true)
    (hd : d = d' ↔ d.isString = true) :
    Json.orElse v d = Json.orElse (keepString v) d' ↔ (Json.orElse v d).isString = true := by
  have hne {u : Json} (hu : u.isString = false) : u ≠ d' := by
    rintro rfl
    simp [hu] at hd'
  cases v with
  | none => exact hd
  | some v =>
    cases v with
    | null => exact hd
    | string s => exact iff_of_true rfl rfl
    | bool b => exact iff_of_false (hne rfl) Bool.false_ne_true
    | number n => exact iff_of_false (hne rfl) Bool.false_ne_true
    | array items => exact iff_of_false (hne rfl) Bool.false_ne_true
    | object members => exact iff_of_false (hne rfl) Bool.false_ne_true

theorem isString_orElse_keepString {v : Option Json} {d : Json} (hd : d.isString = true) :
    (Json.orElse (keepString v) d).isString = true := by
  cases h : keepString v with
  | none => exact hd
  | some u =>
    have hu : u.isString = true := (Option.filter_eq_some_iff.1 h).2
    cases u <;> simp_all [Json.orElse, Json.isString]

/-- The narrowing leaves the text alone exactly when it is a string. -/
theorem messageText_narrowMessage {msg : Json} {messageId date : JsNumber} :
    messageText msg = messageText (narrowMessage msg messageId date) ↔
      (messageText msg).isString = true := by
  simp only [messageText, narrowMessage_text, narrowMessage_caption]
  exact orElse_keepString (isString_orElse_keepString rfl)
    (orElse_keepString rfl (iff_of_true rfl rfl))

variable {ρ : Type}

theorem buildEvent_eq_ok {chat msg : Json} {sender : Option Json} {raw : ρ}
    {e : TelegramMessageEvent ρ} :
    buildEvent chat msg sender raw = .ok e ↔ chat ≠ .null ∧
      ∃ chatText, templateText (chat.get (js "id")) = .ok chatText ∧
      ∃ msgText, templateText (msg.get (js "message_id")) = .ok msgText ∧
      ∃ senderId, senderIdText sender (js "anonymous") = .ok senderId ∧
      ∃ topicId, optText (msg.get (js "message_thread_id")) = .ok topicId ∧
      ∃ date, numberOf (msg.get (js "date")) = .ok date ∧
      ∃ replyTo, optText (optGet (msg.get (js "reply_to_message")) (js "message_id")) =
        .ok replyTo ∧
      e = {
        id := js "tg-" ++ chatText ++ js "-" ++ msgText
        senderId := senderId
        username := optGet sender (js "username")
        displayName := optGet sender (js "first_name")
        channelId := chatText
        channelType :=
          channelTypeOf (chat.get (js "type")) (msg.get (js "message_thread_id"))
        topicId := topicId
        text := messageText msg
        receivedAt := date * 1000
        replyTo := replyTo
        chatId := chat.get (js "id")
        messageId := msg.get (js "message_id")
        threadId := msg.get (js "message_thread_id")
        raw := raw } := by
  unfold buildEvent
  split
  · simp
  · rename_i hchat
    have hne : chat ≠ .null := hchat
    simp only [bind_eq_ok, pure, Except.pure, Except.ok.injEq, eq_comm (b := e)]
    simp [hne]

/-- Absent or a number, either way it converts. -/
theorem optText_keepNumber (v : Option Json) : ∃ t, optText (keepNumber v) = .ok t := by
  cases h : keepNumber v with
  | none => exact ⟨none, rfl⟩
  | some u =>
    have hu : isFiniteNumber u = true := (Option.filter_eq_some_iff.1 h).2
    cases u with
    | number n => exact ⟨some n.toStr, rfl⟩
    | _ => simp [isFiniteNumber] at hu

theorem senderIdText_narrowSender (sender : Option Json) :
    ∃ t, senderIdText (narrowSender sender) (js "anonymous") = .ok t := by
  unfold senderIdText
  rw [narrowSender_id]
  cases h : keepNumber (optGet sender (js "id")) with
  | none => exact ⟨js "anonymous", rfl⟩
  | some u =>
    have hu : isFiniteNumber u = true := (Option.filter_eq_some_iff.1 h).2
    cases u with
    | number n => exact ⟨n.toStr, rfl⟩
    | _ => simp [isFiniteNumber] at hu

theorem Required.chat_id (r : Required) : r.chat.get (js "id") = some (.number r.chatId) := rfl

/-- Narrowed fields always make an event. -/
theorem buildEvent_narrowed {chat : Json} {chatId : JsNumber} (msg : Json)
    (messageId date : JsNumber) (sender : Option Json) (raw : ρ)
    (hchat : chat.get (js "id") = some (.number chatId)) :
    ∃ e, buildEvent chat (narrowMessage msg messageId date) (narrowSender sender) raw = .ok e ∧
      e.receivedAt = date * 1000 := by
  obtain ⟨topicId, htopic⟩ := optText_keepNumber (msg.get (js "message_thread_id"))
  obtain ⟨replyTo, hreply⟩ :=
    optText_keepNumber (optGet (msg.get (js "reply_to_message")) (js "message_id"))
  obtain ⟨senderId, hsender⟩ := senderIdText_narrowSender sender
  have hne : chat ≠ .null := by
    rintro rfl
    simp [Json.get] at hchat
  refine ⟨_, buildEvent_eq_ok.2 ⟨hne, chatId.toStr, ?_, messageId.toStr, ?_, senderId, hsender,
    topicId, ?_, date, ?_, replyTo, ?_, rfl⟩, rfl⟩
  · rw [hchat]; rfl
  · rw [narrowMessage_messageId]; rfl
  · rw [narrowMessage_thread, htopic]
  · rw [narrowMessage_date]; rfl
  · rw [narrowMessage_reply, hreply]

theorem required_of_read {payload : Json} {r : Required} (h : readRequired payload = some r) :
    payload.get (js "message") = some r.message ∧
      r.message.get (js "message_id") = some (.number r.messageId) ∧
      r.message.get (js "date") = some (.number r.date) ∧
      (r.date * 1000).isFinite = true ∧
      ∃ chat, r.message.get (js "chat") = some chat ∧
        chat.get (js "id") = some (.number r.chatId) ∧
        chat.get (js "type") = some (.string r.chatType) := by
  simp only [readRequired, Option.bind_eq_bind, Option.bind_eq_some_iff] at h
  obtain ⟨msg, hmsg, h⟩ := h
  split at h
  · rename_i messageId date hid hdate
    simp only [Option.ite_none_right_eq_some, Option.bind_eq_some_iff] at h
    obtain ⟨⟨_, hfinite⟩, chat, hchat, h⟩ := h
    split at h
    · rename_i chatId chatType hcid hctype
      obtain ⟨_, ⟨⟩⟩ := Option.ite_none_right_eq_some.1 h
      exact ⟨hmsg, hid, hdate, hfinite, chat, hchat, hcid, hctype⟩
    · contradiction
  · contradiction

/-- `parseInbound` never throws, and its events have a finite time. -/
theorem parseInbound_total (payload : Json) :
    ∃ r, parseInbound payload = .ok r ∧ ∀ e, r = some e → e.receivedAt.isFinite = true := by
  cases h : readRequired payload with
  | none => exact ⟨none, by simp [parseInbound, h], by simp⟩
  | some r =>
    obtain ⟨_, _, _, hfinite, _⟩ := required_of_read h
    obtain ⟨e, he, hreceived⟩ := buildEvent_narrowed r.message r.messageId r.date
      (r.message.get (js "from")) payload r.chat_id
    refine ⟨some e, by simp [parseInbound, h, he, Except.map], ?_⟩
    rintro _ ⟨⟩
    rw [hreceived, hfinite]

theorem keepNumber_some {v : Option Json} (h : v.any isFiniteNumber = true) :
    keepNumber v = v := by
  cases v with
  | none => rfl
  | some v => simpa [keepNumber, Option.filter] using h

theorem keepNumber_none {v : Option Json} (h : ¬ v.any isFiniteNumber = true) :
    keepNumber v = none := by
  cases v with
  | none => rfl
  | some v => simpa [keepNumber, Option.filter] using h

/-- A conversion that gives what the narrowed field's does is of a kept field. -/
theorem keptNumber_of_optText {v : Option Json} {t : Option JsString}
    (h : optText v = .ok t) (hkeep : optText (keepNumber v) = .ok t) : KeptNumber v := by
  by_cases hv : v.any isFiniteNumber = true
  · exact .inr hv
  · rw [keepNumber_none hv] at hkeep
    obtain ⟨⟩ := hkeep
    cases v with
    | none => exact .inl rfl
    | some v =>
      obtain ⟨s, _, hs⟩ := map_eq_ok.1 h
      contradiction

/-- A sender the narrowing keeps is read alike before and after it. -/
theorem narrowSender_kept {sender : Option Json}
    (husername : KeptString (optGet sender (js "username")))
    (hname : KeptString (optGet sender (js "first_name")))
    (h : (optGet sender (js "id")).any isFiniteNumber = true ∨
      senderIdText sender (js "anonymous") = .ok (js "anonymous") ∧
        optGet sender (js "username") = none ∧ optGet sender (js "first_name") = none) :
    senderIdText sender (js "anonymous") =
        senderIdText (narrowSender sender) (js "anonymous") ∧
      optGet sender (js "username") = optGet (narrowSender sender) (js "username") ∧
      optGet sender (js "first_name") = optGet (narrowSender sender) (js "first_name") := by
  by_cases husable : (optGet sender (js "id")).any isFiniteNumber = true
  · obtain ⟨id, hsome⟩ := Option.isSome_iff_exists.1 (Option.isSome_of_any husable)
    have hkeep := (keepNumber_some husable).trans hsome
    rw [narrowSender_username hkeep, narrowSender_firstName hkeep]
    refine ⟨?_, keepString_eq_self.2 husername, keepString_eq_self.2 hname⟩
    simp only [senderIdText, narrowSender_id, keepNumber_some husable]
  · obtain ⟨hid, hu, hn⟩ := h.resolve_left husable
    rw [narrowSender_of_unusable (keepNumber_none husable), hid, hu, hn]
    exact ⟨rfl, rfl, rfl⟩

/-- The mapping of the fields as they are gives the event of the narrowed fields exactly when
the narrowing keeps them. -/
theorem buildEvent_agree_iff {σ : Type} {chat chat' msg : Json} {chatId messageId date : JsNumber}
    {raw : ρ} {raw' : σ} {w : TelegramMessageEvent σ}
    (hcid : chat.get (js "id") = some (.number chatId))
    (hid : chat.get (js "id") = chat'.get (js "id"))
    (htype : chat.get (js "type") = chat'.get (js "type"))
    (hmid : msg.get (js "message_id") = some (.number messageId))
    (hdate : msg.get (js "date") = some (.number date))
    (hw : buildEvent chat' (narrowMessage msg messageId date)
      (narrowSender (msg.get (js "from"))) raw' = .ok w) :
    (∃ e, buildEvent chat msg (msg.get (js "from")) raw = .ok e ∧
      e.withoutRaw = w.withoutRaw) ↔ FieldsKept msg := by
  have hne : chat ≠ .null := by
    rintro rfl
    simp [Json.get] at hcid
  obtain ⟨_, chatText, hct, msgText, hmt, senderId, hsid, topicId, htid, d, hd, replyTo, hrt,
    rfl⟩ :=
    buildEvent_eq_ok.1 hw
  simp only [narrowMessage_messageId, narrowMessage_thread, narrowMessage_date,
    narrowMessage_reply, ← hmid, ← hdate, ← hid] at hct hmt htid hd hrt
  constructor
  · rintro ⟨e, he, heq⟩
    obtain ⟨_, _, _, _, _, senderId', hsid', _, _, _, _, replyTo', hrt', rfl⟩ :=
      buildEvent_eq_ok.1 he
    simp only [TelegramMessageEvent.withoutRaw, TelegramMessageEvent.mk.injEq,
      narrowMessage_thread] at heq
    obtain ⟨_, _, hsender, husername, hname, _, _, _, htext, _, hreply, _, _, hthread, _⟩ := heq
    subst hsender hreply
    have hthread' := keepNumber_eq_self.1 hthread
    have hreply' := keptNumber_of_optText hrt' hrt
    have htext' := messageText_narrowMessage.1 htext
    by_cases husable : (optGet (msg.get (js "from")) (js "id")).any isFiniteNumber = true
    · obtain ⟨id, hsome⟩ := Option.isSome_iff_exists.1 (Option.isSome_of_any husable)
      have hkeep := (keepNumber_some husable).trans hsome
      rw [narrowSender_username hkeep] at husername
      rw [narrowSender_firstName hkeep] at hname
      exact ⟨htext', hthread', hreply', keepString_eq_self.1 husername,
        keepString_eq_self.1 hname, .inl husable⟩
    · rw [narrowSender_of_unusable (keepNumber_none husable)] at husername hname hsid
      obtain ⟨⟩ := hsid
      exact ⟨htext', hthread', hreply', .inl husername, .inl hname, .inr ⟨hsid', husername, hname⟩⟩
  · rintro ⟨htext, hthread, hreply, husername, hname, hsender⟩
    rw [← keepNumber_eq_self.2 hthread] at htid
    rw [← keepNumber_eq_self.2 hreply] at hrt
    obtain ⟨hsid', husername', hname'⟩ := narrowSender_kept husername hname hsender
    rw [← hsid'] at hsid
    refine ⟨_, buildEvent_eq_ok.2 ⟨hne, chatText, hct, msgText, hmt, senderId, hsid, topicId,
      htid, d, hd, replyTo, hrt, rfl⟩, ?_⟩
    simp only [TelegramMessageEvent.withoutRaw, narrowMessage_thread, narrowMessage_messageId,
      ← messageText_narrowMessage.2 htext, ← keepNumber_eq_self.2 hthread, husername', hname',
      htype, hid, hmid]

theorem normalizeEvent_eq_some {ctx : Context} {e : TelegramMessageEvent Context} :
    normalizeEvent ctx = .ok (some e) ↔ ∃ chat msg, ctx.chat = some chat ∧
      ctx.message = some msg ∧ buildEvent chat msg ctx.sender ctx = .ok e := by
  unfold normalizeEvent
  split
  · rename_i chat msg hchat hmsg
    simp [map_eq_ok, hchat, hmsg]
  · rename_i hnone
    simp only [Except.ok.injEq, reduceCtorEq, false_iff]
    rintro ⟨chat, msg, hchat, hmsg, _⟩
    exact hnone chat msg hchat hmsg

theorem handleInbound_eq_some {a : TelegramAdapter} {ctx : Context}
    {e : TelegramMessageEvent Context} :
    handleInbound a ctx = .ok (some e) ↔ a.handler = true ∧ Admitted a ctx.sender ∧
      ∃ chat msg, ctx.chat = some chat ∧ ctx.message = some msg ∧
        buildEvent chat msg ctx.sender ctx = .ok e := by
  rw [← normalizeEvent_eq_some]
  unfold handleInbound Admitted
  cases a.handler <;> cases isBot ctx.sender <;> simp
  by_cases hallowed : a.allowedUsers = []
  · simp [hallowed]
  · simp only [hallowed, if_false, bind_eq_ok, false_or]
    constructor
    · rintro ⟨senderId, hsender, h⟩
      split at h
      · rename_i hmem
        exact ⟨⟨senderId, hmem, hsender⟩, h⟩
      · simp at h
    · rintro ⟨⟨senderId, hmem, hsender⟩, h⟩
      exact ⟨senderId, hsender, by rwa [if_pos hmem]⟩

theorem convertible_iff {v : Option Json} : Convertible v ↔ ∃ t, templateText v = .ok t := by
  cases v <;> simp [Convertible, templateText]

theorem optText_ok_iff {v : Option Json} : (∃ t, optText v = .ok t) ↔ Convertible v := by
  cases v with
  | none => simp [Convertible, optText]
  | some v =>
    constructor
    · rintro ⟨t, ht⟩ _ ⟨⟩
      obtain ⟨s, hs, _⟩ := map_eq_ok.1 ht
      exact ⟨s, hs⟩
    · intro h
      obtain ⟨s, hs⟩ := h v rfl
      exact ⟨some s, map_eq_ok.2 ⟨s, hs, rfl⟩⟩

theorem numberOf_ok_iff {v : Option Json} : (∃ n, numberOf v = .ok n) ↔ Convertible v := by
  cases v with
  | none => simp [Convertible, numberOf]
  | some v =>
    simp only [Convertible, numberOf, Option.some.injEq, forall_eq']
    cases hn : v.toNumber with
    | error e => simp [Json.toNumber_eq_error.1 hn]
    | ok n =>
      cases hs : v.toStr with
      | error e => simp [Json.toNumber_eq_error.2 hs] at hn
      | ok s => simp

theorem senderIdText_ok_iff {sender : Option Json} {fallback : JsString} :
    (∃ t, senderIdText sender fallback = .ok t) ↔ Convertible (optGet sender (js "id")) := by
  unfold senderIdText Convertible
  cases optGet sender (js "id") with
  | none => simp [Json.orElse, Json.toStr]
  | some v => cases v <;> simp [Json.orElse, Json.toStr]

/-- Exactly when every conversion has a result does the mapping make an event. -/
theorem buildEvent_ok_iff {chat msg : Json} {raw : ρ} :
    (∃ e, buildEvent chat msg (msg.get (js "from")) raw = .ok e) ↔ Buildable chat msg := by
  constructor
  · rintro ⟨e, he⟩
    obtain ⟨hne, _, hc, _, hm, _, hs, _, ht, _, hd, _, hr, _⟩ := buildEvent_eq_ok.1 he
    exact ⟨hne, convertible_iff.2 ⟨_, hc⟩, convertible_iff.2 ⟨_, hm⟩,
      senderIdText_ok_iff.1 ⟨_, hs⟩, optText_ok_iff.1 ⟨_, ht⟩, numberOf_ok_iff.1 ⟨_, hd⟩,
      optText_ok_iff.1 ⟨_, hr⟩⟩
  · rintro ⟨hne, hc, hm, hs, ht, hd, hr⟩
    obtain ⟨chatText, hc⟩ := convertible_iff.1 hc
    obtain ⟨msgText, hm⟩ := convertible_iff.1 hm
    obtain ⟨senderId, hs⟩ := senderIdText_ok_iff.2 hs
    obtain ⟨topicId, ht⟩ := optText_ok_iff.2 ht
    obtain ⟨date, hd⟩ := numberOf_ok_iff.2 hd
    obtain ⟨replyTo, hr⟩ := optText_ok_iff.2 hr
    exact ⟨_, buildEvent_eq_ok.2 ⟨hne, chatText, hc, msgText, hm, senderId, hs, topicId, ht, date,
      hd, replyTo, hr, rfl⟩⟩

theorem webhooked_eq_some {a : TelegramAdapter} {update : Json} {e : TelegramMessageEvent Unit} :
    webhooked a update = some e ↔ a.handler = true ∧
      ∃ w, parseInbound update = .ok (some w) ∧ w.withoutRaw = e := by
  unfold webhooked deliver
  cases h : parseInbound update with
  | error _ => simp
  | ok r => cases r <;> cases a.handler <;> simp

/-- The context of a message update. -/
def contextOf (message : Json) : Context :=
  ⟨some message, message.get (js "chat"), message.get (js "from")⟩

theorem polled_eq_some {a : TelegramAdapter} {context : Json → Option Context}
    (hgrammy : IsGrammy context) {update message : Json} (hupdate : IsUpdate update)
    (hmessage : update.get (js "message") = some message) {e : TelegramMessageEvent Unit} :
    polled a context update = some e ↔ a.handler = true ∧
      Admitted a (message.get (js "from")) ∧ ∃ chat w, message.get (js "chat") = some chat ∧
        buildEvent chat message (message.get (js "from")) (contextOf message) = .ok w ∧
        w.withoutRaw = e := by
  have hctx : context update = some (contextOf message) := hgrammy.reads _ _ hupdate hmessage
  have hpolled : polled a context update = some e ↔
      ∃ w, handleInbound a (contextOf message) = .ok (some w) ∧ w.withoutRaw = e := by
    cases h : handleInbound a (contextOf message) with
    | error _ => simp [polled, hctx, h]
    | ok r => cases r <;> simp [polled, hctx, h]
  rw [hpolled]
  simp only [handleInbound_eq_some, contextOf, Option.some.injEq]
  constructor
  · rintro ⟨w, ⟨hhandler, hadmitted, chat, _, hchat, rfl, hw⟩, rfl⟩
    exact ⟨hhandler, hadmitted, chat, w, hchat, hw, rfl⟩
  · rintro ⟨hhandler, hadmitted, chat, w, hchat, hw, rfl⟩
    exact ⟨w, ⟨hhandler, hadmitted, chat, message, hchat, rfl, hw⟩, rfl⟩

theorem webhooked_eq_polled_iff {a : TelegramAdapter} {context : Json → Option Context}
    (hgrammy : IsGrammy context) {update : Json} (hupdate : IsUpdate update) :
    webhooked a update = polled a context update ↔ SameInbound a update := by
  cases hmessage : update.get (js "message") with
  | none =>
    have hread : readRequired update = none := by simp [readRequired, hmessage]
    have hctx : context update = none := hgrammy.skips update hupdate hmessage
    simp [SameInbound, webhooked, parseInbound, polled, hread, hctx, hmessage]
  | some message =>
    have hpolled {e : TelegramMessageEvent Unit} :=
      (polled_eq_some hgrammy hupdate hmessage : polled a context update = some e ↔ _)
    cases hread : readRequired update with
    | none =>
      have hweb : webhooked a update = none := by simp [webhooked, parseInbound, hread]
      rw [hweb, eq_comm, Option.eq_none_iff_forall_ne_some]
      simp only [SameInbound, hmessage, hread, Option.some.injEq, forall_eq', ne_eq, hpolled]
      constructor
      · rintro h hhandler hadmitted chat hchat hbuild
        obtain ⟨w, hw⟩ := buildEvent_ok_iff.2 hbuild
        exact h _ ⟨hhandler, hadmitted, chat, w, hchat, hw, rfl⟩
      · rintro h e ⟨hhandler, hadmitted, chat, w, hchat, hw, _⟩
        exact h hhandler hadmitted chat hchat (buildEvent_ok_iff.1 ⟨w, hw⟩)
    | some r =>
      obtain ⟨hr, hmid, hdate, _, chat, hchat, hcid, htype⟩ := required_of_read hread
      obtain rfl : message = r.message := Option.some.inj (hmessage.symm.trans hr)
      obtain ⟨w, hw, _⟩ := buildEvent_narrowed r.message r.messageId r.date
        (r.message.get (js "from")) update r.chat_id
      have hparse : parseInbound update = .ok (some w) := by
        simp [parseInbound, hread, hw, Except.map]
      have hid : chat.get (js "id") = r.chat.get (js "id") := hcid.trans r.chat_id.symm
      have hagree := (buildEvent_agree_iff hcid hid htype hmid hdate hw :
        (∃ e, buildEvent chat _ _ (contextOf r.message) = .ok e ∧ _) ↔ _)
      cases hhandler : a.handler with
      | false =>
        have hnone : polled a context update = none :=
          Option.eq_none_iff_forall_ne_some.2 fun e he => by simp [hpolled, hhandler] at he
        simp [SameInbound, hhandler, hnone, webhooked, hparse, deliver]
      | true =>
        have hweb : webhooked a update = some w.withoutRaw :=
          webhooked_eq_some.2 ⟨hhandler, w, hparse, rfl⟩
        rw [hweb, eq_comm, hpolled]
        simp only [SameInbound, hhandler, hmessage, hread, hchat, Option.some.injEq, forall_eq',
          true_and, forall_const, ← hagree]
        constructor
        · rintro ⟨hadmitted, _, e, rfl, he, heq⟩
          exact ⟨hadmitted, e, he, heq⟩
        · rintro ⟨hadmitted, e, he, heq⟩
          exact ⟨hadmitted, chat, e, rfl, he, heq⟩

/-- `parseInbound` answers every value without throwing and with a finite time, and the two
ways agree on an update exactly when polling's rules and the narrowing change nothing. -/
theorem inbound_paths_agree_iff (a : TelegramAdapter) (context : Json → Option Context)
    (hgrammy : IsGrammy context) (update : Json) (hupdate : IsUpdate update) :
    (∀ payload, ∃ r, parseInbound payload = .ok r ∧
        ∀ e, r = some e → e.receivedAt.isFinite = true) ∧
      (webhooked a update = polled a context update ↔ SameInbound a update) :=
  ⟨parseInbound_total, webhooked_eq_polled_iff hgrammy hupdate⟩

/-- The context of an update that holds nothing but a message. -/
def messageContext (update : Json) : Option Context :=
  (update.get (js "message")).map contextOf

theorem messageContext_isGrammy : IsGrammy messageContext where
  skips update _ h := by simp [messageContext, h]
  reads update message _ h := by simp [messageContext, h, contextOf]

/-- A private text message of a user, or of a bot. -/
def textUpdate (bot : Bool) : Json :=
  .object [(js "update_id", .number 1),
    (js "message", .object [
      (js "message_id", .number 7), (js "date", .number 1700000000),
      (js "chat", .object [(js "id", .number 5), (js "type", .string (js "private"))]),
      (js "from", .object [(js "id", .number 5), (js "is_bot", .bool bot)]),
      (js "text", .string (js "hi"))])]

theorem isUpdate_textUpdate (bot : Bool) : IsUpdate (textUpdate bot) := by
  refine ⟨_, rfl, ?_⟩
  rintro message ⟨⟩
  exact ⟨rfl, by simp⟩

theorem inbound_paths_agree_iff_text :
    (∀ payload, ∃ r, parseInbound payload = .ok r ∧
        ∀ e, r = some e → e.receivedAt.isFinite = true) ∧
      (webhooked ⟨true, []⟩ (textUpdate false) =
          polled ⟨true, []⟩ messageContext (textUpdate false) ↔
        SameInbound ⟨true, []⟩ (textUpdate false)) :=
  inbound_paths_agree_iff ⟨true, []⟩ messageContext messageContext_isGrammy (textUpdate false)
    (isUpdate_textUpdate false)

/-- A bot's message reaches the handler by webhook, and not by polling. -/
theorem webhook_admits_bot :
    ¬ ∀ (a : TelegramAdapter) (context : Json → Option Context), IsGrammy context →
      ∀ update, IsUpdate update → webhooked a update = polled a context update := by
  intro h
  have hsame := h ⟨true, []⟩ messageContext messageContext_isGrammy (textUpdate true)
    (isUpdate_textUpdate true)
  have hpolled : polled ⟨true, []⟩ messageContext (textUpdate true) = none := rfl
  rw [hpolled] at hsame
  have hweb : (webhooked ⟨true, []⟩ (textUpdate true)).isSome = true := by decide +kernel
  simp [hsame] at hweb

end TheokitGateways.Telegram
