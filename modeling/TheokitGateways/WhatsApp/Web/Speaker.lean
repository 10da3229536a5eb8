import TheokitGateways.Js.Convert
import TheokitGateways.WhatsApp.Baileys.Normalize
import TheokitGateways.WhatsApp.Web.Backend

/-!
# Who speaks in a group

WhatsApp Web names the chat a message came in as its sender, and in a group that
is the group; who wrote it is named apart, where the bridge does not look. So the
Web backend's event comes from the group, while Baileys reads the participant.
-/

namespace TheokitGateways.WhatsApp.Web
open Js Gateway

/-- A message as the WhatsApp Web client hands it to the bridge. -/
structure BridgeMessage where
  id : Option JsString := none
  /-- `from`, the chat. -/
  chat : Option JsString := none
  body : Option JsString := none
  notifyName : Option JsString := none
  timestamp : Option JsNumber := none

/-- The event the bridge writes for a message; `now` and `seconds` read the clock. -/
def messageEvent (msg : BridgeMessage) (now seconds : JsNumber) : Json :=
  .ofOptional [(js "event", some (.string (js "message"))),
    (js "msgId", some (.string (msg.id.getD (js "wa-" ++ now.toStr)))),
    (js "from", some (.string (msg.chat.getD []))),
    (js "body", some (.string (msg.body.getD []))),
    (js "isGroup", some (.bool (msg.chat.any fun chat => (js "@g.us").isSuffixOf chat))),
    (js "chatId", some (.string (msg.chat.getD []))),
    (js "contactName", msg.notifyName.map .string),
    (js "timestamp", some (.number (msg.timestamp.getD seconds * 1000)))]

/-- The sender of an event is the participant who wrote it, and not the group. -/
def NamesSpeaker (e : WhatsAppInboundEvent) (participant group : JsString) : Prop :=
  normalizeWhatsAppId e.fromPhone = normalizeWhatsAppId participant ∧
    normalizeWhatsAppId e.fromPhone ≠ normalizeWhatsAppId group

variable {msg : BridgeMessage} {now seconds : JsNumber}

theorem messageEvent_keys : [js "event", js "msgId", js "from", js "body", js "isGroup",
    js "chatId", js "contactName", js "timestamp"].Nodup := by decide

/-- The backend reads back what the bridge wrote. -/
theorem ofJson_messageEvent : IpcEvent.ofJson (messageEvent msg now seconds) = some (.message {
    msgId := msg.id.getD (js "wa-" ++ now.toStr)
    sender := msg.chat.getD []
    body := msg.body.getD []
    isGroup := msg.chat.any fun chat => (js "@g.us").isSuffixOf chat
    chatId := msg.chat.getD []
    contactName := msg.notifyName
    timestamp := msg.timestamp.getD seconds * 1000 }) := by
  have hget (key : JsString) : (messageEvent msg now seconds).get key = _ :=
    Json.get_ofOptional key messageEvent_keys
  have hkind : textMember (messageEvent msg now seconds) (js "event") = js "message" := by
    rw [textMember, hget]
    rfl
  have hname : optString ((messageEvent msg now seconds).get (js "contactName")) =
      msg.notifyName := by
    rw [hget]
    show optString (msg.notifyName.map Json.string) = _
    cases msg.notifyName <;> rfl
  unfold IpcEvent.ofJson
  rw [hkind, hname]
  simp only [textMember, hget]
  rfl

/-! ## Ids that are normalized -/

theorem withoutDomain_eq {s : JsString} (h : unit '@' ∉ s) : withoutDomain s = s := by
  induction s with
  | nil => rfl
  | cons c s ih => grind [withoutDomain]

theorem normalizeWhatsAppId_digits {s : JsString} (h : ∀ c ∈ s, JsonParser.isDigit c = true) :
    normalizeWhatsAppId s = s := by
  have hcolon : unit ':' ∉ s := fun hmem => absurd (h _ hmem) (by decide)
  have hat : unit '@' ∉ s := fun hmem => absurd (h _ hmem) (by decide)
  rw [normalizeWhatsAppId, withoutDevice, cutAt_eq_none hcolon, withoutDomain_eq hat, digitsOnly,
    List.filter_eq_self.2 h]

@[simp] theorem normalizeWhatsAppId_idem (s : JsString) :
    normalizeWhatsAppId (normalizeWhatsAppId s) = normalizeWhatsAppId s :=
  normalizeWhatsAppId_digits fun _ hmem => (List.mem_filter.1 hmem).2

/-! ## The two paths -/

/-- What goes to the handler for a message that the bridge passes on. -/
theorem deliveries_messageEvent {b : WhatsAppWebBackend} {handler : Handler}
    (hhandler : b.inboundHandler = some handler) (received : JsNumber) :
    ∃ e, (b.dispatch (messageEvent msg now seconds) received).deliveries =
        b.deliveries ++ [⟨handler, e⟩] ∧
      e.fromPhone = msg.chat.getD [] ∧ e.channelId = msg.chat.getD [] ∧
      e.conversationType =
        if msg.chat.any fun chat => (js "@g.us").isSuffixOf chat then .group else .dm := by
  unfold WhatsAppWebBackend.dispatch
  rw [ofJson_messageEvent]
  dsimp only [WhatsAppWebBackend.handleMessage]
  rw [hhandler]
  exact ⟨_, rfl, rfl, rfl, rfl⟩

/-- Baileys names the participant of a group message. -/
theorem fromPhone_baileys {raw : Baileys.RawEnvelope} {ctx : Baileys.BaileysDispatchContext}
    {e : WhatsAppInboundEvent} {a : Baileys.Addressed} {participant : JsString}
    (haddressed : Baileys.addressingOf (Baileys.asObject (some raw.json)) = some a)
    (hgroup : (js "@g.us").isSuffixOf a.remoteJid = true)
    (hparticipant : Baileys.asText (a.key.get (js "participant")) = some participant)
    (h : Baileys.normalizeBaileysMessage raw ctx = .ok (some e)) :
    e.fromPhone = normalizeWhatsAppId participant ∧ e.conversationType = .group := by
  obtain ⟨a', parties, _, haccepted⟩ := Baileys.normalizeBaileysMessage_eq_some h
  obtain rfl := Option.some.inj (haddressed.symm.trans haccepted.addressed)
  have hparties := haccepted.resolved
  simp only [Baileys.resolveParties, hgroup, if_true, hparticipant, Option.bind_eq_bind,
    Option.bind_some] at hparties
  split at hparties
  · cases hparties
  · obtain rfl := Option.some.inj hparties
    exact ⟨haccepted.fromPhone, haccepted.conversationType⟩

/-- For a group message that both backends carry, the event of the Web backend never names who
wrote it, and that of Baileys does unless the participant's digits are the group's. -/
theorem group_speaker (b : WhatsAppWebBackend) (handler : Handler) (msg : BridgeMessage)
    (now seconds received : JsNumber) (raw : Baileys.RawEnvelope)
    (ctx : Baileys.BaileysDispatchContext) (a : Baileys.Addressed) (e' : WhatsAppInboundEvent)
    (participant : JsString) (hhandler : b.inboundHandler = some handler)
    (hgroup : (js "@g.us").isSuffixOf a.remoteJid = true) (hchat : msg.chat = some a.remoteJid)
    (haddressed : Baileys.addressingOf (Baileys.asObject (some raw.json)) = some a)
    (hparticipant : Baileys.asText (a.key.get (js "participant")) = some participant)
    (h : Baileys.normalizeBaileysMessage raw ctx = .ok (some e')) :
    ∃ e, (b.dispatch (messageEvent msg now seconds) received).deliveries =
        b.deliveries ++ [⟨handler, e⟩] ∧
      e.conversationType = .group ∧ e'.conversationType = .group ∧
      ¬NamesSpeaker e participant a.remoteJid ∧
      (NamesSpeaker e' participant a.remoteJid ↔
        normalizeWhatsAppId participant ≠ normalizeWhatsAppId a.remoteJid) := by
  obtain ⟨e, hdeliveries, hfrom, _, htype⟩ := deliveries_messageEvent hhandler received
  obtain ⟨hfrom', htype'⟩ := fromPhone_baileys haddressed hgroup hparticipant h
  rw [hchat] at hfrom htype
  refine ⟨e, hdeliveries, by simpa [hgroup] using htype, htype', fun hnames => ?_, ?_⟩
  · exact hnames.2 (by rw [hfrom]; rfl)
  · rw [NamesSpeaker, hfrom', normalizeWhatsAppId_idem]
    simp

/-- A message of a participant in a group, as Baileys hands it over. -/
def groupEnvelope : Baileys.RawEnvelope where
  json := .object
    [(js "key", .object [(js "remoteJid", .string (js "12@g.us")), (js "id", .string (js "W")),
      (js "participant", .string (js "5511@s.whatsapp.net"))]),
    (js "message", .object [(js "conversation", .string (js "a"))]),
    (js "messageTimestamp", .number 1)]

theorem group_speaker_envelope : ∃ e e', (WhatsAppWebBackend.dispatch { inboundHandler := some 0 }
      (messageEvent { chat := some (js "12@g.us") } 0 0) 0).deliveries = [⟨0, e⟩] ∧
    Baileys.normalizeBaileysMessage groupEnvelope {} = .ok (some e') ∧
    ¬NamesSpeaker e (js "5511@s.whatsapp.net") (js "12@g.us") ∧
    NamesSpeaker e' (js "5511@s.whatsapp.net") (js "12@g.us") := by
  obtain ⟨e, hdeliveries, _, _, hnot, hnames⟩ := group_speaker { inboundHandler := some 0 } 0
    { chat := some (js "12@g.us") } 0 0 0 groupEnvelope {} ⟨_, js "12@g.us", js "W"⟩ _
    (js "5511@s.whatsapp.net") rfl (by decide) rfl rfl rfl rfl
  exact ⟨e, _, hdeliveries, rfl, hnot, hnames.2 (by decide)⟩

/-- A message that both backends carry, and the Web backend names the group. -/
theorem group_named : ¬ ∀ (b : WhatsAppWebBackend) (handler : Handler) (msg : BridgeMessage)
    (now seconds received : JsNumber) (raw : Baileys.RawEnvelope)
    (ctx : Baileys.BaileysDispatchContext) (a : Baileys.Addressed) (e' : WhatsAppInboundEvent)
    (participant : JsString), b.inboundHandler = some handler →
    (js "@g.us").isSuffixOf a.remoteJid = true → msg.chat = some a.remoteJid →
    Baileys.addressingOf (Baileys.asObject (some raw.json)) = some a →
    Baileys.asText (a.key.get (js "participant")) = some participant →
    Baileys.normalizeBaileysMessage raw ctx = .ok (some e') →
    ∃ e, (b.dispatch (messageEvent msg now seconds) received).deliveries =
      b.deliveries ++ [⟨handler, e⟩] ∧ NamesSpeaker e participant a.remoteJid ∧
        NamesSpeaker e' participant a.remoteJid := by
  intro h
  obtain ⟨e, hdeliveries, hnames, _⟩ := h { inboundHandler := some 0 } 0
    { chat := some (js "12@g.us") } 0 0 0 groupEnvelope {} ⟨_, js "12@g.us", js "W"⟩ _
    (js "5511@s.whatsapp.net") rfl (by decide) rfl rfl rfl rfl
  obtain ⟨e', hdeliveries', hfrom, _⟩ := @deliveries_messageEvent { chat := some (js "12@g.us") }
    0 0 { inboundHandler := some 0 } 0 rfl 0
  have hsame := hdeliveries.symm.trans hdeliveries'
  simp only [List.nil_append, List.cons.injEq, Delivery.mk.injEq, true_and, and_true] at hsame
  rw [hsame] at hnames
  exact hnames.2 (congrArg normalizeWhatsAppId hfrom)

end TheokitGateways.WhatsApp.Web
