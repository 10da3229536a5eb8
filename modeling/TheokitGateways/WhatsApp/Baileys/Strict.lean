import TheokitGateways.WhatsApp.Baileys.Normalize

/-!
# What a Baileys envelope is normalised to

An envelope whose parts cannot all be read is refused, whatever is in their place,
but for two: a message that is `null` is looked into, and a timestamp that is a
number is multiplied without a look at what comes of it.
-/

namespace TheokitGateways.WhatsApp.Baileys
open Js Gateway

/-- An identifier: digits, and at least one. -/
def IsDigits (s : JsString) : Prop := s ≠ [] ∧ ∀ c ∈ s, JsonParser.isDigit c = true

/-- What an event always is. -/
structure Strict (raw : RawEnvelope) (ctx : BaileysDispatchContext) (e : WhatsAppInboundEvent) :
    Prop where
  fromPhone : IsDigits e.fromPhone
  channelId : IsDigits e.channelId
  text : e.text ≠ []
  own : isFromMe raw = true →
    (∃ selfJids, ctx.selfJids = some selfJids ∧ e.channelId ∈ selfJids) ∧
      e.wamid ∉ ctx.sentWamids.getD []

/-- An envelope that is to be dispatched has no message that is `null`, and when it has all that
an event needs, a time that is a finite number of milliseconds. -/
structure Readable (raw : RawEnvelope) (ctx : BaileysDispatchContext) : Prop where
  message : (dispatched raw ctx).isSome = true →
    optGet (asObject (some raw.json)) (js "message") ≠ some .null
  timestamp : ∀ a text parties seconds, dispatched raw ctx = some a →
    extractText (optGet (asObject (some raw.json)) (js "message")) = .ok (some text) →
    resolveParties a.key a.remoteJid = some parties →
    toSeconds (optGet (asObject (some raw.json)) (js "messageTimestamp")) raw.long = some seconds →
    (seconds * 1000).isFinite = true

/-! ## Parts -/

theorem ne_nil_of_asText {value : Option Json} {s : JsString} (h : asText value = some s) :
    s ≠ [] := by
  simpa using (Option.filter_eq_some_iff.1 h).2

/-- Text is found at some level. -/
theorem ne_nil_of_textOf {levels : Nat} {message : Json} {text : JsString}
    (h : textOf levels message = some text) : text ≠ [] := by
  induction levels generalizing message with
  | zero => cases h
  | succ levels ih =>
    rw [textOf, Option.or_eq_some_iff, Option.or_eq_some_iff] at h
    obtain hdirect | ⟨_, hextended | ⟨_, hwrapped⟩⟩ := h
    · exact ne_nil_of_asText hdirect
    · obtain ⟨_, _, htext⟩ := Option.bind_eq_some_iff.1 hextended
      exact ne_nil_of_asText htext
    · obtain ⟨wrapper, _, hwrapped⟩ := List.exists_of_findSome?_eq_some hwrapped
      obtain ⟨_, _, hwrapped⟩ := Option.bind_eq_some_iff.1 hwrapped
      obtain ⟨nested, _, hnested⟩ := Option.bind_eq_some_iff.1 hwrapped
      exact ih hnested

theorem ne_nil_of_extractText {message : Option Json} {text : JsString}
    (h : extractText message = .ok (some text)) : text ≠ [] := by
  unfold extractText at h
  split at h
  · cases h
  · cases h
  · exact ne_nil_of_textOf (Except.ok.inj h)

/-- Looking for the text throws at `null` only. -/
theorem extractText_isOk {message : Option Json} :
    (∃ text, extractText message = .ok text) ↔ message ≠ some .null := by
  unfold extractText
  split <;> simp_all

theorem isDigits_normalizeWhatsAppId {value : JsString} (h : normalizeWhatsAppId value ≠ []) :
    IsDigits (normalizeWhatsAppId value) :=
  ⟨h, fun _ hc => (List.mem_filter.1 hc).2⟩

theorem resolveParties_eq_some {key : Json} {remoteJid : JsString} {parties : Parties}
    (h : resolveParties key remoteJid = some parties) :
    IsDigits parties.fromPhone ∧ IsDigits parties.channelId ∧
      parties.channelId = normalizeWhatsAppId remoteJid ∧
      parties.isGroup = (js "@g.us").isSuffixOf remoteJid := by
  have hsender : ∃ senderJid, normalizeWhatsAppId senderJid ≠ [] ∧
      normalizeWhatsAppId remoteJid ≠ [] ∧ some parties = some (Parties.mk
        (normalizeWhatsAppId senderJid) (normalizeWhatsAppId remoteJid) remoteJid
        ((js "@g.us").isSuffixOf remoteJid)) := by
    simp only [resolveParties] at h
    split at h <;>
    · obtain ⟨senderJid, _, hresolved⟩ := Option.bind_eq_some_iff.1 h
      obtain ⟨hparts, hresolved⟩ := Option.ite_none_left_eq_some.1 hresolved
      obtain ⟨hfrom, hchannel⟩ := not_or.1 hparts
      exact ⟨senderJid, hfrom, hchannel, hresolved.symm⟩
  obtain ⟨senderJid, hfrom, hchannel, hresolved⟩ := hsender
  obtain rfl := Option.some.inj hresolved
  exact ⟨isDigits_normalizeWhatsAppId hfrom, isDigits_normalizeWhatsAppId hchannel, rfl, rfl⟩

/-! ## The envelope -/

variable {raw : RawEnvelope} {ctx : BaileysDispatchContext}

theorem strict_of_accepted {e : WhatsAppInboundEvent} {a : Addressed} {parties : Parties}
    {seconds : JsNumber} (h : Accepted raw ctx e a parties seconds) : Strict raw ctx e := by
  obtain ⟨hfrom, hchannel, hid, _⟩ := resolveParties_eq_some h.resolved
  refine ⟨h.fromPhone ▸ hfrom, h.channelId ▸ hchannel, ne_nil_of_extractText h.extracted,
    fun hown => ?_⟩
  have htrue : isTrue (a.key.get (js "fromMe")) = true := by
    simpa [isFromMe, h.addressed] using hown
  rw [h.channelId, hid, h.wamid]
  exact dispatchable_fromMe htrue h.dispatchable

/-- Every event has digits, a text, and the right to be there; an envelope comes to nothing or to
an event with a finite time exactly when it is readable. -/
theorem normalizeBaileysMessage_strict (json : Json) (ctx : BaileysDispatchContext) :
    (∀ e, normalizeBaileysMessage { json } ctx = .ok (some e) → Strict { json } ctx e) ∧
      ((∃ o, normalizeBaileysMessage { json } ctx = .ok o ∧
        ∀ e, o = some e → Strict { json } ctx e ∧ e.receivedAt.isFinite = true) ↔
          Readable { json } ctx) := by
  have hstrict (e : WhatsAppInboundEvent)
      (he : normalizeBaileysMessage { json } ctx = .ok (some e)) : Strict { json } ctx e := by
    obtain ⟨a, parties, seconds, haccepted⟩ := normalizeBaileysMessage_eq_some he
    exact strict_of_accepted haccepted
  refine ⟨hstrict, ?_, fun h => ?_⟩
  · rintro ⟨o, ho, hevent⟩
    refine ⟨fun hsome => ?_, fun a text parties seconds ha htext hparties hseconds => ?_⟩
    · obtain ⟨a, ha⟩ := Option.isSome_iff_exists.1 hsome
      exact extractText_isOk.1 ((normalizeBaileysMessage_isOk_iff ha).1 ⟨o, ho⟩)
    · obtain ⟨e, he, hreceived⟩ := normalizeBaileysMessage_of_parts ha htext hparties hseconds
      rw [← hreceived]
      exact (hevent e (Except.ok.inj (ho.symm.trans he))).2
  · cases hdispatched : dispatched { json } ctx with
    | none => exact ⟨none, normalizeBaileysMessage_of_none hdispatched, fun _ he => nomatch he⟩
    | some a =>
      have hmessage := h.message (by rw [hdispatched]; rfl)
      obtain ⟨o, ho⟩ := (normalizeBaileysMessage_isOk_iff hdispatched).2
        (extractText_isOk.2 hmessage)
      refine ⟨o, ho, ?_⟩
      rintro e rfl
      obtain ⟨b, parties, seconds, haccepted⟩ := normalizeBaileysMessage_eq_some ho
      have hb := dispatched_eq_some.2 ⟨haccepted.addressed, haccepted.dispatchable⟩
      rw [haccepted.receivedAt]
      exact ⟨strict_of_accepted haccepted,
        h.timestamp b e.text parties seconds hb haccepted.extracted haccepted.resolved
          haccepted.timed⟩

/-- A message from somebody with `null` in the place of its content. -/
def nullMessage : Json :=
  .object [(js "key", .object [(js "remoteJid", .string (js "5511@s.whatsapp.net")),
    (js "id", .string (js "W"))]), (js "message", .null)]

theorem normalizeBaileysMessage_throws :
    ¬ ∀ (json : Json) (ctx : BaileysDispatchContext),
      ∃ o, normalizeBaileysMessage { json } ctx = .ok o ∧
        ∀ e, o = some e → Strict { json } ctx e ∧ e.receivedAt.isFinite = true := by
  intro h
  obtain ⟨o, ho, _⟩ := h nullMessage {}
  have hthrown : (normalizeBaileysMessage { json := nullMessage } {}).isOk = false := by decide
  rw [ho] at hthrown
  cases hthrown

end TheokitGateways.WhatsApp.Baileys
