import TheokitGateways.WhatsApp.Adapter
import TheokitGateways.WhatsApp.Baileys.Backend
import TheokitGateways.WhatsApp.Baileys.Strict

/-!
# Where a reply to a group goes

The event of a group message names its channel by the digits of the group's
address, and a send to a group writes the domain after what it is given. The two
give the address again exactly when it is digits and the domain.
-/

namespace TheokitGateways.WhatsApp
open Js Gateway

/-- What `sendMessage` hands to the backend for a part of the text. -/
def WhatsAppAdapter.outbound (channel : Channel) (part : JsString) : WhatsAppOutboundMessage where
  recipient := channel.id
  isGroup := channel.type = .group
  text := part

/-- Stripping the device leaves an address without one. -/
theorem withoutDevice_eq {s : JsString} (h : unit ':' ∉ s) : withoutDevice s = s := by
  rw [withoutDevice, cutAt_eq_none h]

theorem withoutDomain_append {user domain : JsString} (huser : unit '@' ∉ user)
    (hdomain : domain.any isLineTerminator = false) :
    withoutDomain (user ++ unit '@' :: domain) = user := by
  induction user with
  | nil => simp [withoutDomain, hdomain]
  | cons c user ih =>
    obtain ⟨hne, huser⟩ := not_or.1 (mt List.mem_cons.2 huser)
    simp [withoutDomain, ih huser, Ne.symm hne]

/-- An event that no rule drops is the converted one. -/
theorem decide_eq_some {adapter : WhatsAppAdapter} {inbound : WhatsAppInboundEvent}
    {event : WhatsAppMessageEvent} (h : adapter.decide inbound = some event) :
    event = toMessageEvent inbound := by
  simp only [WhatsAppAdapter.decide, decideForOwnNumber, decideInbound,
    Option.ite_none_left_eq_some] at h
  exact (Option.some.inj h.2.2.2).symm

namespace Baileys

def groupDomain : JsString := js "@g.us"

/-- A group's address that is digits before the domain. -/
def IsDigitsGroup (remoteJid : JsString) : Prop :=
  ∃ digits, (∀ c ∈ digits, JsonParser.isDigit c = true) ∧ remoteJid = digits ++ groupDomain

theorem normalizeWhatsAppId_group {digits : JsString}
    (h : ∀ c ∈ digits, JsonParser.isDigit c = true) :
    normalizeWhatsAppId (digits ++ groupDomain) = digits := by
  have hcolon : unit ':' ∉ digits ++ groupDomain := by
    rw [List.mem_append, not_or]
    exact ⟨fun hmem => absurd (h _ hmem) (by decide), by decide⟩
  have hat : unit '@' ∉ digits := fun hmem => absurd (h _ hmem) (by decide)
  have hdomain : withoutDomain (digits ++ unit '@' :: js "g.us") = digits :=
    withoutDomain_append hat (by decide)
  rw [normalizeWhatsAppId, withoutDevice_eq hcolon]
  exact (congrArg digitsOnly hdomain).trans (List.filter_eq_self.2 h)

theorem isDigitsGroup_iff {remoteJid : JsString} :
    IsDigitsGroup remoteJid ↔ normalizeWhatsAppId remoteJid ++ groupDomain = remoteJid := by
  constructor
  · rintro ⟨digits, hdigits, rfl⟩
    rw [normalizeWhatsAppId_group hdigits]
  · intro h
    exact ⟨_, fun _ hc => (List.mem_filter.1 hc).2, h.symm⟩

theorem includes_at_of_digits {s : JsString} (h : ∀ c ∈ s, JsonParser.isDigit c = true) :
    includes (js "@") s = false := by
  induction s with
  | nil => rfl
  | cons c s ih =>
    obtain ⟨hc, hs⟩ := List.forall_mem_cons.1 h
    have hne : unit '@' ≠ c := fun heq => absurd (heq ▸ hc) (by decide)
    have hprefix : (js "@").isPrefixOf (c :: s) = false := by
      show ((unit '@' == c) && [].isPrefixOf s) = false
      rw [beq_false_of_ne hne, Bool.false_and]
    rw [includes, hprefix, ih hs]
    rfl

/-- A send to a group by digits goes to the digits and the domain. -/
theorem resolveJid_group (b : WhatsAppBaileysBackend) (k : Nat) {recipient : JsString}
    (hdigits : ∀ c ∈ recipient, JsonParser.isDigit c = true) (text : JsString) :
    b.resolveJid k ⟨recipient, true, text⟩ = .resolved k (some (recipient ++ groupDomain)) := by
  rw [WhatsAppBaileysBackend.resolveJid, includes_at_of_digits hdigits]
  rfl

/-- A reply to the event of a group message is addressed to the group it came from exactly when
the group's address is digits and the domain. -/
theorem groupReply_addressed (adapter : WhatsAppAdapter) (b : WhatsAppBaileysBackend) (k : Nat)
    (raw : RawEnvelope) (ctx : BaileysDispatchContext) (inbound : WhatsAppInboundEvent)
    (event : WhatsAppMessageEvent) (a : Addressed) (part : JsString)
    (haddressed : addressingOf (asObject (some raw.json)) = some a)
    (hnormalize : normalizeBaileysMessage raw ctx = .ok (some inbound))
    (hgroup : inbound.conversationType = .group) (hdecide : adapter.decide inbound = some event) :
    b.resolveJid k (WhatsAppAdapter.outbound event.channel part) =
        .resolved k (some a.remoteJid) ↔ IsDigitsGroup a.remoteJid := by
  obtain ⟨a', parties, _, haccepted⟩ := normalizeBaileysMessage_eq_some hnormalize
  obtain rfl := Option.some.inj (haddressed.symm.trans haccepted.addressed)
  obtain ⟨_, hdigits, hid, _⟩ := resolveParties_eq_some haccepted.resolved
  have hevent : event = toMessageEvent inbound := decide_eq_some hdecide
  have hreply : b.resolveJid k (WhatsAppAdapter.outbound event.channel part) =
      .resolved k (some (parties.channelId ++ groupDomain)) := by
    have houtbound : WhatsAppAdapter.outbound event.channel part =
        ⟨parties.channelId, true, part⟩ := by
      simp [WhatsAppAdapter.outbound, hevent, toMessageEvent, hgroup, haccepted.channelId]
    rw [houtbound, resolveJid_group b k hdigits.2]
  rw [hreply, isDigitsGroup_iff, hid]
  simp

/-- A group message as Baileys hands it over. -/
def fromGroup (remoteJid : JsString) : RawEnvelope where
  json := .object
    [(js "key", .object [(js "remoteJid", .string remoteJid), (js "id", .string (js "W")),
      (js "participant", .string (js "5511@s.whatsapp.net"))]),
    (js "message", .object [(js "conversation", .string (js "hello"))]),
    (js "messageTimestamp", .number 1700000000)]

/-- An adapter that lets everything through. -/
def openAdapter : WhatsAppAdapter := .new none { requireMention := some false }

theorem groupReply_addressed_digits : ∃ event : WhatsAppMessageEvent,
    ({} : WhatsAppBaileysBackend).resolveJid 0 (WhatsAppAdapter.outbound event.channel (js "hi")) =
      .resolved 0 (some (js "120363012345678901@g.us")) :=
  ⟨_, (groupReply_addressed openAdapter {} 0 (fromGroup (js "120363012345678901@g.us")) {} _ _
    ⟨_, js "120363012345678901@g.us", js "W"⟩ (js "hi") rfl rfl rfl rfl).2
      ⟨js "120363012345678901", forall_mem_of_all rfl, rfl⟩⟩

/-- The address of an older group has a hyphen, which a reply loses. -/
theorem groupReply_misaddressed :
    ¬ ∀ (adapter : WhatsAppAdapter) (b : WhatsAppBaileysBackend) (k : Nat) (raw : RawEnvelope)
      (ctx : BaileysDispatchContext) (inbound : WhatsAppInboundEvent)
      (event : WhatsAppMessageEvent) (a : Addressed) (part : JsString),
      addressingOf (asObject (some raw.json)) = some a →
      normalizeBaileysMessage raw ctx = .ok (some inbound) →
      inbound.conversationType = .group → adapter.decide inbound = some event →
        b.resolveJid k (WhatsAppAdapter.outbound event.channel part) =
          .resolved k (some a.remoteJid) := by
  intro h
  have hreply := h openAdapter {} 0 (fromGroup (js "5511999999999-1400000000@g.us")) {} _ _
    ⟨_, js "5511999999999-1400000000@g.us", js "W"⟩ (js "hi") rfl rfl rfl rfl
  have hlost : ({} : WhatsAppBaileysBackend).resolveJid 0
      ⟨js "55119999999991400000000", true, js "hi"⟩ =
        .resolved 0 (some (js "55119999999991400000000@g.us")) := rfl
  obtain ⟨_, hjid⟩ := SendStage.resolved.inj (hlost.symm.trans hreply)
  exact absurd (Option.some.inj hjid) (by decide)

end Baileys
end TheokitGateways.WhatsApp
