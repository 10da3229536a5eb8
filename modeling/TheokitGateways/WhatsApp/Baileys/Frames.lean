import TheokitGateways.WhatsApp.Baileys.Backend

/-!
# What a step of the backend leaves alone

The steps of the sends leave the connection and the inbound side as they are, and
the other steps leave the sends.
-/

namespace TheokitGateways.WhatsApp.Baileys
open Js Gateway

def Action.isSend : Action → Bool
  | .send _ | .start _ | .lookedUp .. | .transmit _ | .acknowledge .. | .fail .. | .sendTimeout _
  | .answer _ => true
  | _ => false

namespace WhatsAppBaileysBackend
variable {timeoutMs : JsString} {b b' : WhatsAppBaileysBackend} {action : Action}

/-- The connection, and the inbound side but for what was sent. -/
def inbound (b : WhatsAppBaileysBackend) :
    Connection × Option Handler × Option Batch × List Delivery :=
  (b.conn, b.inboundHandler, b.batch, b.deliveries)

/-- The outbound side. -/
def outbound (b : WhatsAppBaileysBackend) :
    List Send × List JsString × List Transmission × List (Nat × Option JsString) :=
  (b.sends, b.sentWamids, b.transmitted, b.acknowledged)

theorem inbound_answer (b : WhatsAppBaileysBackend) (i : Nat) (message : WhatsAppOutboundMessage)
    (outcome : Outcome) : (b.answer timeoutMs i message outcome).inbound = b.inbound := by
  cases outcome with
  | acknowledged id => cases id <;> simp only [inbound, answer, modifySend]
  | unroutable | timeout | failed err => simp only [inbound, answer, modifySend]

theorem inbound_of_isSend (h : b.step timeoutMs action = some b') (hsend : action.isSend = true) :
    b'.inbound = b.inbound := by
  unfold step at h
  split at h
  · cases h
  · cases action with
    | send message =>
      obtain rfl := Option.some.inj h
      rfl
    | start i =>
      obtain ⟨s, _, h⟩ := Option.bind_eq_some_iff.1 h
      split at h
      · split at h
        · obtain rfl := Option.some.inj h
          rfl
        · cases h
      · cases h
    | lookedUp i found =>
      obtain ⟨s, _, h⟩ := Option.bind_eq_some_iff.1 h
      split at h
      · obtain rfl := Option.some.inj h
        rfl
      · cases h
    | transmit i =>
      obtain ⟨s, _, h⟩ := Option.bind_eq_some_iff.1 h
      split at h
      · split at h <;>
        · obtain rfl := Option.some.inj h
          rfl
      · cases h
    | acknowledge i id | fail i err =>
      obtain ⟨s, _, h⟩ := Option.bind_eq_some_iff.1 h
      split at h
      · obtain rfl := Option.some.inj h
        rfl
      · cases h
    | sendTimeout i =>
      obtain ⟨s, _, h⟩ := Option.bind_eq_some_iff.1 h
      split at h
      · cases h
      · split at h
        · cases h
        · obtain rfl := Option.some.inj h
          rfl
    | answer i =>
      obtain ⟨s, _, h⟩ := Option.bind_eq_some_iff.1 h
      split at h
      · obtain rfl := Option.some.inj h
        exact inbound_answer ..
      · cases h
    | _ => cases hsend

/-- Handing a message on leaves the outbound side, and delivers one event or none. -/
theorem dispatchInbound_spec {k : Nat} {raw : RawEnvelope}
    (h : b.dispatchInbound k raw = some b') : b'.outbound = b.outbound ∧
      (b'.deliveries = b.deliveries ∨
        ∃ d, b'.deliveries = d :: b.deliveries ∧ normalizeBaileysMessage raw
          { selfJids := some b.conn.selfJids, sentWamids := some b.sentWamids } =
            .ok (some d.event)) := by
  unfold dispatchInbound at h
  split at h
  · obtain rfl := Option.some.inj h
    exact ⟨rfl, .inl rfl⟩
  · split at h
    · cases h
    · obtain rfl := Option.some.inj h
      exact ⟨rfl, .inl rfl⟩
    · obtain rfl := Option.some.inj h
      exact ⟨rfl, .inr ⟨_, rfl, ‹_›⟩⟩

/-- What a step that is none of a send's does. -/
theorem step_spec_of_not_isSend (h : b.step timeoutMs action = some b')
    (hsend : action.isSend = false) : b'.outbound = b.outbound ∧
    (b'.deliveries = b.deliveries ∨ ∃ batch raw rest d, action = .dispatch ∧
      b.batch = some batch ∧ batch.rest = raw :: rest ∧ b'.deliveries = d :: b.deliveries ∧
        normalizeBaileysMessage raw
          { selfJids := some b.conn.selfJids, sentWamids := some b.sentWamids } =
            .ok (some d.event)) := by
  unfold step at h
  split at h
  · cases h
  · split at h
    · obtain rfl := Option.some.inj h
      exact ⟨rfl, .inl rfl⟩
    · obtain ⟨conn, _, rfl⟩ := Option.map_eq_some_iff.1 h
      exact ⟨rfl, .inl rfl⟩
    · obtain ⟨a, _, h⟩ := Option.bind_eq_some_iff.1 h
      split at h <;>
      · obtain rfl := Option.some.inj h
        exact ⟨rfl, .inl rfl⟩
    · obtain ⟨batch, hbatch, h⟩ := Option.bind_eq_some_iff.1 h
      split at h
      · obtain rfl := Option.some.inj h
        exact ⟨rfl, .inl rfl⟩
      · rename_i raw rest hrest
        split at h
        · rename_i hdispatch
          obtain rfl := Option.some.inj h
          obtain ⟨hframe, hsame | ⟨d, hdeliveries, hnormalize⟩⟩ := dispatchInbound_spec hdispatch
          · exact ⟨hframe, .inl hsame⟩
          · exact ⟨hframe,
              .inr ⟨batch, raw, rest, d, rfl, hbatch, hrest, hdeliveries, hnormalize⟩⟩
        · obtain rfl := Option.some.inj h
          exact ⟨rfl, .inl rfl⟩
    · obtain ⟨batch, _, h⟩ := Option.bind_eq_some_iff.1 h
      obtain rfl := Option.some.inj h
      exact ⟨rfl, .inl rfl⟩
    · obtain rfl := Option.some.inj h
      exact ⟨rfl, .inl rfl⟩
    · obtain rfl := Option.some.inj h
      split <;> exact ⟨rfl, .inl rfl⟩
    all_goals cases hsend

theorem outbound_of_not_isSend (h : b.step timeoutMs action = some b')
    (hsend : action.isSend = false) : b'.outbound = b.outbound :=
  (step_spec_of_not_isSend h hsend).1

/-- An event goes to a handler in the loop over a batch only. -/
theorem deliveries_step (h : b.step timeoutMs action = some b') (hsend : action.isSend = false) :
    b'.deliveries = b.deliveries ∨ ∃ batch raw rest d, action = .dispatch ∧
      b.batch = some batch ∧ batch.rest = raw :: rest ∧ b'.deliveries = d :: b.deliveries ∧
        normalizeBaileysMessage raw
          { selfJids := some b.conn.selfJids, sentWamids := some b.sentWamids } =
            .ok (some d.event) :=
  (step_spec_of_not_isSend h hsend).2

end WhatsAppBaileysBackend
end TheokitGateways.WhatsApp.Baileys
