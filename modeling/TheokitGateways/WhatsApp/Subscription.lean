import TheokitGateways.Gateway.Subscription
import TheokitGateways.Irc.Adapter
import TheokitGateways.Line.Adapter
import TheokitGateways.Mattermost.Adapter
import TheokitGateways.Slack.Adapter
import TheokitGateways.WhatsApp.Baileys.Backend
import TheokitGateways.WhatsApp.CloudBackend
import TheokitGateways.WhatsApp.Web.Backend

/-!
# WhatsApp: the subscription that is kept twice

The adapter keeps the handler for what is delivered to it, and subscribes a bridge
of its own to its backend for what arrives there. A stale unsubscribe function takes
the handler and leaves the bridge: messages go on to it, and the function that is
its own, which compares the handler too, no longer ends it.
-/

namespace TheokitGateways.WhatsApp
open Gateway Js Transition

variable {H : Type}

/-- The closure that a call of `onInbound` hands its backend, which calls the handler. -/
structure Bridge (H : Type) where
  call : Nat
  handler : H
  deriving DecidableEq

structure Inbound (H : Type) where
  handler : Option H := none
  /-- The bridge that `inboundUnsubscribe` takes away. -/
  inboundUnsubscribe : Option (Bridge H) := none
  /-- The bridge that the backend calls. -/
  backend : Option (Bridge H) := none

variable [DecidableEq H]

def Inbound.onInbound (call : Nat) (handler : H) (a : Inbound H) : Inbound H :=
  let backend := match a.inboundUnsubscribe with
    | none => a.backend
    | some previous => handlerField.unsubscribe previous.call previous a.backend
  { handler := some handler
    inboundUnsubscribe := some ⟨call, handler⟩
    backend := handlerField.onInbound call ⟨call, handler⟩ backend }

/-- The function that the call of `onInbound` returned. -/
def Inbound.unsubscribe (call : Nat) (handler : H) (a : Inbound H) : Inbound H :=
  if a.handler = some handler then
    { handler := none
      inboundUnsubscribe := none
      backend := handlerField.unsubscribe call ⟨call, handler⟩ a.backend }
  else a

/-- What is delivered goes to the handler, and what the backend receives to its bridge. -/
def inbound : InboundMechanism H (Inbound H) where
  onInbound := Inbound.onInbound
  unsubscribe := Inbound.unsubscribe
  routes a := [a.handler, a.backend.map Bridge.handler]

/-- Handler and bridge are those of the owner. -/
structure Shows (a : Inbound H) (owner : Option (Nat × H)) : Prop where
  handler : a.handler = owner.map Prod.snd
  backend : a.backend = owner.map fun owner => ⟨owner.1, owner.2⟩

theorem represents_inbound : Represents (inbound (H := H)) Shows where
  routes {a owner} h route hroute := by
    simp only [inbound, h.handler, h.backend, List.mem_cons, List.not_mem_nil, or_false] at hroute
    rcases hroute with rfl | rfl
    · rfl
    · cases owner <;> rfl
  onInbound call handler h := ⟨rfl, rfl⟩
  own {a call handler} h := by
    obtain ⟨hhandler, hbackend⟩ := h
    constructor <;> simp_all [inbound, Inbound.unsubscribe, handlerField]
  idle {a} call handler h := by
    have hnone : a.handler ≠ some handler := by simp [h.handler]
    simpa [inbound, Inbound.unsubscribe, hnone] using h
  other {a call handler owner} h _ hne := by
    have hother : a.handler ≠ some handler := by simp [h.handler, hne]
    simpa [inbound, Inbound.unsubscribe, hother] using h
  stale {a call owner} h _ := by
    simp [inbound, Inbound.unsubscribe, h.handler]

/-- Messages go to whom they should, in every state of a run of an adapter with one field and of
WhatsApp's, exactly when no stale function of the handler that is subscribed is called. -/
theorem subscription_owned_iff {as : List (SubscriptionAction H)}
    {s : Subscriptions H (Option H)} {w : Subscriptions H (Inbound H)}
    (hs : run (Subscriptions.step handlerField) { adapter := none } as = some s)
    (hw : run (Subscriptions.step inbound) { adapter := {} } as = some w) :
    (Always (Subscriptions.step handlerField) (Subscriptions.Owned handlerField)
        { adapter := none } as ↔
      Meets (Subscriptions.step handlerField) Subscriptions.Own { adapter := none } as) ∧
    (Always (Subscriptions.step inbound) (Subscriptions.Owned inbound) { adapter := {} } as ↔
      Meets (Subscriptions.step inbound) Subscriptions.Own { adapter := {} } as) := by
  constructor
  · exact Subscriptions.always_owned_iff represents_handlerField ⟨rfl, nofun⟩ hs
  · exact Subscriptions.always_owned_iff represents_inbound ⟨⟨rfl, rfl⟩, nofun⟩ hw

/-- A handler is subscribed, another one after it, and the first function called twice. -/
def replaced : List (SubscriptionAction Nat) :=
  [.onInbound 0, .onInbound 1, .unsubscribe 0, .unsubscribe 0, .unsubscribe 1]

theorem subscription_owned_iff_replaced :
    ∃ s w, run (Subscriptions.step handlerField) { adapter := none } replaced = some s ∧
      run (Subscriptions.step inbound) { adapter := {} } replaced = some w ∧
      Always (Subscriptions.step handlerField) (Subscriptions.Owned handlerField)
        { adapter := none } replaced ∧
      Always (Subscriptions.step inbound) (Subscriptions.Owned inbound) { adapter := {} }
        replaced := by
  have hs : run (Subscriptions.step handlerField) { adapter := none } replaced = some _ := rfl
  have hw : run (Subscriptions.step inbound) { adapter := {} } replaced = some _ := rfl
  obtain ⟨hfield, hinbound⟩ := subscription_owned_iff hs hw
  exact ⟨_, _, hs, hw, hfield.2 (by decide), hinbound.2 (by decide)⟩

/-- One handler is subscribed twice, and then the function of the first call is called. -/
def subscribedTwice : List (SubscriptionAction Nat) := [.onInbound 0, .onInbound 0, .unsubscribe 0]

/-- It takes the handler of the second subscription; in WhatsApp's adapter the bridge remains, also
when the second function is called. -/
theorem stale_unsubscribe_ends :
    ¬Always (Subscriptions.step handlerField) (Subscriptions.Owned handlerField)
        { adapter := none } subscribedTwice ∧
      ¬Always (Subscriptions.step inbound) (Subscriptions.Owned inbound) { adapter := {} }
        (subscribedTwice ++ [.unsubscribe 1]) := by
  constructor
  · intro h
    have hnone := h subscribedTwice _ List.prefix_rfl rfl none (List.mem_singleton_self _)
    cases hnone
  · intro h
    -- after its own function was called, the bridge is still the backend's
    have hsome := h _ _ List.prefix_rfl rfl (some 0) (List.mem_cons_of_mem _ (.head _))
    cases hsome

/-! ## The adapters and the backends with one field -/

section

variable {S A : Type} {step : S → A → Option S} {field : S → Option H}
  {onInbound unsubscribe : H → A}

/-- The steps of an adapter or a backend keep its handler in one field. -/
def KeepsField (step : S → A → Option S) (field : S → Option H) (onInbound unsubscribe : H → A) :
    Prop :=
  ∀ (s : S) (call : Nat) (handler : H),
    (step s (onInbound handler)).map field =
      some (handlerField.onInbound call handler (field s)) ∧
    (step s (unsubscribe handler)).map field =
      some (handlerField.unsubscribe call handler (field s))

theorem keepsField_of_steps (set : S → Option H → S)
    (hset : ∀ s handler, field (set s handler) = handler)
    (honInbound : ∀ s handler, step s (onInbound handler) = some (set s (some handler)))
    (hunsubscribe : ∀ s handler, step s (unsubscribe handler) =
      some (if field s = some handler then set s none else s)) :
    KeepsField step field onInbound unsubscribe := by
  refine fun s call handler => ⟨?_, ?_⟩
  · rw [honInbound, Option.map_some, hset]
    rfl
  · rw [hunsubscribe, Option.map_some, apply_ite field, hset]
    rfl

/-- The adapter's own steps as a way to keep the subscription. -/
def fieldOf (step : S → A → Option S) (field : S → Option H) (onInbound unsubscribe : H → A) :
    InboundMechanism H S where
  onInbound _ handler s := (step s (onInbound handler)).getD s
  unsubscribe _ handler s := (step s (unsubscribe handler)).getD s
  routes s := [field s]

/-- Steps that keep one field show the owner as the field does. -/
theorem represents_fieldOf (h : KeepsField step field onInbound unsubscribe) :
    Represents (fieldOf step field onInbound unsubscribe)
      fun s owner => field s = owner.map Prod.snd := by
  have hsubscribe (s : S) (call : Nat) (handler : H) :
      field ((step s (onInbound handler)).getD s) =
        handlerField.onInbound call handler (field s) := by
    obtain ⟨t, ht, hfield⟩ := Option.map_eq_some_iff.mp (h s call handler).1
    rw [ht, Option.getD_some, hfield]
  have hunsubscribe (s : S) (call : Nat) (handler : H) :
      field ((step s (unsubscribe handler)).getD s) =
        handlerField.unsubscribe call handler (field s) := by
    obtain ⟨t, ht, hfield⟩ := Option.map_eq_some_iff.mp (h s call handler).2
    rw [ht, Option.getD_some, hfield]
  have hkept := represents_handlerField (H := H)
  exact {
    routes := fun hs route hroute => (List.mem_singleton.mp hroute).trans hs
    onInbound := fun call handler hs => (hsubscribe _ call handler).trans rfl
    own := fun {s call handler} hs => (hunsubscribe s call handler).trans (hkept.own hs)
    idle := fun {s} call handler hs =>
      (hunsubscribe s call handler).trans (hkept.idle call handler hs)
    other := fun {s call handler owner} hs hne hother =>
      (hunsubscribe s call handler).trans (hkept.other hs hne hother)
    stale := fun {s call owner} hs hne => by
      refine List.mem_singleton.mpr (Eq.symm ((hunsubscribe s call owner.2).trans ?_))
      exact (List.mem_singleton.mp (hkept.stale hs hne)).symm }

/-- An adapter that keeps one field serves the owner in the runs without stale functions. -/
theorem KeepsField.always_owned_iff (h : KeepsField step field onInbound unsubscribe) {s : S}
    (hs : field s = none) {as : List (SubscriptionAction H)} {t : Subscriptions H S}
    (hrun : run (Subscriptions.step (fieldOf step field onInbound unsubscribe))
      { adapter := s } as = some t) :
    Always (Subscriptions.step (fieldOf step field onInbound unsubscribe))
        (Subscriptions.Owned (fieldOf step field onInbound unsubscribe)) { adapter := s } as ↔
      Meets (Subscriptions.step (fieldOf step field onInbound unsubscribe)) Subscriptions.Own
        { adapter := s } as :=
  Subscriptions.always_owned_iff (represents_fieldOf h) ⟨hs, nofun⟩ hrun

end

theorem keepsField_cloud (hmacSha256 : JsString → List UInt8 → List UInt8)
    (opts : WhatsAppCloudBackendOptions) :
    KeepsField (WhatsAppCloudBackend.step hmacSha256 opts) WhatsAppCloudBackend.inboundHandler
      .onInbound .offInbound :=
  keepsField_of_steps (fun b handler => { b with inboundHandler := handler })
    (fun _ _ => rfl) (fun _ _ => rfl) fun _ _ => rfl

theorem keepsField_web (timeoutMs : JsString) :
    KeepsField (Web.WhatsAppWebBackend.step timeoutMs) Web.WhatsAppWebBackend.inboundHandler
      .onInbound .offInbound := by
  refine keepsField_of_steps (fun b handler => { b with inboundHandler := handler })
    (fun _ _ => rfl) (fun b handler => ?_) fun b handler => ?_ <;>
  simp [Web.WhatsAppWebBackend.step, Web.Action.isCall]

theorem keepsField_baileys (timeoutMs : JsString) :
    KeepsField (Baileys.WhatsAppBaileysBackend.step timeoutMs)
      Baileys.WhatsAppBaileysBackend.inboundHandler .onInbound .offInbound := by
  refine keepsField_of_steps (fun b handler => { b with inboundHandler := handler })
    (fun _ _ => rfl) (fun b handler => ?_) fun b handler => ?_ <;>
  simp [Baileys.WhatsAppBaileysBackend.step, Baileys.Action.isCall]

theorem keepsField_irc (m : CaseMapping) (opts : Irc.IrcAdapterOptions) :
    KeepsField (Irc.IrcAdapter.step m opts) Irc.IrcAdapter.handler .onInbound .unsubscribe :=
  keepsField_of_steps (fun a handler => { a with handler }) (fun _ _ => rfl) (fun _ _ => rfl)
    fun _ _ => rfl

theorem keepsField_mattermost :
    KeepsField Mattermost.MattermostAdapter.step Mattermost.MattermostAdapter.inboundHandler
      .onInbound .offInbound :=
  keepsField_of_steps (fun s handler => { s with inboundHandler := handler }) (fun _ _ => rfl)
    (fun _ _ => rfl) fun _ _ => rfl

theorem keepsField_slack (requireMention : Option Bool) :
    KeepsField (Slack.SlackAdapter.step requireMention) Slack.SlackAdapter.handler
      .onInbound .offInbound :=
  keepsField_of_steps (fun s handler => { s with handler }) (fun _ _ => rfl) (fun _ _ => rfl)
    fun _ _ => rfl

theorem keepsField_line (segment : JsString → List JsString) :
    KeepsField (Line.LineState.step segment) (fun w => w.adapter.inboundHandler)
      .onInbound .unsubscribe :=
  keepsField_of_steps
    (fun w handler => { w with adapter := { w.adapter with inboundHandler := handler } })
    (fun _ _ => rfl) (fun _ _ => rfl) fun _ _ => rfl

end TheokitGateways.WhatsApp
