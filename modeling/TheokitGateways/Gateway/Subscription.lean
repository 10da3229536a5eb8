import TheokitGateways.Transition

/-!
# Who owns the inbound subscription

Messages go to the handler of the latest `onInbound` until its own unsubscribe
function is called. An adapter keeps the handler, and the unsubscribe functions tell
whether it is still theirs by comparing functions: two calls with one function are
one to them, and the function that the first returned ends the subscription of the
second.
-/

namespace TheokitGateways.Gateway
open Transition

variable {H S : Type}

/-- How an adapter keeps its subscription: what `onInbound` does as the call of this number, what
the function that it returned does, and who gets a message, for every way one comes in. -/
structure InboundMechanism (H S : Type) where
  onInbound : Nat → H → S → S
  unsubscribe : Nat → H → S → S
  routes : S → List (Option H)

/-- An adapter, the handlers of the calls of `onInbound` so far, and the call whose subscription
has not ended. -/
structure Subscriptions (H S : Type) where
  adapter : S
  calls : List H := []
  owner : Option (Nat × H) := none

inductive SubscriptionAction (H : Type) where
  | onInbound (handler : H)
  /-- The function that this call returned is called. -/
  | unsubscribe (call : Nat)

namespace Subscriptions

variable (m : InboundMechanism H S)

def step (s : Subscriptions H S) : SubscriptionAction H → Option (Subscriptions H S)
  | .onInbound handler =>
    some { adapter := m.onInbound s.calls.length handler s.adapter
           calls := s.calls ++ [handler]
           owner := some (s.calls.length, handler) }
  | .unsubscribe call => do
    let handler ← s.calls[call]?
    return { s with
      adapter := m.unsubscribe call handler s.adapter
      owner := s.owner.filter fun owner => owner.1 ≠ call }

/-- Messages go to the handler of the subscription that has not ended, or to none. -/
def Owned (s : Subscriptions H S) : Prop :=
  ∀ route ∈ m.routes s.adapter, route = s.owner.map Prod.snd

/-- No function of an earlier call with the handler that is subscribed now is called. -/
def Own (s : Subscriptions H S) : SubscriptionAction H → Prop
  | .onInbound _ => True
  | .unsubscribe call => ∀ owner ∈ s.owner, owner.1 ≠ call → s.calls[call]? ≠ some owner.2

instance [DecidableEq H] (s : Subscriptions H S) : ∀ action, Decidable (s.Own action)
  | .onInbound _ => inferInstanceAs (Decidable True)
  | .unsubscribe call => inferInstanceAs (Decidable (∀ owner ∈ s.owner, owner.1 ≠ call →
      s.calls[call]? ≠ some owner.2))

end Subscriptions

/-- What an adapter's state shows of the subscription that has not ended, and how the functions
change it. -/
structure Represents (m : InboundMechanism H S) (R : S → Option (Nat × H) → Prop) : Prop where
  routes : ∀ {a owner}, R a owner → ∀ route ∈ m.routes a, route = owner.map Prod.snd
  onInbound : ∀ {a owner} (call : Nat) (handler : H), R a owner →
    R (m.onInbound call handler a) (some (call, handler))
  own : ∀ {a call handler}, R a (some (call, handler)) → R (m.unsubscribe call handler a) none
  idle : ∀ {a} (call : Nat) (handler : H), R a none → R (m.unsubscribe call handler a) none
  other : ∀ {a call handler} {owner : Nat × H}, R a (some owner) → owner.1 ≠ call →
    owner.2 ≠ handler → R (m.unsubscribe call handler a) (some owner)
  /-- One way in at least loses its handler to a stale function. -/
  stale : ∀ {a call} {owner : Nat × H}, R a (some owner) → owner.1 ≠ call →
    none ∈ m.routes (m.unsubscribe call owner.2 a)

namespace Subscriptions

variable {m : InboundMechanism H S} {R : S → Option (Nat × H) → Prop}

/-- The adapter shows the owner, which is one of the calls. -/
structure Shown (R : S → Option (Nat × H) → Prop) (s : Subscriptions H S) : Prop where
  shows : R s.adapter s.owner
  called : ∀ owner ∈ s.owner, s.calls[owner.1]? = some owner.2

theorem shown_of_own (hm : Represents m R) {s t : Subscriptions H S} {a : SubscriptionAction H}
    (h : s.Shown R) (hown : s.Own a) (hstep : s.step m a = some t) : t.Shown R := by
  cases a with
  | onInbound handler =>
    obtain ⟨⟩ := hstep
    refine ⟨hm.onInbound _ _ h.shows, fun owner howner => ?_⟩
    obtain ⟨⟩ := howner
    simp
  | unsubscribe call =>
    obtain ⟨handler, hcall, hstep⟩ := Option.bind_eq_some_iff.mp hstep
    obtain ⟨⟩ := hstep
    refine ⟨?_, fun owner howner => h.called owner (Option.mem_filter_iff.mp howner).1⟩
    have hshows := h.shows
    cases howner : s.owner with
    | none =>
      rw [howner] at hshows
      exact hm.idle call handler hshows
    | some owner =>
      have hcalled := h.called owner howner
      rw [howner] at hshows
      by_cases hsame : owner.1 = call
      · have hhandler : handler = owner.2 := by
          rw [hsame, hcall] at hcalled
          exact Option.some.inj hcalled
        subst hsame hhandler
        simpa [Option.filter] using hm.own hshows
      · have hhandler : owner.2 ≠ handler := by
          rintro rfl
          exact hown owner howner hsame hcall
        simpa [Option.filter, hsame] using hm.other hshows hsame hhandler

theorem own_of_owned (hm : Represents m R) {s t : Subscriptions H S} {a : SubscriptionAction H}
    (h : s.Shown R) (hstep : s.step m a = some t) (howned : t.Owned m) : s.Own a := by
  cases a with
  | onInbound handler => trivial
  | unsubscribe call =>
    obtain ⟨handler, hcall, hstep⟩ := Option.bind_eq_some_iff.mp hstep
    obtain ⟨⟩ := hstep
    rintro owner howner hother hsame
    obtain rfl : handler = owner.2 := Option.some.inj (hcall.symm.trans hsame)
    have hshows := h.shows
    rw [howner] at hshows
    -- the stale function leaves a way in without a handler, while the owner has not ended
    have hnone := howned none (hm.stale hshows hother)
    have hfilter : s.owner.filter (fun owner => owner.1 ≠ call) = some owner := by
      simp [Option.mem_def.mp howner, Option.filter, hother]
    simp only [hfilter, Option.map_some] at hnone
    cases hnone

/-- An adapter that shows the owner keeps to it exactly in the runs without stale functions. -/
theorem always_owned_iff (hm : Represents m R) {s t : Subscriptions H S}
    {as : List (SubscriptionAction H)} (hs : s.Shown R) (hrun : run (step m) s as = some t) :
    Always (step m) (Owned m) s as ↔ Meets (step m) Own s as := by
  refine always_iff_meets_of (I := Shown R) (fun s h => hm.routes h.shows)
    (fun s a t h hstep => ?_) hs hrun
  exact ⟨own_of_owned hm h hstep, fun hown => shown_of_own hm h hown hstep⟩

end Subscriptions

/-! ## One field

Every adapter but WhatsApp's, and every backend of WhatsApp, keeps the handler in one field. -/

variable [DecidableEq H]

/-- `this.handler`, which is also what `deliver` reads. -/
def handlerField : InboundMechanism H (Option H) where
  onInbound _ handler _ := some handler
  unsubscribe _ handler current := if current = some handler then none else current
  routes current := [current]

theorem represents_handlerField :
    Represents (handlerField (H := H)) fun a owner => a = owner.map Prod.snd where
  routes h route hroute := by
    rw [List.mem_singleton.mp hroute, h]
  onInbound _ _ _ := rfl
  own h := by simp [handlerField, h]
  idle call handler h := by simp [handlerField, h]
  other h _ hne := by simp [handlerField, h, hne]
  stale h _ := by simp [handlerField, h]

end TheokitGateways.Gateway
