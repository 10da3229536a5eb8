import TheokitGateways.WhatsApp.Acceptance
import TheokitGateways.WhatsApp.Adapter

/-!
# The two ways a Cloud message reaches the agent

A route pulls the events of an envelope with `toDeliverableEvents`, or pushes the
body through the backend, whose bridge decides each message. Both decide alike,
but each normalizes the envelope itself and so stamps a message that has no
usable timestamp with its own reading of the clock.
-/

namespace TheokitGateways.WhatsApp
open Js Gateway Transition

/-- A normalized message without the reading of the clock it holds. -/
def WhatsAppInboundEvent.withoutClock (e : WhatsAppInboundEvent) : WhatsAppInboundEvent :=
  if givesTime (e.raw.get (js "timestamp")) then e else { e with receivedAt := 0 }

/-! ## What another reading of the clock changes -/

theorem collect_congr {α β γ ε : Type} {f g : α → Except ε (List β)} {p : β → γ} {as : List α}
    (h : ∀ a ∈ as, (f a).map (List.map p) = (g a).map (List.map p)) :
    (collect f as).map (List.map p) = (collect g as).map (List.map p) := by
  induction as with
  | nil => rfl
  | cons a as ih =>
    obtain ⟨ha, has⟩ := List.forall_mem_cons.1 h
    have hrest := ih has
    rw [collect, collect]
    cases hf : f a <;> cases hg : g a <;> rw [hf, hg] at ha
    · exact congrArg Except.error (Except.error.inj ha)
    · cases ha
    · cases ha
    · have hhead := Except.ok.inj ha
      cases hfs : collect f as <;> cases hgs : collect g as <;> rw [hfs, hgs] at hrest
      · exact congrArg Except.error (Except.error.inj hrest)
      · cases hrest
      · cases hrest
      · have htail := Except.ok.inj hrest
        refine congrArg Except.ok ?_
        rw [List.map_append, List.map_append, hhead, htail]

theorem millis_of_toNumber {timestamp : Json} {n : JsNumber} (h : timestamp.toNumber = .ok n)
    (now : JsNumber) : millis (some timestamp) now =
      .ok (if n * 1000 = .nan ∨ n * 1000 = 0 then now else n * 1000) := by
  dsimp only [millis]
  rw [h]
  rfl

/-- A timestamp that gives a time does so whatever the clock says. -/
theorem millis_of_givesTime {timestamp : Option Json} (h : givesTime timestamp = true)
    (now now' : JsNumber) : millis timestamp now = millis timestamp now' := by
  unfold givesTime at h
  split at h
  · cases h
  · rename_i timestamp
    split at h
    · rename_i n hn
      have hne : ¬(n * 1000 = .nan ∨ n * 1000 = 0) := not_or.2 (of_decide_eq_true h)
      rw [millis_of_toNumber hn, millis_of_toNumber hn, if_neg hne, if_neg hne]
    · cases h

theorem normalizeOneMessage_clock (phoneNumberId : Option JsString)
    (contacts : OrderedMap JsString (Option JsString)) (now now' : JsNumber) (msg : Json) :
    (normalizeOneMessage phoneNumberId contacts now msg).map
        (List.map WhatsAppInboundEvent.withoutClock) =
      (normalizeOneMessage phoneNumberId contacts now' msg).map
        (List.map WhatsAppInboundEvent.withoutClock) := by
  unfold normalizeOneMessage
  split
  · rfl
  · by_cases htime : givesTime (msg.get (js "timestamp")) = true
    · rw [millis_of_givesTime htime now now']
    · cases htimestamp : msg.get (js "timestamp") with
      | none =>
        refine congrArg Except.ok ?_
        simp [WhatsAppInboundEvent.withoutClock, htimestamp, givesTime]
      | some timestamp =>
        cases hn : timestamp.toNumber with
        | error message => simp [millis, hn, bind, Except.bind]
        | ok n =>
          rw [htimestamp] at htime
          rw [millis_of_toNumber hn, millis_of_toNumber hn]
          refine congrArg Except.ok ?_
          simp [WhatsAppInboundEvent.withoutClock, htimestamp, htime]

/-- Two passes over an envelope give the same events, up to the readings of the clock. -/
theorem normalizeInboundMessages_clock (envelope : MetaWebhookEnvelope) (now now' : JsNumber) :
    (normalizeInboundMessages envelope now).map (List.map WhatsAppInboundEvent.withoutClock) =
      (normalizeInboundMessages envelope now').map
        (List.map WhatsAppInboundEvent.withoutClock) := by
  unfold normalizeInboundMessages
  refine collect_congr fun change _ => ?_
  unfold processChange
  split
  · rfl
  · rfl
  · exact collect_congr fun msg _ => normalizeOneMessage_clock _ _ now now' msg

namespace WhatsAppAdapter

/-- The decision does not read the time. -/
theorem decide_withoutClock (adapter : WhatsAppAdapter) (e : WhatsAppInboundEvent) :
    adapter.decide e.withoutClock =
      (adapter.decide e).map WhatsAppMessageEvent.withoutClock := by
  have hfields : e.withoutClock.phoneNumberId = e.phoneNumberId ∧
      isRefusedBySenderAllowlist e.withoutClock = isRefusedBySenderAllowlist e ∧
      shouldDropGroupMessage e.withoutClock = shouldDropGroupMessage e := by
    unfold WhatsAppInboundEvent.withoutClock
    split <;> exact ⟨rfl, rfl, rfl⟩
  have hevent : toMessageEvent e.withoutClock = (toMessageEvent e).withoutClock := by
    unfold WhatsAppInboundEvent.withoutClock WhatsAppMessageEvent.withoutClock
    split
    · rw [if_pos ‹_›]
    · rw [if_neg ‹_›]
      rfl
  unfold decide decideForOwnNumber decideInbound
  rw [hfields.1, hfields.2.1, hfields.2.2, hevent]
  split
  · rfl
  · split
    · rfl
    · split <;> rfl

theorem filterMap_decide_withoutClock (adapter : WhatsAppAdapter)
    (events : List WhatsAppInboundEvent) :
    (events.map WhatsAppInboundEvent.withoutClock).filterMap adapter.decide =
      (events.filterMap adapter.decide).map WhatsAppMessageEvent.withoutClock := by
  rw [List.filterMap_map, List.map_filterMap]
  exact congrArg (List.filterMap · events) (funext adapter.decide_withoutClock)

/-! ## The two paths -/

variable {number : JsString} {options : WhatsAppAdapterCommonOptions}

/-- A Cloud adapter decides each message of an envelope. -/
theorem toDeliverableEvents_eq (envelope : MetaWebhookEnvelope) (now : JsNumber) :
    (new (some number) options).toDeliverableEvents envelope now =
      ((normalizeInboundMessages envelope now).mapError Call.typeError).map
        (List.filterMap (new (some number) options).decide) := by
  have hevent (e : WhatsAppInboundEvent) :
      (new (some number) options).toDeliverableEvent e =
        .ok ((new (some number) options).decide e) := by
    unfold toDeliverableEvent
    split <;> rfl
  have hcollect (es : List WhatsAppInboundEvent) :
      collect (ε := JsAny) (fun e => .ok ((new (some number) options).decide e).toList) es =
        .ok (es.filterMap (new (some number) options).decide) := by
    induction es with
    | nil => rfl
    | cons e es ih =>
      rw [collect, ih]
      cases h : (new (some number) options).decide e with
      | none => rw [List.filterMap_cons_none h]; rfl
      | some event => rw [List.filterMap_cons_some h]; rfl
  unfold toDeliverableEvents
  simp only [hevent]
  cases (normalizeInboundMessages envelope now).mapError Call.typeError with
  | error err => rfl
  | ok es => exact hcollect es

/-- Two pulls give the same events, up to the readings of the clock. -/
theorem toDeliverableEvents_clock (envelope : MetaWebhookEnvelope) (now now' : JsNumber) :
    ((new (some number) options).toDeliverableEvents envelope now).map
        (List.map WhatsAppMessageEvent.withoutClock) =
      ((new (some number) options).toDeliverableEvents envelope now').map
        (List.map WhatsAppMessageEvent.withoutClock) := by
  have hclock := normalizeInboundMessages_clock envelope now now'
  rw [toDeliverableEvents_eq, toDeliverableEvents_eq]
  cases h : normalizeInboundMessages envelope now <;>
    cases h' : normalizeInboundMessages envelope now' <;> rw [h, h'] at hclock
  · cases hclock
    rfl
  · cases hclock
  · cases hclock
  · refine congrArg Except.ok ?_
    rw [← filterMap_decide_withoutClock, ← filterMap_decide_withoutClock, Except.ok.inj hclock]

/-- What is for another number is dropped by the decision as well. -/
theorem filterMap_decide_own (events : List WhatsAppInboundEvent) :
    (events.filter fun e => !isForAnotherNumber e.phoneNumberId (some number)).filterMap
        (new (some number) options).decide =
      events.filterMap (new (some number) options).decide := by
  rw [List.filterMap_filter]
  refine congrArg (List.filterMap · events) (funext fun e => ?_)
  unfold decide decideForOwnNumber
  cases h : isForAnotherNumber e.phoneNumberId (some number) with
  | false => rfl
  | true => simp [new, h]

/-- What a bridge passed on is what the decisions on the events make of what it was handed. -/
theorem delivered_eq (adapter : WhatsAppAdapter) (bridge : Handler) (c : Call) :
    adapter.delivered bridge c =
      (c.handed.map fun p => (some p.1, p.2)).filterMap
        fun q => if q.1 = some bridge then adapter.decide q.2 else none := by
  rw [delivered, List.filterMap_filter, List.filterMap_map]
  refine congrArg (List.filterMap · c.handed) (funext fun p => ?_)
  simp

/-- A call passes on a first part of what a pull with its reading of the clock gives, and all of
it when it answers true. -/
theorem delivered_of_tracks {c : Call} (h : c.Tracks number) {envelope : MetaWebhookEnvelope}
    {now : JsNumber} {bridge : Handler} (ha : c.accepted = some ⟨envelope, now, some bridge⟩)
    {all : List WhatsAppInboundEvent} (hall : normalizeInboundMessages envelope now = .ok all) :
    (new (some number) options).delivered bridge c <+:
        all.filterMap (new (some number) options).decide ∧
      (c.stage = .settled (.ok true) → (new (some number) options).delivered bridge c =
        all.filterMap (new (some number) options).decide) := by
  have hevents : Accepted.events number ⟨envelope, now, some bridge⟩ =
      .ok (all.filter fun e => !isForAnotherNumber e.phoneNumberId (some number)) := by
    simp [Accepted.events, hall, Except.map]
  have hbridge (es : List WhatsAppInboundEvent) :
      ((es.map (some bridge, ·)).filterMap fun q =>
        if q.1 = some bridge then (new (some number) options).decide q.2 else none) =
          es.filterMap (new (some number) options).decide := by
    rw [List.filterMap_map]
    refine congrArg (List.filterMap · es) (funext fun e => ?_)
    simp
  rw [delivered_eq, ← filterMap_decide_own, ← hbridge]
  constructor
  · by_cases hrefused : c.stage = .settled (.ok false)
    · have hprogress := h.progress
      rw [Call.Progress, hrefused] at hprogress
      rw [hprogress.1]
      exact List.nil_prefix
    · obtain ⟨events, heq, hprefix⟩ := h.inOrder hrefused _ ha
      obtain rfl := Except.ok.inj (heq.symm.trans hevents)
      exact hprefix.filterMap _
  · intro hstage
    have hprogress := h.progress
    rw [Call.Progress, hstage] at hprogress
    obtain ⟨a, events, ha', heq, hhanded⟩ := hprogress
    obtain rfl := Option.some.inj (ha'.symm.trans ha)
    obtain rfl := Except.ok.inj (heq.symm.trans hevents)
    rw [hhanded]

end WhatsAppAdapter

/-! ## A call in a run -/

namespace Call
variable {hmacSha256 : JsString → List UInt8 → List UInt8} {opts : WhatsAppCloudBackendOptions}

/-- Going on, a call keeps what it accepted; it does not go on once it has settled. -/
structure Follows (c c' : Call) : Prop where
  accepted : c'.accepted = c.accepted
  settled : ∀ answer, c.stage = .settled answer → c' = c

theorem Follows.refl (c : Call) : c.Follows c := ⟨rfl, fun _ _ => rfl⟩

theorem Follows.trans {c c' c'' : Call} (h : c.Follows c') (h' : c'.Follows c'') :
    c.Follows c'' := by
  refine ⟨h'.accepted.trans h.accepted, fun answer hstage => ?_⟩
  have heq := h.settled answer hstage
  rw [h'.settled answer (heq ▸ hstage), heq]

theorem follows_go {c c' : Call} {statusHandler : Option Handler} {now : JsNumber}
    (h : c.go opts statusHandler now = some c') : c.Follows c' := by
  constructor
  · unfold go dispatchStatusReceipt at h
    grind
  · intro answer hstage
    unfold go at h
    rw [hstage] at h
    cases h

theorem follows_settle {c c' : Call} {settled : Except JsAny Unit}
    (h : c.settle settled = some c') : c.Follows c' := by
  constructor
  · unfold settle at h
    grind
  · intro answer hstage
    unfold settle at h
    rw [hstage] at h
    cases h

end Call

namespace WhatsAppCloudBackend
variable {hmacSha256 : JsString → List UInt8 → List UInt8} {opts : WhatsAppCloudBackendOptions}

theorem follows_step {b b' : WhatsAppCloudBackend} {action : Action}
    (h : step hmacSha256 opts b action = some b') {k : Nat} {c : Call}
    (hc : b.calls[k]? = some c) : ∃ c', b'.calls[k]? = some c' ∧ c.Follows c' := by
  have hset {j : Nat} {d d' : Call} (hd : b.calls[j]? = some d) (hfollows : d.Follows d') :
      ∃ c', (b.calls.set j d')[k]? = some c' ∧ c.Follows c' := by
    by_cases hjk : j = k
    · subst hjk
      obtain rfl := Option.some.inj (hd.symm.trans hc)
      exact ⟨d', by simp [(List.getElem?_eq_some_iff.1 hc).1], hfollows⟩
    · exact ⟨c, by rw [List.getElem?_set_ne hjk, hc], .refl c⟩
  obtain ⟨_, _, _, _, hcalls⟩ | ⟨j, now, d, d', hd, hgo, hcalls⟩ |
    ⟨j, settled, d, d', _, hd, hsettle, hcalls⟩ | hcalls := calls_step h
  · refine ⟨c, ?_, .refl c⟩
    rw [hcalls, List.getElem?_append_left (List.getElem?_eq_some_iff.1 hc).1, hc]
  · rw [hcalls]
    exact hset hd (Call.follows_go hgo)
  · rw [hcalls]
    exact hset hd (Call.follows_settle hsettle)
  · rw [hcalls]
    exact ⟨c, hc, .refl c⟩

/-- A call stays where it is in a run, and goes on from what it was. -/
theorem follows_run {b b' : WhatsAppCloudBackend} {as : List Action}
    (hrun : run (step hmacSha256 opts) b as = some b') {k : Nat} {c : Call}
    (hc : b.calls[k]? = some c) : ∃ c', b'.calls[k]? = some c' ∧ c.Follows c' := by
  refine invariant (I := fun b => ∃ c', b.calls[k]? = some c' ∧ c.Follows c')
    (fun s a t hs hstep => ?_) ⟨c, hc, .refl c⟩ hrun
  obtain ⟨d, hd, hfollows⟩ := hs
  obtain ⟨d', hd', hfollows'⟩ := follows_step hstep hd
  exact ⟨d', hd', hfollows.trans hfollows'⟩

/-- Whatever a run does, what a webhook call has passed on to a handler is, up to the readings of
the clock, a first part of what a pull of its envelope gives, and all of it once the call has
answered true. -/
theorem delivered_agrees (hmacSha256 : JsString → List UInt8 → List UInt8)
    (opts : WhatsAppCloudBackendOptions) (options : WhatsAppAdapterCommonOptions)
    (as bs : List Action) (b b' : WhatsAppCloudBackend) (bridge : Handler)
    (rawBody : JsString ⊕ List UInt8) (signatureHeader : Option JsString) (now now' : JsNumber)
    (envelope : MetaWebhookEnvelope) (hrun : run (step hmacSha256 opts) {} as = some b)
    (hbridge : b.inboundHandler = some bridge)
    (hsigned : verifyWebhookSignature hmacSha256 rawBody signatureHeader opts.appSecret = .ok true)
    (henvelope : (jsonParse (bodyText rawBody)).bind parseWebhookPayload = some envelope)
    (hrun' : run (step hmacSha256 opts) b
      (.handleWebhookPayload rawBody signatureHeader now :: bs) = some b') :
    ∃ c, b'.calls[b.calls.length]? = some c ∧
      match (WhatsAppAdapter.new (some opts.phoneNumberId) options).toDeliverableEvents
        envelope now' with
      | .error err => c.stage = .settled (.error err) ∧ c.handed = []
      | .ok events =>
        let delivered := (WhatsAppAdapter.new (some opts.phoneNumberId) options).delivered bridge c
        delivered.map WhatsAppMessageEvent.withoutClock <+:
            events.map WhatsAppMessageEvent.withoutClock ∧
          (c.stage = .settled (.ok true) → delivered.map WhatsAppMessageEvent.withoutClock =
            events.map WhatsAppMessageEvent.withoutClock) ∧
          (c.stage = .settled (.ok true) → now' = now → delivered = events) := by
  have hrunAll : run (step hmacSha256 opts) {}
      (as ++ .handleWebhookPayload rawBody signatureHeader now :: bs) = _ := run_append ..
  rw [hrun, Option.bind_some, hrun'] at hrunAll
  obtain ⟨b₁, hstep, hrest⟩ := run_cons_eq_some.1 hrun'
  obtain rfl := Option.some.inj hstep
  have hcall : Call.handleWebhookPayload hmacSha256 opts rawBody signatureHeader now
      b.inboundHandler = Call.accept opts envelope now (some bridge) := by
    unfold Call.handleWebhookPayload
    rw [hsigned, henvelope, hbridge]
  obtain ⟨c, hc, hfollows⟩ := follows_run (k := b.calls.length) hrest
    (by rw [hcall, List.getElem?_append_right Nat.le.refl, Nat.sub_self]; rfl)
  refine ⟨c, hc, ?_⟩
  have htracks := tracks_run hrunAll c (List.mem_of_getElem? hc)
  have hclock := @WhatsAppAdapter.toDeliverableEvents_clock opts.phoneNumberId options envelope
    now now'
  have hnow := @WhatsAppAdapter.toDeliverableEvents_eq opts.phoneNumberId options envelope now
  cases hall : normalizeInboundMessages envelope now with
  | error message =>
    have hrejected : Call.accept opts envelope now (some bridge) =
        .rejected (Call.typeError message) := by rw [Call.accept, hall]
    rw [hrejected] at hfollows
    have hstays := hfollows.settled _ rfl
    rw [hnow, hall] at hclock
    cases hpull : (WhatsAppAdapter.new (some opts.phoneNumberId) options).toDeliverableEvents
      envelope now' with
    | error err =>
      rw [hpull] at hclock
      obtain rfl := Except.error.inj hclock
      exact ⟨by rw [hstays]; rfl, by rw [hstays]; rfl⟩
    | ok events =>
      rw [hpull] at hclock
      cases hclock
  | ok all =>
    have haccepted : (Call.accept opts envelope now (some bridge)).accepted =
        some ⟨envelope, now, some bridge⟩ := by rw [Call.accept, hall]
    obtain ⟨hpart, hwhole⟩ := @WhatsAppAdapter.delivered_of_tracks opts.phoneNumberId options _
      htracks _ _ _ (hfollows.accepted.trans haccepted) _ hall
    rw [hall] at hnow
    cases hpull : (WhatsAppAdapter.new (some opts.phoneNumberId) options).toDeliverableEvents
      envelope now' with
    | error err =>
      rw [hnow, hpull] at hclock
      cases hclock
    | ok events =>
      have hsame :
          (all.filterMap (WhatsAppAdapter.new (some opts.phoneNumberId) options).decide).map
            WhatsAppMessageEvent.withoutClock = events.map WhatsAppMessageEvent.withoutClock := by
        rw [hnow, hpull] at hclock
        exact Except.ok.inj hclock
      refine ⟨hsame ▸ hpart.map _, fun hstage => hsame ▸ congrArg _ (hwhole hstage),
        fun hstage heq => ?_⟩
      rw [heq, hnow] at hpull
      exact (hwhole hstage).trans (Except.ok.inj hpull)

/-- A body with a text message that has no timestamp. -/
def untimedBody : JsString := bodyOf [record [("type", text "text"), ("id", text "m"),
  ("from", text "5"), ("text", record [("body", text "hi")])]]

/-- The HMAC-SHA256 of `untimedBody` under the secret of `number`. -/
def untimedDigest : List UInt8 :=
  [0xfe, 0x97, 0x6b, 0x79, 0xb3, 0x19, 0x9d, 0xfa, 0x96, 0xae, 0x83, 0xf2, 0xf5, 0x96, 0xd3, 0x40,
    0xef, 0x6b, 0x16, 0xa1, 0x04, 0xcd, 0x6d, 0x95, 0x42, 0x9c, 0xfe, 0x9a, 0xaf, 0xdc, 0x71, 0x93]

/-- The HMAC of a run whose only body is `untimedBody`. -/
def untimedHmac : JsString → List UInt8 → List UInt8 := fun _ _ => untimedDigest

def untimedSignature : JsString := js "sha256=" ++ hexText untimedDigest

/-- The body comes in at the time 1, and its message is handled. -/
def untimed : List Action :=
  [.handleWebhookPayload (.inl untimedBody) (some untimedSignature) 1, .go 0 1, .settle 0 (.ok ()),
    .go 0 1, .go 0 1, .go 0 1]

/-- A handler is subscribed. -/
def subscribed : WhatsAppCloudBackend := { inboundHandler := some 0 }

theorem signed : verifyWebhookSignature untimedHmac (.inl untimedBody) (some untimedSignature)
    number.appSecret = .ok true := by
  unfold verifyWebhookSignature
  rw [if_neg (by decide +kernel)]
  dsimp only
  rw [if_neg (by decide +kernel), if_neg (by decide +kernel)]
  exact congrArg Except.ok (decide_eq_true (by decide +kernel))

def settledTrue : Stage → Bool
  | .settled (.ok true) => true
  | _ => false

theorem delivered_agrees_untimed :
    ∃ (b' : WhatsAppCloudBackend) (envelope : MetaWebhookEnvelope) (c : Call),
      b'.calls[0]? = some c ∧
      match (WhatsAppAdapter.new (some (js "1")) {}).toDeliverableEvents envelope 2 with
      | .error err => c.stage = .settled (.error err) ∧ c.handed = []
      | .ok events =>
        let delivered := (WhatsAppAdapter.new (some (js "1")) {}).delivered 0 c
        delivered.map WhatsAppMessageEvent.withoutClock <+:
            events.map WhatsAppMessageEvent.withoutClock ∧
          (c.stage = .settled (.ok true) → delivered.map WhatsAppMessageEvent.withoutClock =
            events.map WhatsAppMessageEvent.withoutClock) ∧
          (c.stage = .settled (.ok true) → (2 : JsNumber) = 1 → delivered = events) := by
  have hrun : (run (step untimedHmac number) subscribed untimed).isSome = true := by decide +kernel
  have hparse : ((jsonParse untimedBody).bind parseWebhookPayload).isSome = true := by
    decide +kernel
  obtain ⟨b', hb'⟩ := Option.isSome_iff_exists.1 hrun
  obtain ⟨envelope, henvelope⟩ := Option.isSome_iff_exists.1 hparse
  obtain ⟨c, hc, hagrees⟩ := delivered_agrees untimedHmac number {} [.onInbound 0]
    [.go 0 1, .settle 0 (.ok ()), .go 0 1, .go 0 1, .go 0 1] subscribed b' 0 (.inl untimedBody)
    (some untimedSignature) 1 2 envelope rfl rfl signed henvelope hb'
  exact ⟨b', envelope, c, hc, hagrees⟩

/-- A message without a timestamp is stamped with the reading of the path that normalizes it. -/
theorem clock_readings_differ :
    ¬ ∀ (hmacSha256 : JsString → List UInt8 → List UInt8) (opts : WhatsAppCloudBackendOptions)
      (options : WhatsAppAdapterCommonOptions) (as bs : List Action)
      (b b' : WhatsAppCloudBackend) (bridge : Handler) (rawBody : JsString ⊕ List UInt8)
      (signatureHeader : Option JsString) (now now' : JsNumber) (envelope : MetaWebhookEnvelope),
      run (step hmacSha256 opts) {} as = some b → b.inboundHandler = some bridge →
      verifyWebhookSignature hmacSha256 rawBody signatureHeader opts.appSecret = .ok true →
      (jsonParse (bodyText rawBody)).bind parseWebhookPayload = some envelope →
      run (step hmacSha256 opts) b
        (.handleWebhookPayload rawBody signatureHeader now :: bs) = some b' →
      ∃ c, b'.calls[b.calls.length]? = some c ∧ (c.stage = .settled (.ok true) →
        (WhatsAppAdapter.new (some opts.phoneNumberId) options).toDeliverableEvents envelope now' =
          .ok ((WhatsAppAdapter.new (some opts.phoneNumberId) options).delivered bridge c)) := by
  intro h
  have hpushed : (run (step untimedHmac number) subscribed untimed).any (fun b' =>
      b'.calls[0]?.any fun c => settledTrue c.stage &&
        ((WhatsAppAdapter.new (some (js "1")) {}).delivered 0 c).map (·.receivedAt) = [1]) =
          true := by
    decide +kernel
  have hpulled : ((jsonParse untimedBody).bind parseWebhookPayload).any (fun envelope =>
      match (WhatsAppAdapter.new (some (js "1")) {}).toDeliverableEvents envelope 2 with
      | .ok events => events.map (·.receivedAt) = [2]
      | .error _ => false) = true := by
    decide +kernel
  obtain ⟨b', hrun, hpushed⟩ := (Option.any_eq_true _ _).1 hpushed
  obtain ⟨c, hc, hpushed⟩ := (Option.any_eq_true _ _).1 hpushed
  obtain ⟨envelope, henvelope, hpulled⟩ := (Option.any_eq_true _ _).1 hpulled
  obtain ⟨hstage, hstamp⟩ := (Bool.and_eq_true _ _).mp hpushed
  obtain ⟨c', hc', hequal⟩ := h untimedHmac number {} [.onInbound 0]
    [.go 0 1, .settle 0 (.ok ()), .go 0 1, .go 0 1, .go 0 1] subscribed b' 0 (.inl untimedBody)
    (some untimedSignature) 1 2 envelope rfl rfl signed henvelope hrun
  obtain rfl := Option.some.inj (hc'.symm.trans hc)
  have hsettled : c'.stage = .settled (.ok true) := by
    unfold settledTrue at hstage
    split at hstage
    · assumption
    · cases hstage
  have hpull : (WhatsAppAdapter.new (some (js "1")) {}).toDeliverableEvents envelope 2 =
      .ok ((WhatsAppAdapter.new (some (js "1")) {}).delivered 0 c') := hequal hsettled
  rw [hpull] at hpulled
  have hone := of_decide_eq_true hstamp
  have htwo := of_decide_eq_true hpulled
  rw [hone] at htwo
  exact absurd htwo (by decide +kernel)

end WhatsAppCloudBackend
end TheokitGateways.WhatsApp
