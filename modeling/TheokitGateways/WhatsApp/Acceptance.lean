import TheokitGateways.Records
import TheokitGateways.WhatsApp.CloudBackend

/-!
# What a webhook that is accepted hands over

A call should never reject, hand nothing over when it answers false, and when it
answers true have handed each text message for its number to the handler that
was subscribed as it came in. What a handler throws is printed, and printing it
can throw in turn: `Printable` says of a step that it does not.
-/

namespace TheokitGateways.WhatsApp
open Js Gateway Records Transition

/-- A message or receipt is for the number. -/
def IsOwn (number : JsString) (phoneNumberId : Option JsString) : Prop :=
  isForAnotherNumber phoneNumberId (some number) = false

/-- The events of a payload that are for the number. -/
def Accepted.events (number : JsString) (a : Accepted) :
    Except JsString (List WhatsAppInboundEvent) :=
  (normalizeInboundMessages a.envelope a.now).map fun events =>
    events.filter fun e => !isForAnotherNumber e.phoneNumberId (some number)

namespace Call

/-- The contract of a call of `handleWebhookPayload`. -/
structure Contained (number : JsString) (c : Call) : Prop where
  settles : ∀ err, c.stage ≠ .settled (.error err)
  refused : c.stage = .settled (.ok false) → c.handed = [] ∧ c.confirmed = []
  accepted : c.stage = .settled (.ok true) → ∃ a, c.accepted = some a ∧
    c.handed.map (fun p => (some p.1, p.2.raw)) =
      (addressedTexts number a.envelope.json).map (a.handler, ·)
  messages : ∀ p ∈ c.handed, IsOwn number p.2.phoneNumberId
  receipts : ∀ p ∈ c.confirmed, IsOwn number p.2.phoneNumberId

/-- What went to the handlers is a first part of what was accepted. -/
def InOrder (number : JsString) (c : Call) : Prop :=
  ∀ a, c.accepted = some a → ∃ events, a.events number = .ok events ∧
    c.handed.map (fun p => (some p.1, p.2)) <+: events.map (a.handler, ·)

/-- How far a call is with the messages it accepted. -/
def Progress (number : JsString) (c : Call) : Prop :=
  match c.stage with
  | .inbound handler rest | .handling handler rest => ∃ a events, c.accepted = some a ∧
      a.handler = some handler ∧ a.events number = .ok events ∧
        c.handed ++ rest.map (handler, ·) = events.map (handler, ·)
  | .statuses | .receipts _ | .confirming _ | .settled (.ok true) => ∃ a events,
      c.accepted = some a ∧ a.events number = .ok events ∧
        c.handed.map (fun p => (some p.1, p.2)) = events.map (a.handler, ·)
  | .settled (.ok false) => c.handed = [] ∧ c.confirmed = []
  | .settled (.error _) => c.InOrder number

/-- What every step keeps of a call. -/
structure Tracks (number : JsString) (c : Call) : Prop where
  progress : c.Progress number
  messages : ∀ p ∈ c.handed, IsOwn number p.2.phoneNumberId
  receipts : ∀ p ∈ c.confirmed, IsOwn number p.2.phoneNumberId

/-- What every step of a run with timestamps and printable throws keeps of a call. -/
structure Lives (c : Call) : Prop where
  stage : ∀ err, c.stage ≠ .settled (.error err)
  timed : ∀ a, c.accepted = some a → Timed a.envelope.json

variable {number : JsString} {c : Call}

theorem isOwn_of_events {a : Accepted} {events : List WhatsAppInboundEvent}
    (h : a.events number = .ok events) : ∀ e ∈ events, IsOwn number e.phoneNumberId := by
  intro e he
  unfold Accepted.events at h
  cases hall : normalizeInboundMessages a.envelope a.now with
  | error message => simp [hall, Except.map] at h
  | ok all =>
    simp only [hall, Except.map, Except.ok.injEq] at h
    subst h
    simpa [IsOwn] using (List.mem_filter.1 he).2

/-- Of an accepted payload with timestamps, the events are of the text messages for the number. -/
theorem map_raw_events {a : Accepted} {events : List WhatsAppInboundEvent}
    (h : a.events number = .ok events) (htimed : Timed a.envelope.json) :
    events.map (·.raw) = addressedTexts number a.envelope.json := by
  obtain ⟨all, hall, hmap⟩ := normalizeInboundMessages_ok htimed a.now
  unfold Accepted.events at h
  simp only [hall, Except.map, Except.ok.injEq] at h
  subst h
  rw [← map_raw_filter number hmap]
  congr 2
  funext e
  simp [isForAnotherNumber]

/-- A call that has not been rejected meets its contract. -/
theorem contained_of_tracks (h : c.Tracks number) (hlives : c.Lives) : c.Contained number := by
  refine ⟨hlives.stage, fun hstage => ?_, fun hstage => ?_, h.messages, h.receipts⟩
  · have hprogress := h.progress
    rw [Progress, hstage] at hprogress
    exact hprogress
  · have hprogress := h.progress
    rw [Progress, hstage] at hprogress
    obtain ⟨a, events, ha, hevents, hhanded⟩ := hprogress
    refine ⟨a, ha, ?_⟩
    have hraw := congrArg (List.map fun p => (p.1, p.2.raw)) hhanded
    rw [← map_raw_events hevents (hlives.timed a ha), List.map_map]
    simpa [List.map_map, Function.comp_def] using hraw

theorem inOrder_of_rest {a : Accepted} {events rest : List WhatsAppInboundEvent}
    {handler : Handler} (ha : c.accepted = some a) (hhandler : a.handler = some handler)
    (hevents : a.events number = .ok events)
    (hsplit : c.handed ++ rest.map (handler, ·) = events.map (handler, ·)) : c.InOrder number := by
  intro b hb
  obtain rfl := Option.some.inj (hb.symm.trans ha)
  refine ⟨events, hevents, rest.map (some handler, ·), ?_⟩
  have hmap := congrArg (List.map fun p => (some p.1, p.2)) hsplit
  simpa [hhandler, Function.comp_def] using hmap

theorem inOrder_of_all {a : Accepted} {events : List WhatsAppInboundEvent}
    (ha : c.accepted = some a) (hevents : a.events number = .ok events)
    (hall : c.handed.map (fun p => (some p.1, p.2)) = events.map (a.handler, ·)) :
    c.InOrder number := by
  intro b hb
  obtain rfl := Option.some.inj (hb.symm.trans ha)
  exact ⟨events, hevents, hall ▸ List.prefix_rfl⟩

/-- Whatever a call is waiting for, it handed over what it accepted in order. -/
theorem Tracks.inOrder (h : c.Tracks number) (hrefused : c.stage ≠ .settled (.ok false)) :
    c.InOrder number := by
  have hprogress := h.progress
  unfold Progress at hprogress
  split at hprogress
  · obtain ⟨a, events, ha, hhandler, hevents, hsplit⟩ := hprogress
    exact inOrder_of_rest ha hhandler hevents hsplit
  · obtain ⟨a, events, ha, hhandler, hevents, hsplit⟩ := hprogress
    exact inOrder_of_rest ha hhandler hevents hsplit
  · obtain ⟨a, events, ha, hevents, hall⟩ := hprogress
    exact inOrder_of_all ha hevents hall
  · obtain ⟨a, events, ha, hevents, hall⟩ := hprogress
    exact inOrder_of_all ha hevents hall
  · obtain ⟨a, events, ha, hevents, hall⟩ := hprogress
    exact inOrder_of_all ha hevents hall
  · obtain ⟨a, events, ha, hevents, hall⟩ := hprogress
    exact inOrder_of_all ha hevents hall
  · rename_i hstage
    exact absurd hstage hrefused
  · exact hprogress

variable {hmacSha256 : JsString → List UInt8 → List UInt8} {opts : WhatsAppCloudBackendOptions}

theorem tracks_refused : refused.Tracks number where
  progress := ⟨rfl, rfl⟩
  messages _ hp := nomatch hp
  receipts _ hp := nomatch hp

theorem tracks_rejected (err : JsAny) : (rejected err).Tracks number where
  progress _ ha := nomatch ha
  messages _ hp := nomatch hp
  receipts _ hp := nomatch hp

theorem tracks_accept (envelope : MetaWebhookEnvelope) (now : JsNumber)
    (inboundHandler : Option Handler) :
    (accept opts envelope now inboundHandler).Tracks opts.phoneNumberId := by
  unfold accept
  split
  · exact tracks_rejected _
  · rename_i events hevents
    have hown (handler : Option Handler) :
        Accepted.events opts.phoneNumberId ⟨envelope, now, handler⟩ = .ok (events.filter
          fun e => !isForAnotherNumber e.phoneNumberId (some opts.phoneNumberId)) := by
      simp [Accepted.events, hevents, Except.map]
    dsimp only
    split
    · split
      · exact tracks_refused
      · rename_i hempty
        rw [Decidable.not_not.1 hempty] at hown
        exact ⟨⟨_, [], rfl, hown none, rfl⟩, fun _ hp => (nomatch hp), fun _ hp => (nomatch hp)⟩
    · rename_i handler
      exact ⟨⟨_, _, rfl, rfl, hown (some handler), rfl⟩, fun _ hp => (nomatch hp),
        fun _ hp => (nomatch hp)⟩

theorem tracks_handleWebhookPayload (rawBody : JsString ⊕ List UInt8)
    (signatureHeader : Option JsString) (now : JsNumber) (inboundHandler : Option Handler) :
    (handleWebhookPayload hmacSha256 opts rawBody signatureHeader now inboundHandler).Tracks
      opts.phoneNumberId := by
  unfold handleWebhookPayload
  split
  · exact tracks_rejected _
  · exact tracks_refused
  · split
    · exact tracks_refused
    · exact tracks_accept _ _ _

theorem tracks_dispatchStatusReceipt (h : c.Tracks opts.phoneNumberId)
    {receipt : WhatsAppStatusReceipt} {rest : List WhatsAppStatusReceipt}
    (hstage : c.stage = .receipts (receipt :: rest)) (statusHandler : Option Handler) :
    (dispatchStatusReceipt opts c statusHandler receipt rest).Tracks opts.phoneNumberId := by
  have hprogress := h.progress
  rw [Progress, hstage] at hprogress
  unfold dispatchStatusReceipt
  split
  · exact ⟨hprogress, h.messages, h.receipts⟩
  · split
    · exact ⟨hprogress, h.messages, h.receipts⟩
    · rename_i handler hown
      refine ⟨hprogress, h.messages, fun p hp => ?_⟩
      obtain hp | hp := List.mem_append.1 hp
      · exact h.receipts p hp
      · cases List.mem_singleton.1 hp
        exact Bool.eq_false_iff.2 hown

theorem tracks_go (h : c.Tracks opts.phoneNumberId) {statusHandler : Option Handler}
    {now : JsNumber} {c' : Call} (hgo : c.go opts statusHandler now = some c') :
    c'.Tracks opts.phoneNumberId := by
  have hprogress := h.progress
  unfold go at hgo
  split at hgo
  · rename_i handler event rest hstage
    obtain rfl := Option.some.inj hgo
    rw [Progress, hstage] at hprogress
    obtain ⟨a, events, ha, hhandler, hevents, hsplit⟩ := hprogress
    refine ⟨⟨a, events, ha, hhandler, hevents, ?_⟩, fun p hp => ?_, h.receipts⟩
    · rw [List.append_assoc]
      exact hsplit
    · obtain hp | hp := List.mem_append.1 hp
      · exact h.messages p hp
      · have hmem : p ∈ events.map (handler, ·) := by
          rw [← hsplit, List.mem_singleton.1 hp]
          exact List.mem_append_right _ List.mem_cons_self
        obtain ⟨e, he, rfl⟩ := List.mem_map.1 hmem
        exact isOwn_of_events hevents e he
  · rename_i handler hstage
    obtain rfl := Option.some.inj hgo
    rw [Progress, hstage] at hprogress
    obtain ⟨a, events, ha, hhandler, hevents, hsplit⟩ := hprogress
    refine ⟨⟨a, events, ha, hevents, ?_⟩, h.messages, h.receipts⟩
    rw [List.map_nil, List.append_nil] at hsplit
    rw [show c.handed = events.map (handler, ·) from hsplit, hhandler, List.map_map]
    rfl
  · rename_i hstage
    rw [Progress, hstage] at hprogress
    split at hgo
    · obtain rfl := Option.some.inj hgo
      exact ⟨hprogress, h.messages, h.receipts⟩
    · obtain rfl := Option.some.inj hgo
      exact ⟨h.inOrder (by simp [hstage]), h.messages, h.receipts⟩
    · cases hgo
  · rename_i receipt rest hstage
    obtain rfl := Option.some.inj hgo
    exact tracks_dispatchStatusReceipt h hstage statusHandler
  · rename_i hstage
    obtain rfl := Option.some.inj hgo
    rw [Progress, hstage] at hprogress
    exact ⟨hprogress, h.messages, h.receipts⟩
  · cases hgo
  · cases hgo
  · cases hgo

theorem tracks_settle (h : c.Tracks number) {settled : Except JsAny Unit} {c' : Call}
    (hsettle : c.settle settled = some c') : c'.Tracks number := by
  have hprogress := h.progress
  unfold settle at hsettle
  split at hsettle
  · rename_i hstage _
    obtain rfl := Option.some.inj hsettle
    rw [Progress, hstage] at hprogress
    exact ⟨hprogress, h.messages, h.receipts⟩
  · rename_i hstage _
    obtain rfl := Option.some.inj hsettle
    rw [Progress, hstage] at hprogress
    exact ⟨hprogress, h.messages, h.receipts⟩
  · rename_i hstage _
    obtain rfl := Option.some.inj hsettle
    exact ⟨h.inOrder (by simp [hstage]), h.messages, h.receipts⟩
  · rename_i hstage _
    obtain rfl := Option.some.inj hsettle
    exact ⟨h.inOrder (by simp [hstage]), h.messages, h.receipts⟩
  · cases hsettle

theorem lives_handleWebhookPayload (hsecret : trim opts.appSecret ≠ [])
    {rawBody : JsString ⊕ List UInt8}
    (htimed : ∀ envelope, (jsonParse (bodyText rawBody)).bind parseWebhookPayload = some envelope →
      Timed envelope.json)
    (signatureHeader : Option JsString) (now : JsNumber) (inboundHandler : Option Handler) :
    (handleWebhookPayload hmacSha256 opts rawBody signatureHeader now inboundHandler).Lives := by
  have hrefused : refused.Lives := ⟨by simp [refused], fun _ ha => nomatch ha⟩
  unfold handleWebhookPayload
  split
  · rename_i err hverify
    unfold verifyWebhookSignature at hverify
    rw [if_neg hsecret] at hverify
    grind
  · exact hrefused
  · split
    · exact hrefused
    · rename_i envelope henvelope
      have htime := htimed envelope henvelope
      obtain ⟨events, hevents, _⟩ := normalizeInboundMessages_ok htime now
      unfold accept
      rw [hevents]
      dsimp only
      split
      · split
        · exact hrefused
        · exact ⟨by simp, fun a ha => by cases ha; exact htime⟩
      · exact ⟨by simp, fun a ha => by cases ha; exact htime⟩

theorem lives_go (h : c.Lives) {statusHandler : Option Handler} {now : JsNumber} {c' : Call}
    (hgo : c.go opts statusHandler now = some c') : c'.Lives := by
  unfold go at hgo
  split at hgo
  · obtain rfl := Option.some.inj hgo
    exact ⟨by simp, h.timed⟩
  · obtain rfl := Option.some.inj hgo
    exact ⟨by simp, h.timed⟩
  · cases ha : c.accepted with
    | none => simp [ha] at hgo
    | some a =>
      obtain ⟨receipts, hreceipts, _⟩ := normalizeStatusReceipts_ok (h.timed a ha) now
      have hnormalized : c.accepted.map (fun a => normalizeStatusReceipts a.envelope now) =
          some (.ok receipts) := by rw [ha, Option.map_some, hreceipts]
      rw [hnormalized] at hgo
      obtain rfl := Option.some.inj hgo
      exact ⟨by simp, h.timed⟩
  · obtain rfl := Option.some.inj hgo
    unfold dispatchStatusReceipt
    split
    · exact ⟨by simp, h.timed⟩
    · split <;> exact ⟨by simp, h.timed⟩
  · obtain rfl := Option.some.inj hgo
    exact ⟨by simp, h.timed⟩
  · cases hgo
  · cases hgo
  · cases hgo

theorem lives_settle (h : c.Lives) {settled : Except JsAny Unit}
    (hprintable : ∀ err, settled = .error err → ∃ text, thrownText err = .ok text) {c' : Call}
    (hsettle : c.settle settled = some c') : c'.Lives := by
  have hcontained : contained settled = .ok () := by
    cases settled with
    | ok => rfl
    | error err =>
      obtain ⟨text, htext⟩ := hprintable err rfl
      simp [contained, htext, Except.map]
  unfold settle at hsettle
  rw [hcontained] at hsettle
  split at hsettle
  · obtain rfl := Option.some.inj hsettle
    exact ⟨by simp, h.timed⟩
  · obtain rfl := Option.some.inj hsettle
    exact ⟨by simp, h.timed⟩
  · rename_i heq
    cases heq
  · rename_i heq
    cases heq
  · cases hsettle

end Call

/-- The timestamps of a body are strings or numbers. -/
def WithTimestamps (_ : WhatsAppCloudBackend) : Action → Prop
  | .handleWebhookPayload rawBody _ _ => ∀ envelope,
      (jsonParse (bodyText rawBody)).bind parseWebhookPayload = some envelope → Timed envelope.json
  | _ => True

/-- What a handler throws can be printed. -/
def Printable (_ : WhatsAppCloudBackend) : Action → Prop
  | .settle _ settled => ∀ err, settled = .error err → ∃ text, thrownText err = .ok text
  | _ => True

namespace WhatsAppCloudBackend
variable {hmacSha256 : JsString → List UInt8 → List UInt8} {opts : WhatsAppCloudBackendOptions}

/-- What a step does to the calls: it adds one, or one goes on. -/
theorem calls_step {b b' : WhatsAppCloudBackend} {action : Action}
    (h : step hmacSha256 opts b action = some b') :
    (∃ rawBody signatureHeader now, action = .handleWebhookPayload rawBody signatureHeader now ∧
      b'.calls = b.calls ++ [Call.handleWebhookPayload hmacSha256 opts rawBody signatureHeader now
        b.inboundHandler]) ∨
    (∃ k now c c', b.calls[k]? = some c ∧ c.go opts b.statusHandler now = some c' ∧
      b'.calls = b.calls.set k c') ∨
    (∃ k settled c c', action = .settle k settled ∧ b.calls[k]? = some c ∧
      c.settle settled = some c' ∧ b'.calls = b.calls.set k c') ∨
    b'.calls = b.calls := by
  cases action with
  | handleWebhookPayload rawBody signatureHeader now =>
    obtain rfl := Option.some.inj h
    exact .inl ⟨rawBody, signatureHeader, now, rfl, rfl⟩
  | go k now =>
    obtain ⟨c, hc, h⟩ := Option.bind_eq_some_iff.1 h
    obtain ⟨c', hc', h⟩ := Option.bind_eq_some_iff.1 h
    obtain rfl := Option.some.inj h
    exact .inr (.inl ⟨k, now, c, c', hc, hc', rfl⟩)
  | settle k settled =>
    obtain ⟨c, hc, h⟩ := Option.bind_eq_some_iff.1 h
    obtain ⟨c', hc', h⟩ := Option.bind_eq_some_iff.1 h
    obtain rfl := Option.some.inj h
    exact .inr (.inr (.inl ⟨k, settled, c, c', rfl, hc, hc', rfl⟩))
  | offInbound handler =>
    obtain rfl := Option.some.inj h
    refine .inr (.inr (.inr ?_))
    split <;> rfl
  | offStatusReceipt handler =>
    obtain rfl := Option.some.inj h
    refine .inr (.inr (.inr ?_))
    split <;> rfl
  | onInbound | onStatusReceipt | disconnect =>
    obtain rfl := Option.some.inj h
    exact .inr (.inr (.inr rfl))

/-- A property of every call that a step keeps, kept by each thing a step can do to a call. -/
theorem forall_calls_step {Q : Call → Prop} {b b' : WhatsAppCloudBackend} {action : Action}
    (h : ∀ c ∈ b.calls, Q c) (hstep : step hmacSha256 opts b action = some b')
    (hnew : ∀ rawBody signatureHeader now,
      action = .handleWebhookPayload rawBody signatureHeader now →
        Q (Call.handleWebhookPayload hmacSha256 opts rawBody signatureHeader now b.inboundHandler))
    (hgo : ∀ c c' now, Q c → c.go opts b.statusHandler now = some c' → Q c')
    (hsettle : ∀ k settled c c', action = .settle k settled → Q c →
      c.settle settled = some c' → Q c') :
    ∀ c ∈ b'.calls, Q c := by
  obtain ⟨rawBody, header, now, hact, hcalls⟩ | ⟨k, now, c, c', hc, hstep, hcalls⟩ |
    ⟨k, settled, c, c', hact, hc, hstep, hcalls⟩ | hcalls := calls_step hstep
  · rw [hcalls]
    intro c hmem
    obtain hmem | hmem := List.mem_append.1 hmem
    · exact h c hmem
    · cases List.mem_singleton.1 hmem
      exact hnew rawBody header now hact
  · rw [hcalls]
    exact forall_set k h (hgo c c' now (h c (List.mem_of_getElem? hc)) hstep)
  · rw [hcalls]
    exact forall_set k h (hsettle k settled c c' hact (h c (List.mem_of_getElem? hc)) hstep)
  · rwa [hcalls]

/-- Every call keeps track of what it accepted. -/
theorem tracks_step {b b' : WhatsAppCloudBackend} {action : Action}
    (h : ∀ c ∈ b.calls, c.Tracks opts.phoneNumberId)
    (hstep : step hmacSha256 opts b action = some b') :
    ∀ c ∈ b'.calls, c.Tracks opts.phoneNumberId := by
  refine forall_calls_step h hstep ?_ ?_ ?_
  · intros
    exact Call.tracks_handleWebhookPayload ..
  · intro c c' now hc hgo
    exact Call.tracks_go hc hgo
  · intro k settled c c' _ hc hsettle
    exact Call.tracks_settle hc hsettle

theorem tracks_run {as : List Action} {b : WhatsAppCloudBackend}
    (hrun : run (step hmacSha256 opts) {} as = some b) :
    ∀ c ∈ b.calls, c.Tracks opts.phoneNumberId :=
  invariant (I := fun b => ∀ c ∈ b.calls, c.Tracks opts.phoneNumberId)
    (fun _ _ _ h hstep => tracks_step h hstep) (fun _ hc => nomatch hc) hrun

/-- With timestamps and printable throws, no call rejects. -/
theorem lives_step {b b' : WhatsAppCloudBackend} {action : Action}
    (hsecret : trim opts.appSecret ≠ []) (h : ∀ c ∈ b.calls, c.Lives)
    (hC : WithTimestamps b action ∧ Printable b action)
    (hstep : step hmacSha256 opts b action = some b') : ∀ c ∈ b'.calls, c.Lives := by
  refine forall_calls_step h hstep ?_ ?_ ?_
  · rintro rawBody header now rfl
    exact Call.lives_handleWebhookPayload hsecret hC.1 ..
  · intro c c' now hc hgo
    exact Call.lives_go hc hgo
  · rintro k settled c c' rfl hc hsettle
    exact Call.lives_settle hc hC.2 hsettle

/-- When what the handlers throw can be printed, every call meets its contract. -/
theorem contained_of_printable (hmacSha256 : JsString → List UInt8 → List UInt8)
    (opts : WhatsAppCloudBackendOptions) (hsecret : trim opts.appSecret ≠ [])
    (as : List Action) (b : WhatsAppCloudBackend) (hrun : run (step hmacSha256 opts) {} as = some b)
    (htimestamps : Meets (step hmacSha256 opts) WithTimestamps {} as)
    (hprintable : Meets (step hmacSha256 opts) Printable {} as) :
    ∀ c ∈ b.calls, c.Contained opts.phoneNumberId := by
  have hlives := invariant_of_meets (I := fun b => ∀ c ∈ b.calls, c.Lives)
    (fun _ _ _ h hC hstep => lives_step hsecret h hC hstep) (fun _ hc => nomatch hc)
    (htimestamps.and hprintable) hrun
  exact fun c hc => Call.contained_of_tracks (tracks_run hrun c hc) (hlives c hc)

theorem timed_iff {json : Json} : Timed json ↔
    ((valuesOf json).all fun value => [js "messages", js "statuses"].all fun key =>
      (items (value.get key)).all fun item => isTimestamp (item.get (js "timestamp"))) = true := by
  simp [Timed]

/-- An object, by its members. -/
def record (members : List (String × Json)) : Json := .object (members.map fun e => (js e.1, e.2))

def text (s : String) : Json := .string (js s)

/-- A text message for the number 1. -/
def greeting : Json := record [("type", text "text"), ("id", text "m"), ("from", text "5"),
  ("timestamp", text "1700"), ("text", record [("body", text "hi")])]

/-- A body with messages for the number 1. -/
def bodyOf (messages : List Json) : JsString := Json.stringify (record [("object", text "whatsapp"),
  ("entry", .array [record [("changes", .array [record [("value", record
    [("metadata", record [("phone_number_id", text "1")]), ("messages", .array messages)])]])]])])

def body : JsString := bodyOf [greeting]

def number : WhatsAppCloudBackendOptions where
  phoneNumberId := js "1"
  appSecret := js "secret"

/-- The HMAC-SHA256 of `body` under the secret of `number`. -/
def bodyDigest : List UInt8 :=
  [0xa9, 0x13, 0x98, 0x1f, 0xcb, 0x0e, 0x3a, 0xed, 0x2d, 0x74, 0xfa, 0x47, 0x6e, 0x8f, 0xe9, 0x91,
    0x5a, 0xc0, 0x67, 0x69, 0x66, 0xb6, 0xf6, 0x23, 0xa3, 0xa1, 0x54, 0xa6, 0xd1, 0xc4, 0xd0, 0x0e]

/-- The HMAC of a run whose only body is `body`. -/
def bodyHmac : JsString → List UInt8 → List UInt8 := fun _ _ => bodyDigest

def bodySignature : JsString := js "sha256=" ++ hexText bodyDigest

/-- A handler is subscribed, and a signed body comes in. -/
def delivered : List Action :=
  [.onInbound 0, .handleWebhookPayload (.inl body) (some bodySignature) (.finite 0),
    .go 0 (.finite 0)]

/-- The handler throws an error; the call goes on to its end. -/
def answered : List Action :=
  delivered ++ [.settle 0 (.error (.error (js "Error") (js "boom"))), .go 0 (.finite 0),
    .go 0 (.finite 0), .go 0 (.finite 0)]

theorem withTimestamps_of_body {s : WhatsAppCloudBackend} {as : List Action}
    (h : ∀ rawBody header now, .handleWebhookPayload rawBody header now ∈ as →
      rawBody = .inl body) : Meets (step bodyHmac number) WithTimestamps s as := by
  have htimed : ((jsonParse body).bind parseWebhookPayload).all (fun envelope =>
      (valuesOf envelope.json).all fun value => [js "messages", js "statuses"].all fun key =>
        (items (value.get key)).all fun item => isTimestamp (item.get (js "timestamp"))) =
          true := by
    decide +kernel
  refine meets_of_forall fun action haction t => ?_
  cases action with
  | handleWebhookPayload rawBody header now =>
    intro envelope henvelope
    rw [h rawBody header now haction] at henvelope
    rw [Option.all_eq_true] at htimed
    exact timed_iff.2 (htimed envelope henvelope)
  | _ => trivial

theorem printable_answered (s : WhatsAppCloudBackend) :
    Meets (step bodyHmac number) Printable s answered := by
  refine meets_of_forall fun action haction t => ?_
  cases action with
  | settle k settled =>
    intro err herr
    subst herr
    simp only [answered, delivered, List.mem_append, List.mem_cons, List.not_mem_nil, or_false,
      reduceCtorEq, false_or, Action.settle.injEq, Except.error.injEq] at haction
    obtain ⟨_, rfl⟩ := haction
    exact ⟨js "boom", rfl⟩
  | _ => trivial

theorem contained_of_printable_answered :
    ∃ b, run (step bodyHmac number) {} answered = some b ∧
      ∀ c ∈ b.calls, c.Contained number.phoneNumberId := by
  have hsome : (run (step bodyHmac number) {} answered).isSome = true := by decide +kernel
  obtain ⟨b, hrun⟩ := Option.isSome_iff_exists.1 hsome
  exact ⟨b, hrun, contained_of_printable bodyHmac number (by decide +kernel) answered b hrun
    (withTimestamps_of_body (by simp +contextual [answered, delivered])) (printable_answered _)⟩

/-- A call has ended in a rejection. -/
def isRejected : Stage → Bool
  | .settled (.error _) => true
  | _ => false

/-- An object without a prototype, which has no text. -/
def bare : JsAny := .object .plain (.ok false) (fun _ => .ok .undefined)
  (.error (.error (js "TypeError") (js "Cannot convert object to primitive value")))

/-- What a handler throws ends the call when it cannot be printed. -/
theorem unprintable_throw_rejects :
    ¬ ∀ (hmacSha256 : JsString → List UInt8 → List UInt8) (opts : WhatsAppCloudBackendOptions),
      trim opts.appSecret ≠ [] → ∀ (as : List Action) (b : WhatsAppCloudBackend),
        run (step hmacSha256 opts) {} as = some b →
        Meets (step hmacSha256 opts) WithTimestamps {} as →
        ∀ c ∈ b.calls, c.Contained opts.phoneNumberId := by
  intro h
  have hlost : (run (step bodyHmac number) {} (delivered ++ [.settle 0 (.error bare)])).any
      (fun b => b.calls.any fun c => isRejected c.stage) = true := by
    decide +kernel
  obtain ⟨b, hrun, hlost⟩ := (Option.any_eq_true _ _).1 hlost
  obtain ⟨c, hc, hstage⟩ := List.any_eq_true.1 hlost
  have htimestamps : Meets (step bodyHmac number) WithTimestamps {}
      (delivered ++ [.settle 0 (.error bare)]) :=
    withTimestamps_of_body (by simp +contextual [delivered])
  have hsettles := (h bodyHmac number (by decide +kernel) _ b hrun htimestamps c hc).settles
  unfold isRejected at hstage
  split at hstage
  · rename_i err heq
    exact hsettles err heq
  · cases hstage

end WhatsAppCloudBackend

end TheokitGateways.WhatsApp
