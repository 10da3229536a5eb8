import TheokitGateways.Sms.Backend

/-!
# SMS: the webhook route

The route answers 401 to a request whose signature does not verify and 400 to one
that it cannot read. Only the reading is guarded, so that a check that throws
fails the request. Twilio's check reads the form first, and a form with malformed
percent-encoding throws there.
-/

namespace TheokitGateways.Sms
open Js

structure SMSMessageEvent where
  id : Json
  senderId : JsString
  channelId : JsString
  text : Json
  receivedAt : JsNumber
  backend : BackendKind
  messageId : Json
  sender : JsString
  recipient : JsString
  raw : Json

def inboundToMessageEvent (inbound : SMSInbound) (backend : BackendKind) : SMSMessageEvent where
  id := inbound.messageId
  senderId := inbound.sender
  channelId := inbound.sender
  text := inbound.body
  receivedAt := inbound.receivedAt
  backend := backend
  messageId := inbound.messageId
  sender := inbound.sender
  recipient := inbound.recipient
  raw := inbound.raw

def buildEventFromCtx (lib : Libraries) (b : SMSBackend) (ctx : SignatureContext)
    (now : JsNumber) : Except Thrown SMSMessageEvent := do
  let inbound ← b.parseInbound lib ctx now
  return inboundToMessageEvent inbound b.kind

def Thrown.text : Thrown → JsString
  | .configuration e => e.message
  | .other message => message

/-- The status and the text of an answer, and the event it dispatches. -/
structure Answer where
  status : Nat
  text : JsString := []
  dispatched : Option SMSMessageEvent := none

/-- The route's handler; an error is thrown out of it. -/
def webhookHandler (lib : Libraries) (b : SMSBackend) (ctx : SignatureContext) (now : JsNumber) :
    Except Thrown Answer := do
  let valid ← b.verifySignature lib ctx
  if !valid then return { status := 401, text := js "invalid signature" }
  else
    match buildEventFromCtx lib b ctx now with
    | .error e => return { status := 400, text := js "parse failed: " ++ e.text }
    | .ok event => return { status := 204, dispatched := some event }

/-- The percent-encoding of a form's keys and values is well formed. -/
def WellEncoded (body : JsString) : Prop :=
  ∀ pair ∈ body.splitOn (unit '&'), pair ≠ [] →
    ∀ field ∈ [(splitPair pair).1, (splitPair pair).2],
      (decodeURIComponent (replaceUnit (unit '+') (unit ' ') field)).isSome = true

instance (body : JsString) : Decidable (WellEncoded body) :=
  inferInstanceAs (Decidable (∀ pair ∈ body.splitOn (unit '&'), pair ≠ [] →
    ∀ field ∈ [(splitPair pair).1, (splitPair pair).2],
      (decodeURIComponent (replaceUnit (unit '+') (unit ' ') field)).isSome = true))

/-- A Twilio request with a signature to check, and a form that cannot be read. -/
def Unreadable (b : SMSBackend) (ctx : SignatureContext) : Prop :=
  b.kind = .twilio ∧ b.loaded = true ∧
    (ctx.headers.lookup (js "x-twilio-signature")).isSome = true ∧ ¬WellEncoded ctx.rawBody

theorem decodeField_isOk (s : JsString) :
    (∃ t, decodeField s = .ok t) ↔
      (decodeURIComponent (replaceUnit (unit '+') (unit ' ') s)).isSome = true := by
  unfold decodeField
  cases decodeURIComponent (replaceUnit (unit '+') (unit ' ') s) <;> simp

/-- When it is up to the element whether a step throws, a fold throws at the elements that do. -/
theorem foldlM_isOk {ε α β : Type} {f : β → α → Except ε β} {reads : α → Prop}
    (h : ∀ b a, (∃ b', f b a = .ok b') ↔ reads a) (as : List α) (b : β) :
    (∃ b', as.foldlM f b = .ok b') ↔ ∀ a ∈ as, reads a := by
  induction as generalizing b with
  | nil => simp [pure, Except.pure]
  | cons a as ih =>
    rw [List.foldlM_cons, List.forall_mem_cons]
    cases hstep : f b a with
    | error e =>
      have hfails : ¬reads a := fun ha => by
        obtain ⟨b', hb'⟩ := (h b a).2 ha
        cases hstep.symm.trans hb'
      exact iff_of_false (fun ⟨_, hthrown⟩ => nomatch hthrown) fun hall => hfails hall.1
    | ok b' =>
      have hreads : reads a := (h b a).1 ⟨b', hstep⟩
      exact (ih b').trans ⟨fun hall => ⟨hreads, hall⟩, And.right⟩

/-- A form is read when each of its pairs is. -/
theorem parseFormUrlEncoded_isOk (body : JsString) :
    (∃ params, parseFormUrlEncoded body = .ok params) ↔ WellEncoded body := by
  refine foldlM_isOk (fun params pair => ?_) _ _
  by_cases hpair : pair = []
  · simp [hpair]
  · rw [if_neg hpair]
    simp only [ne_eq, hpair, not_false_eq_true, forall_const, List.forall_mem_cons,
      ← decodeField_isOk]
    cases decodeField (splitPair pair).1 <;> cases decodeField (splitPair pair).2 <;>
      simp [bind, Except.bind, pure, Except.pure]

theorem verifySignature_isOk (lib : Libraries) (b : SMSBackend) (ctx : SignatureContext) :
    (∃ valid, b.verifySignature lib ctx = .ok valid) ↔ ¬Unreadable b ctx := by
  unfold SMSBackend.verifySignature Unreadable
  cases b.kind with
  | plivo => simp [PlivoBackend.verifySignature]
  | vonage => simp [VonageBackend.verifySignature]
  | twilio =>
    unfold TwilioBackend.verifySignature
    cases b.loaded with
    | false => simp
    | true =>
      cases ctx.headers.lookup (js "x-twilio-signature") with
      | none => simp
      | some signature =>
        simp only [Option.isSome_some, true_and, Classical.not_not, ← parseFormUrlEncoded_isOk]
        cases parseFormUrlEncoded ctx.rawBody <;> simp [bind, Except.bind, pure, Except.pure]

/-- Verifying a signature comes to a boolean, and the route to an answer, exactly when the
request is not one to Twilio's backend whose form is malformed; one that does not verify is
answered 401. -/
theorem webhookHandler_answers (lib : Libraries) (b : SMSBackend) (ctx : SignatureContext)
    (now : JsNumber) :
    ((∃ valid, b.verifySignature lib ctx = .ok valid) ↔ ¬Unreadable b ctx) ∧
      ((∃ answer, webhookHandler lib b ctx now = .ok answer) ↔ ¬Unreadable b ctx) ∧
      (b.verifySignature lib ctx = .ok false →
        webhookHandler lib b ctx now = .ok { status := 401, text := js "invalid signature" }) := by
  refine ⟨verifySignature_isOk lib b ctx, ?_, fun h => ?_⟩
  · rw [← verifySignature_isOk lib b ctx]
    unfold webhookHandler
    cases b.verifySignature lib ctx with
    | error e => simp [bind, Except.bind]
    | ok valid =>
      cases valid <;> cases buildEventFromCtx lib b ctx now <;>
        simp [bind, Except.bind, pure, Except.pure]
  · rw [webhookHandler, h]
    rfl

def twilioBackend : SMSBackend :=
  ⟨.twilio, true, js "token", by decide, none⟩

/-- Libraries that accept nothing. -/
def refusing : Libraries where
  validateRequest _ _ _ _ := some false
  validateV3Signature := none
  verifySignature := none
  parsePhoneNumber _ _ := .ok none

def malformedForm : SignatureContext where
  headers := [(js "x-twilio-signature", js "forged")]
  rawBody := js "From=%zz"
  url := js "https://example.com/sms/twilio"

theorem verifySignature_throws :
    ¬ ∀ (lib : Libraries) (b : SMSBackend) (ctx : SignatureContext),
      ∃ valid, b.verifySignature lib ctx = .ok valid := by
  intro h
  obtain ⟨valid, hvalid⟩ := h refusing twilioBackend malformedForm
  have hthrown : (twilioBackend.verifySignature refusing malformedForm).isOk = false := by
    decide +kernel
  rw [hvalid] at hthrown
  cases hthrown

end TheokitGateways.Sms
