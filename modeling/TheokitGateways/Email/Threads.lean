import TheokitGateways.Email.Adapter
import TheokitGateways.Js.Recency

/-!
# The threads of the mail that was heard

`ThreadStore` holds what a reply needs to land in the thread of the mail it answers:
that of the mails heard last, up to a thousand of them, until `disconnect` clears it.
Mail is dispatched one at a time, so that while a handler has a mail, that mail is
the one recorded last (`InOrder`).
-/

namespace TheokitGateways.Email
open Js Gateway Transition

structure ThreadContext where
  subject : JsString
  references : List JsString
  lastMessageId : JsString
  deriving DecidableEq

abbrev ThreadStore := OrderedMap JsString ThreadContext

def contextOf (event : EmailMessageEvent) : ThreadContext where
  subject := event.email.subject
  references := event.email.references.getD []
  lastMessageId := event.email.messageId

namespace ThreadStore

def maxSize : Nat := 1000

def recordFromInbound (store : ThreadStore) (event : EmailMessageEvent) : ThreadStore :=
  store.pushRecent maxSize event.email.messageId (contextOf event)

def lookup (store : ThreadStore) (topicId : JsString) : Option ThreadContext := store.get topicId

end ThreadStore

namespace EmailAdapter

variable (m : CaseMapping) (simpleParser : List UInt8 → Except JsAny ParsedMail)
  (opts : EmailAdapterOptions)

/-- The mail that a step hears: it has been parsed, and no rule drops it. -/
def hears (a : EmailAdapter) : Action → Option EmailMessageEvent
  | .parsed now =>
    match a.inbox.turn with
    | some (.parsing msg) =>
      match Inbox.eventOf m simpleParser opts msg now with
      | .ok event =>
        if droppedBy m opts event.email.fromAddress msg.headers = none then some event else none
      | .error _ => none
    | _ => none
  | _ => none

end EmailAdapter

/-- The adapter with its store. -/
structure Threads where
  adapter : EmailAdapter := {}
  threadStore : ThreadStore := .empty
  /-- What was recorded since the store was cleared, the latest first. -/
  recorded : List (JsString × ThreadContext) := []

namespace Threads

section
variable (m : CaseMapping) (simpleParser : List UInt8 → Except JsAny ParsedMail)
  (opts : EmailAdapterOptions)

def step (x : Threads) (act : Action) : Option Threads := do
  let adapter ← x.adapter.step m simpleParser opts act
  match x.adapter.hears m simpleParser opts act with
  | some event =>
    some { adapter
           threadStore := x.threadStore.recordFromInbound event
           recorded := (event.email.messageId, contextOf event) :: x.recorded }
  | none => if x.adapter.clears act then some { adapter } else some { x with adapter }

end

end Threads

def Event.isHanded : Event → Bool
  | .handed .. => true
  | _ => false

variable {m : CaseMapping} {simpleParser : List UInt8 → Except JsAny ParsedMail}
  {opts : EmailAdapterOptions}

/-! ### The mail that is being handled -/

/-- The channel of a mail is its sender, in the thread of the mail. -/
structure OfSender (event : EmailMessageEvent) : Prop where
  id : event.channel.id = event.email.fromAddress
  topicId : event.channel.topicId = some event.email.messageId

theorem ofSender_of_parsed {msg : FetchedMessage} {now : JsNumber} {event : EmailMessageEvent}
    (h : Inbox.eventOf m simpleParser opts msg now = .ok event) : OfSender event := by
  obtain ⟨parsed, _, rfl⟩ := map_eq_ok.1 h
  exact ⟨rfl, rfl⟩

namespace Inbox

variable {b b' : Inbox} {uid : Nat} {handler : Handler}

theorem turn_report (err : JsAny) : (b.report err).turn = b.turn := by
  unfold report
  split <;> rfl

/-- A message that goes to a handler is recorded in the log as handed over. -/
theorem handling_dispatchOrDrop {msg : FetchedMessage} {now : JsNumber}
    (h : (b.dispatchOrDrop m simpleParser opts msg now).turn = some (.handling uid handler)) :
    ∃ event, eventOf m simpleParser opts msg now = .ok event ∧
      droppedBy m opts event.email.fromAddress msg.headers = none ∧
      (b.dispatchOrDrop m simpleParser opts msg now).log = .handed uid handler event :: b.log := by
  unfold dispatchOrDrop at h ⊢
  split at h
  · rw [turn_report] at h
    cases h
  · rename_i event hevent
    split at h
    · cases h
    · cases h
    · rename_i handler' hdropped hhandler
      cases h
      exact ⟨event, hevent, hdropped, rfl⟩

theorem turn_runJob (imap : Bool) (job : Job) (hturn : b.turn = none) :
    (b.runJob imap job).turn ≠ some (.handling uid handler) := by
  intro h
  cases job with
  | dispatch msg =>
    simp only [runJob, dispatchInboundInner] at h
    split at h
    · rw [hturn] at h
      cases h
    · cases h
  | flush drain =>
    simp only [runJob, flushSeen] at h
    split at h
    · rw [hturn] at h
      cases h
    · split at h
      · have hsame : (b.record (.ended drain)).turn = b.turn := rfl
        rw [hsame, hturn] at h
        cases h
      · cases h

theorem turn_answered (settled : Except JsAny Unit) :
    (b.answered uid handler settled).turn = none := by
  cases settled with
  | ok => rfl
  | error err => exact turn_report err

theorem turn_marked (uids : List Nat) (drain : Nat) (settled : Except JsAny Unit) :
    (b.marked uids drain settled).turn = none := by
  cases settled with
  | ok => rfl
  | error err => exact turn_report err

/-- A handler that has a message after a step had it before, or was handed it with the step. -/
theorem handling_of_moves {clears : Bool} {act : Action}
    (h : b.Moves m simpleParser opts clears act b')
    (hturn : b'.turn = some (.handling uid handler)) :
    (b.turn = some (.handling uid handler) ∧
        b'.log.find? Event.isHanded = b.log.find? Event.isHanded) ∨
      ∃ now msg event, act = .parsed now ∧ b.turn = some (.parsing msg) ∧
        eventOf m simpleParser opts msg now = .ok event ∧
        droppedBy m opts event.email.fromAddress msg.headers = none ∧
        b'.log.find? Event.isHanded = some (.handed uid handler event) := by
  cases h with
  | same | cleared | subscribed => exact .inl ⟨hturn, rfl⟩
  | drained messages => exact .inl ⟨hturn, List.find?_cons_of_neg (by simp [Event.isHanded])⟩
  | next imap job rest hnone hqueue => exact absurd hturn (turn_runJob imap job hnone)
  | parsed now msg hparsing =>
    obtain ⟨event, hevent, hdropped, hlog⟩ := handling_dispatchOrDrop hturn
    refine .inr ⟨now, msg, event, rfl, hparsing, hevent, hdropped, ?_⟩
    rw [hlog]
    exact List.find?_cons_of_pos rfl
  | answered settled uid' handler' =>
    rw [turn_answered] at hturn
    cases hturn
  | marked settled uids drain =>
    rw [turn_marked] at hturn
    cases hturn

end Inbox

namespace EmailAdapter

variable {a : EmailAdapter} {act : Action} {event : EmailMessageEvent}

theorem hears_eq_some : a.hears m simpleParser opts act = some event ↔
    ∃ now msg, act = .parsed now ∧ a.inbox.turn = some (.parsing msg) ∧
      Inbox.eventOf m simpleParser opts msg now = .ok event ∧
      droppedBy m opts event.email.fromAddress msg.headers = none := by
  constructor
  · intro h
    unfold hears at h
    split at h
    · split at h
      · rename_i msg hturn
        split at h
        · rename_i event' hevent
          obtain ⟨hdropped, heq⟩ := Option.ite_none_right_eq_some.1 h
          cases heq
          exact ⟨_, msg, rfl, hturn, hevent, hdropped⟩
        · cases h
      · cases h
    · cases h
  · rintro ⟨now, msg, rfl, hturn, hevent, hdropped⟩
    simp only [hears, hturn, hevent, hdropped, if_true]

/-- No mail is handed over without being heard. -/
theorem handling_of_hears_none {b : EmailAdapter} (hstep : a.step m simpleParser opts act = some b)
    (hhears : a.hears m simpleParser opts act = none) {uid : Nat} {handler : Handler}
    (hturn : b.inbox.turn = some (.handling uid handler)) :
    a.inbox.turn = some (.handling uid handler) ∧
      b.inbox.log.find? Event.isHanded = a.inbox.log.find? Event.isHanded := by
  refine (Inbox.handling_of_moves (moves_of_step hstep) hturn).resolve_right ?_
  rintro ⟨now, msg, event, rfl, hparsing, hevent, hdropped, _⟩
  have hsome := hears_eq_some.2 ⟨now, msg, rfl, hparsing, hevent, hdropped⟩
  rw [hhears] at hsome
  cases hsome

end EmailAdapter

namespace Threads

/-- What holds after every run. -/
structure InOrder (x : Threads) : Prop where
  /-- The store holds the contexts that were recorded last. -/
  held : x.threadStore.entries.reverse =
    (OrderedMap.latestOf x.recorded).take ThreadStore.maxSize
  /-- A handler has the mail that was recorded last, unless the store was cleared since. -/
  handling : ∀ uid handler, x.adapter.inbox.turn = some (.handling uid handler) →
    ∃ event, x.adapter.inbox.log.find? Event.isHanded = some (.handed uid handler event) ∧
      OfSender event ∧
      (x.recorded = [] ∨ x.recorded.head? = some (event.email.messageId, contextOf event))

variable {x x' : Threads} {act : Action}

theorem inOrder_init : InOrder {} where
  held := rfl
  handling _ _ h := nomatch h

theorem inOrder_step (h : x.InOrder) (hstep : x.step m simpleParser opts act = some x') :
    x'.InOrder := by
  obtain ⟨adapter, hadapter, hstep⟩ := Option.bind_eq_some_iff.1 hstep
  have hmoves := EmailAdapter.moves_of_step hadapter
  cases hhears : x.adapter.hears m simpleParser opts act with
  | some event =>
    rw [hhears] at hstep
    cases hstep
    obtain ⟨now, msg, rfl, hturn, hevent, _⟩ := EmailAdapter.hears_eq_some.1 hhears
    refine ⟨OrderedMap.reverse_entries_pushRecent (by decide) h.held,
      fun uid handler hhandling => ?_⟩
    obtain ⟨hbefore, _⟩ | ⟨now', msg', event', hact, hturn', hevent', _, hfind⟩ :=
      Inbox.handling_of_moves hmoves hhandling
    · rw [hturn] at hbefore
      cases hbefore
    · cases hact
      cases hturn.symm.trans hturn'
      cases hevent.symm.trans hevent'
      exact ⟨event, hfind, ofSender_of_parsed hevent, .inr rfl⟩
  | none =>
    rw [hhears] at hstep
    have hkept := @EmailAdapter.handling_of_hears_none _ _ _ _ _ _ hadapter hhears
    dsimp only at hstep
    split at hstep
    · cases hstep
      refine ⟨rfl, fun uid handler hhandling => ?_⟩
      obtain ⟨hbefore, hfind⟩ := hkept hhandling
      obtain ⟨event, hhanded, hsender, _⟩ := h.handling uid handler hbefore
      exact ⟨event, hfind.trans hhanded, hsender, .inl rfl⟩
    · cases hstep
      refine ⟨h.held, fun uid handler hhandling => ?_⟩
      obtain ⟨hbefore, hfind⟩ := hkept hhandling
      obtain ⟨event, hhanded, hsender, hrecorded⟩ := h.handling uid handler hbefore
      exact ⟨event, hfind.trans hhanded, hsender, hrecorded⟩

theorem inOrder_of_run {actions : List Action}
    (hrun : run (step m simpleParser opts) {} actions = some x) : x.InOrder :=
  invariant (fun _ _ _ h hstep => inOrder_step h hstep) inOrder_init hrun

/-- The step does not come to the end of `disconnect` while a handler has a mail. -/
def Undisturbed (x : Threads) (act : Action) : Prop :=
  x.adapter.clears act = true → ∀ uid handler, x.adapter.inbox.turn ≠ some (.handling uid handler)

/-- The mail that a handler has is recorded. -/
def Kept (x : Threads) : Prop :=
  ∀ uid handler, x.adapter.inbox.turn = some (.handling uid handler) → x.recorded ≠ []

theorem kept_init : Kept {} := fun _ _ h => nomatch h

theorem kept_step (h : x.Kept) (hundisturbed : x.Undisturbed act)
    (hstep : x.step m simpleParser opts act = some x') : x'.Kept := by
  obtain ⟨adapter, hadapter, hstep⟩ := Option.bind_eq_some_iff.1 hstep
  cases hhears : x.adapter.hears m simpleParser opts act with
  | some event =>
    rw [hhears] at hstep
    cases hstep
    exact fun _ _ _ => List.cons_ne_nil _ _
  | none =>
    rw [hhears] at hstep
    have hkept := @EmailAdapter.handling_of_hears_none _ _ _ _ _ _ hadapter hhears
    dsimp only at hstep
    split at hstep
    · next hclears =>
      cases hstep
      exact fun uid handler hturn => absurd (hkept hturn).1 (hundisturbed hclears uid handler)
    · cases hstep
      exact fun uid handler hturn => h uid handler (hkept hturn).1

theorem kept_of_run {actions : List Action}
    (hrun : run (step m simpleParser opts) {} actions = some x)
    (hmeets : Meets (step m simpleParser opts) Undisturbed {} actions) : x.Kept :=
  invariant_of_meets (fun _ _ _ h hundisturbed hstep => kept_step h hundisturbed hstep) kept_init
    hmeets hrun

/-- What was recorded last is found. -/
theorem InOrder.lookup_head (h : x.InOrder) {t : JsString} {context : ThreadContext}
    (hhead : x.recorded.head? = some (t, context)) : x.threadStore.lookup t = some context := by
  refine (OrderedMap.mem_latestOf_of_get h.held).2 ?_
  cases hrecorded : x.recorded with
  | nil =>
    rw [hrecorded] at hhead
    cases hhead
  | cons e past =>
    rw [hrecorded] at hhead
    cases hhead
    exact List.mem_cons_self

end Threads

end TheokitGateways.Email
