import TheokitGateways.Email.Adapter
import TheokitGateways.History

/-!
# Only what was processed is flagged

A mail that is flagged is not fetched again, so a UID should be passed to
`markSeen` only once its message has been handed to a handler that answered, or
dropped on purpose, or could not be parsed. A message that passes the rules while
no handler is subscribed is finished with all the same: `Heard` says of a step
that it does not take up such a message.
-/

namespace TheokitGateways.Email
open Js Gateway History Transition

/-- The message was heard by a handler, dropped on purpose, or could not be parsed. -/
def Processed (uid : Nat) (past : List Event) : Prop :=
  (∃ handler event, .handed uid handler event ∈ past ∧ .answered uid handler ∈ past) ∨
    (∃ rule warning, .dropped uid rule warning ∈ past) ∨ .unparsed uid ∈ past

/-- Every UID that was passed to `markSeen` had been processed. -/
def Accounted : List Event → Prop :=
  Each fun e past => ∀ uids uid, e = .offered uids → uid ∈ uids → Processed uid past

section
variable (m : CaseMapping) (simpleParser : List UInt8 → Except JsAny ParsedMail)
  (opts : EmailAdapterOptions)

/-- A handler is subscribed whenever a message that no rule drops has been parsed. -/
def Heard (a : EmailAdapter) : Action → Prop
  | .parsed now => ∀ msg event, a.inbox.turn = some (.parsing msg) →
      Inbox.eventOf m simpleParser opts msg now = .ok event →
      droppedBy m opts event.email.fromAddress msg.headers = none → a.inbox.handler.isSome = true
  | _ => True

end

theorem Processed.mono {uid : Nat} {past later : List Event} (h : Processed uid past)
    (hsub : past ⊆ later) : Processed uid later := by
  obtain ⟨handler, event, hhanded, hanswered⟩ | ⟨rule, warning, hdropped⟩ | hunparsed := h
  · exact .inl ⟨handler, event, hsub hhanded, hsub hanswered⟩
  · exact .inr (.inl ⟨rule, warning, hsub hdropped⟩)
  · exact .inr (.inr (hsub hunparsed))

namespace Inbox

/-- What every step of a run that is heard keeps. -/
structure Honest (b : Inbox) : Prop where
  accounted : Accounted b.log
  pending : ∀ uid ∈ b.pendingSeen, Processed uid b.log
  handling : ∀ uid handler, b.turn = some (.handling uid handler) →
    ∃ event, .handed uid handler event ∈ b.log

variable {b : Inbox}

/-- Recording anything but an offer. -/
theorem Honest.record (h : b.Honest) {e : Event} (he : ∀ uids, e ≠ .offered uids) :
    (b.record e).Honest where
  accounted := ⟨fun uids _ heq => absurd heq (he uids), h.accounted⟩
  pending uid huid := (h.pending uid huid).mono (List.subset_cons_self _ _)
  handling uid handler hturn := by
    obtain ⟨event, hevent⟩ := h.handling uid handler hturn
    exact ⟨event, List.mem_cons_of_mem _ hevent⟩

/-- A dispatch of a processed message finishes. -/
theorem Honest.finish (h : b.Honest) {uid : Nat} (huid : Processed uid b.log) :
    (b.finish uid).Honest where
  accounted := ⟨fun _ _ heq => (nomatch heq), h.accounted⟩
  pending x hx := by
    refine Processed.mono ?_ (List.subset_cons_self _ _)
    obtain hx | rfl := mem_addUid.1 hx
    · exact h.pending x hx
    · exact huid
  handling _ _ hturn := nomatch hturn

theorem Honest.report (h : b.Honest) (err : JsAny) : (b.report err).Honest := by
  unfold Inbox.report
  split
  · exact h
  · exact ⟨h.accounted, h.pending, h.handling⟩

theorem Honest.runJob (h : b.Honest) (imap : Bool) (job : Job) :
    (b.runJob imap job).Honest := by
  cases job with
  | dispatch msg =>
    simp only [Inbox.runJob, dispatchInboundInner]
    split
    · exact h
    · exact ⟨h.accounted, h.pending, fun _ _ heq => nomatch heq⟩
  | flush drain =>
    simp only [Inbox.runJob, flushSeen]
    split
    · exact h
    · split
      · exact h.record (by simp)
      · refine ⟨⟨fun uids uid heq huid => ?_, h.accounted⟩, by simp, fun _ _ heq => nomatch heq⟩
        cases heq
        exact h.pending uid huid

theorem Honest.answered (h : b.Honest) {uid : Nat} {handler : Handler}
    (hturn : b.turn = some (.handling uid handler)) (settled : Except JsAny Unit) :
    (b.answered uid handler settled).Honest := by
  obtain ⟨event, hhanded⟩ := h.handling uid handler hturn
  have hfinish : ((b.record (.answered uid handler)).finish uid).Honest := by
    apply (h.record (by simp)).finish
    exact .inl ⟨handler, event, List.mem_cons_of_mem _ hhanded, List.mem_cons_self⟩
  cases settled with
  | ok => exact hfinish
  | error err => exact hfinish.report err

theorem Honest.marked (h : b.Honest) (uids : List Nat) (drain : Nat) (settled : Except JsAny Unit) :
    (b.marked uids drain settled).Honest := by
  have hidle : Honest { b with turn := none } :=
    ⟨h.accounted, h.pending, fun _ _ heq => nomatch heq⟩
  cases settled with
  | ok => exact (hidle.record (by simp)).record (by simp)
  | error err => exact ((hidle.record (by simp)).record (by simp)).report err

variable {m : CaseMapping} {simpleParser : List UInt8 → Except JsAny ParsedMail}
  {opts : EmailAdapterOptions}

theorem Honest.dispatchOrDrop (h : b.Honest) {msg : FetchedMessage} {now : JsNumber}
    (hheard : ∀ event, eventOf m simpleParser opts msg now = .ok event →
      droppedBy m opts event.email.fromAddress msg.headers = none → b.handler.isSome = true) :
    (b.dispatchOrDrop m simpleParser opts msg now).Honest := by
  unfold Inbox.dispatchOrDrop
  split
  · rename_i err herr
    apply Honest.report
    apply (h.record (by simp)).finish
    exact .inr (.inr List.mem_cons_self)
  · rename_i event hevent
    split
    · apply (h.record (by simp)).finish
      exact .inr (.inl ⟨_, _, List.mem_cons_self⟩)
    · rename_i hnone hhandler
      have hsome := hheard event hevent hnone
      simp [hhandler] at hsome
    · rename_i handler hnone hhandler
      refine ⟨⟨fun _ _ heq => (nomatch heq), h.accounted⟩, fun uid huid => ?_, ?_⟩
      · exact (h.pending uid huid).mono (List.subset_cons_self _ _)
      · rintro uid' handler' heq
        cases heq
        exact ⟨event, List.mem_cons_self⟩

end Inbox

namespace EmailAdapter
variable {m : CaseMapping} {simpleParser : List UInt8 → Except JsAny ParsedMail}
  {opts : EmailAdapterOptions}

theorem honest_step {a b : EmailAdapter} {act : Action} (h : a.inbox.Honest)
    (hheard : Heard m simpleParser opts a act)
    (hstep : step m simpleParser opts a act = some b) : b.inbox.Honest := by
  have hmoves := moves_of_step hstep
  generalize b.inbox = c at hmoves ⊢
  cases hmoves with
  | same => exact h
  | cleared => exact ⟨h.accounted, h.pending, h.handling⟩
  | subscribed => exact ⟨h.accounted, h.pending, h.handling⟩
  | drained _ messages =>
    have hlisted := h.record (e := .listed a.inbox.drains (messages.map (·.uid))) (by simp)
    exact ⟨hlisted.accounted, hlisted.pending, hlisted.handling⟩
  | next imap job rest hturn hqueue =>
    have hrest : Inbox.Honest { a.inbox with queue := rest } :=
      ⟨h.accounted, h.pending, h.handling⟩
    exact hrest.runJob imap job
  | parsed now msg hturn => exact h.dispatchOrDrop fun event => hheard msg event hturn
  | answered settled uid handler hturn => exact h.answered hturn settled
  | marked settled uids drain hturn => exact h.marked uids drain settled

/-- In a run that takes up no message unheard, only what was processed is flagged. -/
theorem accounted_of_heard (m : CaseMapping)
    (simpleParser : List UInt8 → Except JsAny ParsedMail) (opts : EmailAdapterOptions)
    (as : List Action) (a : EmailAdapter) (hrun : run (step m simpleParser opts) {} as = some a)
    (hheard : Meets (step m simpleParser opts) (Heard m simpleParser opts) {} as) :
    Accounted a.inbox.log := by
  have hstart : Inbox.Honest {} := ⟨trivial, by simp, fun _ _ heq => nomatch heq⟩
  have hhonest := invariant_of_meets (I := fun a => a.inbox.Honest)
    (fun _ _ _ h hC hstep => honest_step h hC hstep) hstart hheard hrun
  exact hhonest.accounted

/-- A parser that reads every mail as one from the same sender. -/
def oneSender : List UInt8 → Except JsAny ParsedMail := fun _ =>
  .ok { fromField := some [{ value := some [{ address := some (js "alice@x.org") }] }] }

def bot : EmailAdapterOptions where
  address := js "bot@x.org"

def mail (uid : Nat) : FetchedMessage where
  uid := uid
  source := []

/-- The calls of `connect` up to its own drain, which lists one mail. -/
def firstDrain : List Action :=
  [.connect, .advance 0 (.ok true), .advance 0 (.ok false), .fetched 0 (.ok [mail 1]), .next]

/-- A handler hears the first mail, which is flagged. -/
def firstHeard : List Action :=
  .onInbound 0 :: firstDrain ++ [.parsed (.finite 0), .answered (.ok ()), .next, .marked (.ok ())]

theorem heard_firstHeard :
    Meets (step asciiCase oneSender bot) (Heard asciiCase oneSender bot) {} firstHeard := by
  refine meets_cons trivial rfl ?_
  refine meets_cons trivial rfl ?_
  refine meets_cons trivial rfl ?_
  refine meets_cons trivial rfl ?_
  refine meets_cons trivial rfl ?_
  refine meets_cons trivial rfl ?_
  refine ⟨fun _ _ _ _ _ => rfl, fun t _ => meets_of_forall fun act hact u => ?_⟩
  simp only [List.mem_cons, List.not_mem_nil, or_false] at hact
  rcases hact with rfl | rfl | rfl <;> trivial

theorem accounted_of_heard_firstHeard :
    ∃ a, run (step asciiCase oneSender bot) {} firstHeard = some a ∧ Accounted a.inbox.log := by
  have hsome : (run (step asciiCase oneSender bot) {} firstHeard).isSome = true := by
    decide +kernel
  obtain ⟨a, hrun⟩ := Option.isSome_iff_exists.1 hsome
  exact ⟨a, hrun, accounted_of_heard asciiCase oneSender bot firstHeard a hrun heard_firstHeard⟩

/-- Before a handler is subscribed, what the drain of `connect` lists is flagged unheard. -/
theorem unheard_mail_flagged :
    ¬ ∀ (m : CaseMapping) (simpleParser : List UInt8 → Except JsAny ParsedMail)
      (opts : EmailAdapterOptions) (as : List Action) (a : EmailAdapter),
      run (step m simpleParser opts) {} as = some a → Accounted a.inbox.log := by
  intro h
  have hlost : (run (step asciiCase oneSender bot) {}
      (firstDrain ++ [.parsed (.finite 0), .next])).any
      (fun a => a.inbox.log = [.offered [1], .finished 1, .listed 0 [1]]) = true := by
    decide +kernel
  obtain ⟨a, hrun, hlog⟩ := (Option.any_eq_true _ _).1 hlost
  have haccounted := h asciiCase oneSender bot _ a hrun
  simp only [decide_eq_true_eq] at hlog
  rw [hlog] at haccounted
  have hprocessed := haccounted.1 [1] 1 rfl (by simp)
  simp [Processed] at hprocessed

end EmailAdapter

end TheokitGateways.Email
