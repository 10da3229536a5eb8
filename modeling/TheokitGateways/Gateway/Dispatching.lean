import TheokitGateways.Gateway.HookChain
import TheokitGateways.Gateway.Replies
import TheokitGateways.Transition

/-!
# A dispatch with its replies

The handler of an event may begin replies at any time from its call on, also
after it has returned, and they go on side by side with each other and with the
dispatch. A step is one of the dispatch or of one reply, so a run is any
interleaving. In every state of every run the chain of hooks keeps its contract,
and the replies keep theirs exactly where the adapter and the observers let them
(`dispatchContract_iff`).
-/

namespace TheokitGateways.Gateway
open Js Async Prog Transition

/-- A reply under way, with what it has done. -/
structure Attempt where
  outbound : OutboundMessage
  prog : DeliverProg SendResult
  trace : List DeliverEvent

structure Dispatching where
  main : DispatchProg Unit
  trace : List DispatchEvent
  attempts : List Attempt
  /-- The reply that answers a block, when it has begun. -/
  auto : Option Nat

namespace Dispatching

inductive Action where
  /-- The dispatch goes on; a call it waits for settles. -/
  | main (env : ∀ c : DispatchCall, Except JsAny c.Answer)
  /-- The handler calls `ctx.reply(text, { format })`. -/
  | reply (text : JsString) (format : Option Format)
  /-- The dispatch begins the reply to a block. -/
  | autoReply
  /-- The dispatch is answered by the reply it began. -/
  | autoReplied
  /-- A reply goes on; a call it waits for settles. -/
  | attempt (index : Nat) (env : ∀ c : DeliverCall, Except JsAny c.Answer)

section
variable (redact : JsString → JsString) (opts : GatewayRunnerOptions) (event : BaseMessageEvent)

def start : Dispatching := ⟨dispatch redact opts event, [], [], none⟩

def begin (out : OutboundMessage) : Attempt := ⟨out, deliver opts event out, []⟩

/-- The message a dispatch waits to be sent. -/
def awaitedReply (w : Dispatching) : Option OutboundMessage :=
  match w.main.pending with
  | some (.reply out) => some out
  | _ => none

def stepMain (w : Dispatching) (env : ∀ c : DispatchCall, Except JsAny c.Answer) :
    Option Dispatching :=
  (w.main.step env).map fun next => { w with main := next.2, trace := w.trace ++ [next.1] }

/-- An environment that answers a reply. -/
def repliedEnv (r : Except JsAny SendResult) : ∀ c : DispatchCall, Except JsAny c.Answer
  | .reply _ => r
  | _ => .error .undefined

def step (w : Dispatching) : Action → Option Dispatching
  | .main env => if w.awaitedReply.isSome then none else w.stepMain env
  | .reply text format =>
    if handlerCalls w.trace w.main = [] then none
    else
      some { w with
        attempts := w.attempts ++
          [begin opts event { channel := event.channel, text := text, format := format }] }
  | .autoReply => do
    let out ← w.awaitedReply
    if w.auto.isSome then none
    else
      some { w with
        attempts := w.attempts ++ [begin opts event out]
        auto := some w.attempts.length }
  | .autoReplied => do
    let _ ← w.awaitedReply
    let attempt ← w.attempts[← w.auto]?
    let r ← attempt.prog.result
    w.stepMain (repliedEnv r)
  | .attempt index env => do
    let attempt ← w.attempts[index]?
    let next ← attempt.prog.step env
    return { w with
      attempts := w.attempts.set index
        { attempt with prog := next.2, trace := attempt.trace ++ [next.1] } }

end

/-- The dispatch and every reply have done what their programs do. -/
structure Faithful (redact : JsString → JsString) (opts : GatewayRunnerOptions)
    (event : BaseMessageEvent) (w : Dispatching) : Prop where
  main : Runs (dispatch redact opts event) w.trace w.main
  attempts : ∀ a ∈ w.attempts, Runs (deliver opts event a.outbound) a.trace a.prog

/-- What a dispatch and its replies are promised. -/
structure Contract (opts : GatewayRunnerOptions) (event : BaseMessageEvent) (w : Dispatching) :
    Prop where
  chain : ChainContract opts event w.trace w.main
  attempts : ∀ a ∈ w.attempts, AttemptContract opts event a.outbound a.trace a.prog

variable {redact : JsString → JsString} {opts : GatewayRunnerOptions} {event : BaseMessageEvent}

theorem faithful_start : Faithful redact opts event (start redact opts event) :=
  ⟨.nil _, by simp [start]⟩

theorem stepMain_faithful {w w' : Dispatching} {env : ∀ c : DispatchCall, Except JsAny c.Answer}
    (h : Faithful redact opts event w) (hstep : w.stepMain env = some w') :
    Faithful redact opts event w' := by
  obtain ⟨next, hnext, rfl⟩ := Option.map_eq_some_iff.1 hstep
  exact ⟨h.main.snoc hnext, h.attempts⟩

theorem begin_faithful {w : Dispatching} {out : OutboundMessage} {auto : Option Nat}
    (h : Faithful redact opts event w) :
    Faithful redact opts event
      { w with attempts := w.attempts ++ [begin opts event out], auto := auto } := by
  refine ⟨h.main, fun a ha => ?_⟩
  obtain ha | ha := List.mem_append.1 ha
  · exact h.attempts a ha
  · cases List.mem_singleton.1 ha
    exact .nil _

theorem step_faithful {w w' : Dispatching} {a : Action} (h : Faithful redact opts event w)
    (hstep : step opts event w a = some w') : Faithful redact opts event w' := by
  cases a with
  | main env =>
    simp only [step] at hstep
    split at hstep
    · cases hstep
    · exact stepMain_faithful h hstep
  | reply text format =>
    simp only [step] at hstep
    split at hstep
    · cases hstep
    · cases hstep
      exact begin_faithful h
  | autoReply =>
    obtain ⟨out, _, hstep⟩ := Option.bind_eq_some_iff.1 hstep
    split at hstep
    · cases hstep
    · cases hstep
      exact begin_faithful h
  | autoReplied =>
    obtain ⟨_, _, hstep⟩ := Option.bind_eq_some_iff.1 hstep
    obtain ⟨_, _, hstep⟩ := Option.bind_eq_some_iff.1 hstep
    obtain ⟨_, _, hstep⟩ := Option.bind_eq_some_iff.1 hstep
    obtain ⟨_, _, hstep⟩ := Option.bind_eq_some_iff.1 hstep
    exact stepMain_faithful h hstep
  | attempt index env =>
    obtain ⟨attempt, hattempt, hstep⟩ := Option.bind_eq_some_iff.1 hstep
    obtain ⟨next, hnext, hstep⟩ := Option.bind_eq_some_iff.1 hstep
    cases hstep
    refine ⟨h.main, fun a ha => ?_⟩
    obtain ha | rfl := List.mem_or_eq_of_mem_set ha
    · exact h.attempts a ha
    · exact (h.attempts attempt (List.mem_of_getElem? hattempt)).snoc hnext

/-- A dispatch and its replies keep their promise in a state exactly when no reply has settled
there after its adapter threw with someone to tell, or after an observer threw what cannot be
printed. -/
theorem dispatchContract_iff {as : List Action} {w : Dispatching}
    (hrun : run (step opts event) (start redact opts event) as = some w) :
    Contract opts event w ↔
      ∀ a ∈ w.attempts, a.prog.finished = true → AttemptCondition opts a.trace := by
  have hfaithful : Faithful redact opts event w :=
    invariant (fun _ _ _ => step_faithful) faithful_start hrun
  constructor
  · rintro ⟨_, hattempts⟩ a ha
    exact (attemptContract_iff (hfaithful.attempts a ha)).1 (hattempts a ha)
  · intro hcondition
    exact ⟨chainContract hfaithful.main, fun a ha =>
      (attemptContract_iff (hfaithful.attempts a ha)).2 (hcondition a ha)⟩

/-- A hook that observes replies. -/
def auditHook : GatewayHook := ⟨js "audit", false, true, false, by decide, rfl⟩

def auditOptions : GatewayRunnerOptions where
  adapters := [js "telegram"]
  hooks := [auditHook]
  commands := []

def auditEvent : BaseMessageEvent where
  id := js "tg-1-2"
  platform := js "telegram"
  sender := { id := js "100" }
  channel := { id := js "1", type := .dm }
  text := js "hello"
  receivedAt := 0

/-- The adapter sends, and the hook ends as given. -/
def auditEnv (hook : Except JsAny Unit) : ∀ c : DeliverCall, Except JsAny c.Answer
  | .sendMessage _ _ => .ok { ok := true, messageId := some (js "2") }
  | .postOutbound _ _ _ => hook

/-- The handler replies once, and the reply settles. -/
def auditRun (hook : Except JsAny Unit) : Option Dispatching :=
  run (step auditOptions auditEvent) (start id auditOptions auditEvent)
    [.reply (js "hi") none, .attempt 0 (auditEnv hook), .attempt 0 (auditEnv hook)]

theorem dispatchContract_iff_audited :
    Contract auditOptions auditEvent ((auditRun (.ok ())).get (by rfl)) ↔
      ∀ a ∈ ((auditRun (.ok ())).get (by rfl)).attempts, a.prog.finished = true →
        AttemptCondition auditOptions a.trace :=
  dispatchContract_iff (Option.some_get _).symm

/-- A hook that throws `undefined` makes a reply that was sent fail for its caller. -/
theorem observer_fails_reply :
    ¬Contract auditOptions auditEvent ((auditRun (.error .undefined)).get (by rfl)) := by
  intro h
  have hattempt := h.attempts _ List.mem_cons_self
  have hret := hattempt.returns rfl { ok := true, messageId := some (js "2") }
    (List.mem_cons_self)
  cases hret

end Dispatching

end TheokitGateways.Gateway
