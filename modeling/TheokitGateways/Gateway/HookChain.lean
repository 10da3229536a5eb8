import TheokitGateways.Gateway.Dispatch

/-!
# The chain of hooks and the handler

`pre_inbound` hooks are called in the order they were registered, up to the first
that blocks or throws, and the handler is called once if none did. This holds of
every run of a dispatch, whatever the hooks answer or throw (`chainContract`).
-/

namespace TheokitGateways.Gateway
open Js Async Prog

def preOf : DispatchCall → Option GatewayHook
  | .preInbound hook => some hook
  | _ => none

def handlerOf : DispatchCall → Option (Option JsString)
  | .handler command => some command
  | _ => none

/-- What the `pre_inbound` hooks answered. -/
def preAnswers (t : List DispatchEvent) : List (GatewayHook × Except JsAny (Option HookDecision)) :=
  t.filterMap fun | .answered (.preInbound h) r => some (h, r) | _ => none

/-- Whether a hook neither blocked nor threw. -/
def passes : Except JsAny (Option HookDecision) → Bool
  | .ok decision => (blocking decision).isNone
  | .error _ => false

def Passed (t : List DispatchEvent) : Prop := ∀ a ∈ preAnswers t, passes a.2 = true

/-- The `pre_inbound` hooks a dispatch called. -/
def preCalls {α : Type} (t : List DispatchEvent) (q : DispatchProg α) : List GatewayHook :=
  (callsMade t q).filterMap preOf

/-- The handlers it called, by their command. -/
def handlerCalls {α : Type} (t : List DispatchEvent) (q : DispatchProg α) :
    List (Option JsString) :=
  (callsMade t q).filterMap handlerOf

/-- Nothing follows the first hook that blocks or throws. -/
def StopsAtFirst {α : Type} (t : List DispatchEvent) (q : DispatchProg α) : Prop :=
  ∀ pre h r post, preAnswers t = pre ++ (h, r) :: post → passes r = false →
    preCalls t q = pre.map Prod.fst ++ [h]

theorem fireObservers_callsIn {Call : Type} {Answer : Call → Type} {P : Call → Prop}
    {phase : JsString} {declares : GatewayHook → Bool}
    {fire : GatewayHook → Prog Call Answer JsAny JsString (Except JsAny Unit)}
    (hfire : ∀ h, (fire h).CallsIn P) (hooks : List GatewayHook) :
    (fireObservers phase declares fire hooks).CallsIn P := by
  induction hooks with
  | nil => trivial
  | cons h hooks ih =>
    by_cases hdeclares : declares h = true
    · simp only [fireObservers, hdeclares, Bool.not_true, Bool.false_eq_true, if_false]
      refine (hfire h).bind fun r => CallsIn.bind ?_ fun _ => ih
      cases r with
      | ok _ => trivial
      | error err => exact (callsIn_ofExcept _).bind fun _ => trivial
    · simp only [fireObservers, hdeclares, Bool.not_false, if_true]
      exact ih

variable {redact : JsString → JsString}

/-- What became of the chain of `pre_inbound` hooks. -/
structure Chain (hooks : List GatewayHook) (t : List DispatchEvent)
    (q : DispatchProg HookDecision) : Prop where
  order : preCalls t q <+: hooks.filter (·.preInbound)
  no_handler : handlerCalls t q = []
  stops : StopsAtFirst t q
  thrown : ∀ e, q = .throw e → ¬Passed t
  passed : ∀ d, q = .ret d → d.block ≠ some true →
    Passed t ∧ preCalls t q = hooks.filter (·.preInbound)
  blocked : ∀ d, q = .ret d → d.block = some true → ¬Passed t

/-- A program that calls no `pre_inbound` hook gets no answer of one. -/
theorem preAnswers_eq_nil {α : Type} {t : List DispatchEvent} {q : DispatchProg α}
    (h : ∀ c ∈ callsMade t q, preOf c = none) : preAnswers t = [] := by
  refine List.filterMap_eq_nil_iff.2 fun e he => ?_
  cases e with
  | emitted line => rfl
  | answered c r =>
    have hc := h c (mem_callsMade he q)
    cases c with
    | preInbound hook => cases hc
    | handler command => rfl
    | onError hook err => rfl
    | reply out => rfl

theorem chain_here {hooks : List GatewayHook} {hook : GatewayHook} {q : DispatchProg HookDecision}
    (hdeclares : hook.preInbound = true) (hpending : q.pending = some (.preInbound hook)) :
    Chain (hook :: hooks) [] q := by
  have hcalls : preCalls [] q = [hook] := by simp [preCalls, hpending, preOf]
  refine ⟨by simp [hcalls, hdeclares], by simp [handlerCalls, hpending, handlerOf], ?_, ?_, ?_, ?_⟩
  · intro pre h r post heq
    simp [preAnswers] at heq
  all_goals
    intro d hd
    rw [hd] at hpending
    cases hpending

/-- A hook that blocks or throws ends the chain. -/
theorem chain_stop {hooks : List GatewayHook} {hook : GatewayHook}
    {r : Except JsAny (Option HookDecision)} {t : List DispatchEvent}
    {q : DispatchProg HookDecision} (hdeclares : hook.preInbound = true) (hr : passes r = false)
    (hcalls : callsMade t q = []) (hblock : ∀ d, q = .ret d → d.block = some true) :
    Chain (hook :: hooks) (.answered (.preInbound hook) r :: t) q := by
  have hpre : preCalls (.answered (.preInbound hook) r :: t) q = [hook] := by
    simp [preCalls, hcalls, preOf]
  have hrest : preAnswers t = [] := preAnswers_eq_nil (q := q) (by simp [hcalls])
  have hanswers : preAnswers (.answered (.preInbound hook) r :: t) = [(hook, r)] :=
    congrArg ((hook, r) :: ·) hrest
  have hfailed : ¬Passed (.answered (.preInbound hook) r :: t) := by
    intro hpassed
    rw [Passed, hanswers] at hpassed
    have := hpassed _ (List.mem_singleton_self _)
    rw [hr] at this
    cases this
  refine ⟨by simp [hpre, hdeclares], by simp [handlerCalls, hcalls, handlerOf], ?_,
    fun _ _ => hfailed, fun d hd hd' => absurd (hblock d hd) hd', fun _ _ _ => hfailed⟩
  intro pre h r' post heq _
  rw [hanswers] at heq
  rw [hpre]
  cases pre with
  | nil =>
    cases heq
    rfl
  | cons a pre => simp at heq

/-- A hook that passes hands over to the rest of the chain. -/
theorem Chain.cons {hooks : List GatewayHook} {hook : GatewayHook}
    {r : Except JsAny (Option HookDecision)} {t : List DispatchEvent}
    {q : DispatchProg HookDecision} (hdeclares : hook.preInbound = true) (hr : passes r = true)
    (h : Chain hooks t q) : Chain (hook :: hooks) (.answered (.preInbound hook) r :: t) q := by
  have hpassed : Passed (.answered (.preInbound hook) r :: t) ↔ Passed t := by
    simp [Passed, preAnswers, hr]
  have hpre : preCalls (.answered (.preInbound hook) r :: t) q = hook :: preCalls t q := by
    simp [preCalls, preOf]
  have hfilter : (hook :: hooks).filter (·.preInbound) =
      hook :: hooks.filter (·.preInbound) := by simp [hdeclares]
  refine ⟨?_, by simpa [handlerCalls, handlerOf] using h.no_handler, ?_, ?_, ?_, ?_⟩
  · rw [hpre, hfilter]
    exact (List.cons_prefix_cons).2 ⟨rfl, h.order⟩
  · intro pre hook' r' post heq hr'
    cases pre with
    | nil =>
      cases heq
      cases hr.symm.trans hr'
    | cons a pre =>
      have hhead : a = (hook, r) := (List.cons.inj heq).1.symm
      have htail : preAnswers t = pre ++ (hook', r') :: post := (List.cons.inj heq).2
      rw [hpre, h.stops pre hook' r' post htail hr', hhead]
      rfl
  · exact fun e he hp => h.thrown e he (hpassed.1 hp)
  · intro d hd hblock
    obtain ⟨hp, hcalls⟩ := h.passed d hd hblock
    exact ⟨hpassed.2 hp, by rw [hpre, hcalls, hfilter]⟩
  · exact fun d hd hblock hp => h.blocked d hd hblock (hpassed.1 hp)

theorem Chain.skip {hooks : List GatewayHook} {hook : GatewayHook} {t : List DispatchEvent}
    {q : DispatchProg HookDecision} (hdeclares : hook.preInbound = false) (h : Chain hooks t q) :
    Chain (hook :: hooks) t q := by
  have hfilter : (hook :: hooks).filter (·.preInbound) = hooks.filter (·.preInbound) := by
    simp [hdeclares]
  exact ⟨hfilter ▸ h.order, h.no_handler, h.stops, h.thrown,
    fun d hd hblock => hfilter ▸ h.passed d hd hblock, h.blocked⟩

/-- A hook's failure is printed, and makes no call. -/
theorem hookFailed_runs {hook : GatewayHook} {err : JsAny} {t : List DispatchEvent}
    {q : DispatchProg HookDecision} (h : Runs (hookFailed redact hook err) t q) :
    callsMade t q = [] ∧ ∀ d, q = .ret d → d.block = some true := by
  have hnone : (hookFailed redact hook err).CallsIn fun _ => False :=
    (callsIn_ofExcept _).bind fun _ => trivial
  refine ⟨List.eq_nil_iff_forall_not_mem.2 (hnone.callsMade h), ?_⟩
  rintro d rfl
  simp only [hookFailed] at h
  cases hredacted : redacted redact err with
  | error e =>
    rw [hredacted] at h
    obtain ⟨_, hd⟩ := runs_throw.1 h
    cases hd
  | ok message =>
    rw [hredacted] at h
    obtain ⟨_, hd⟩ | ⟨t', _, h⟩ := runs_emit.1 h
    · cases hd
    · obtain ⟨_, hd⟩ := runs_ret.1 h
      cases hd
      rfl

theorem firePreInbound_runs {hooks : List GatewayHook} {t : List DispatchEvent}
    {q : DispatchProg HookDecision} (h : Runs (firePreInbound redact hooks) t q) :
    Chain hooks t q := by
  induction hooks generalizing t with
  | nil =>
    obtain ⟨rfl, rfl⟩ := runs_ret.1 h
    refine ⟨List.nil_prefix, rfl, ?_, ?_, ?_, ?_⟩
    · intro pre h r post heq
      simp [preAnswers] at heq
    · intro e he
      cases he
    · exact fun d _ _ => ⟨by simp [Passed, preAnswers], rfl⟩
    · intro d hd hblock
      cases hd
      cases hblock
  | cons hook hooks ih =>
    by_cases hdeclares : hook.preInbound = true
    · simp only [firePreInbound, hdeclares, Bool.not_true, Bool.false_eq_true, if_false] at h
      obtain ⟨rfl, rfl⟩ | ⟨r, t', rfl, hrun⟩ := runs_call.1 h
      · exact chain_here hdeclares rfl
      cases r with
      | error err =>
        have hrun : Runs (hookFailed redact hook err) t' q := hrun
        obtain ⟨hcalls, hblock⟩ := hookFailed_runs hrun
        exact chain_stop hdeclares rfl hcalls hblock
      | ok decision =>
        cases hdecision : blocking decision with
        | some d =>
          simp only [Prog.bind, hdecision] at hrun
          obtain ⟨rfl, rfl⟩ := runs_ret.1 hrun
          have hblock := (Option.filter_eq_some_iff.1 hdecision).2
          refine chain_stop hdeclares (by simp [passes, hdecision]) rfl fun d' hd => ?_
          cases hd
          simpa using hblock
        | none =>
          simp only [Prog.bind, hdecision] at hrun
          exact (ih hrun).cons hdeclares (by simp [passes, hdecision])
    · have hdeclares : hook.preInbound = false := by simpa using hdeclares
      simp only [firePreInbound, hdeclares, Bool.not_false, if_true] at h
      exact (ih h).skip hdeclares

/-- What a dispatch is promised of its hooks and its handler. -/
structure ChainContract (opts : GatewayRunnerOptions) (event : BaseMessageEvent)
    (t : List DispatchEvent) (q : DispatchProg Unit) : Prop where
  /-- The hooks are called in the order they were registered. -/
  order : preCalls t q <+: opts.hooks.filter (·.preInbound)
  /-- The first that blocks or throws is the last. -/
  stops : StopsAtFirst t q
  /-- The handler is called at most once: the one the text selects, after every hook passed. -/
  handler : handlerCalls t q = [] ∨
    (handlerCalls t q = [matchSlashCommand opts event] ∧ Passed t ∧
      preCalls t q = opts.hooks.filter (·.preInbound))
  /-- A dispatch that has settled called it, if every hook passed. -/
  completes : q.finished = true → Passed t → handlerCalls t q = [matchSlashCommand opts event]

/-- After a block nothing is called but the reply. -/
theorem decided_blocked_callsIn {opts : GatewayRunnerOptions} {event : BaseMessageEvent}
    {d : HookDecision} (hblock : d.block = some true) :
    (decided redact opts event d).CallsIn fun c => ∃ out, c = .reply out := by
  rw [decided, if_pos hblock]
  split
  · trivial
  · trivial
  · exact ⟨⟨_, rfl⟩, fun _ => trivial⟩

theorem handlerSettled_callsIn {opts : GatewayRunnerOptions} (r : Except JsAny Unit) :
    (handlerSettled redact opts r).CallsIn fun c => ∃ h e, c = .onError h e := by
  cases r with
  | ok _ => trivial
  | error err =>
    have honError (h : GatewayHook) :
        (settle (DispatchCall.onError h err) : DispatchProg (Except JsAny Unit)).CallsIn
          fun c => ∃ h e, c = .onError h e := ⟨⟨h, err, rfl⟩, fun _ => trivial⟩
    exact CallsIn.bind (fireObservers_callsIn honError _) fun _ =>
      (callsIn_ofExcept _).bind fun _ => trivial

/-- When no hook blocks, the handler is the first call of what follows, and the only one that is
no `on_error` hook. -/
theorem decided_runs {opts : GatewayRunnerOptions} {event : BaseMessageEvent} {d : HookDecision}
    {t : List DispatchEvent} {q : DispatchProg Unit} (hblock : d.block ≠ some true)
    (h : Runs (decided redact opts event d) t q) :
    ∃ rest, callsMade t q = .handler (matchSlashCommand opts event) :: rest ∧
      ∀ c ∈ rest, ∃ h e, c = .onError h e := by
  rw [decided, if_neg hblock] at h
  obtain ⟨rfl, rfl⟩ | ⟨r, t', rfl, hrun⟩ := runs_call.1 h
  · exact ⟨[], rfl, by simp⟩
  · have hrun : Runs (handlerSettled redact opts r) t' q := hrun
    exact ⟨_, callsMade_answered .., (handlerSettled_callsIn r).callsMade hrun⟩

/-- What a sequence calls after its first part has returned. -/
theorem callsMade_after {α β : Type} (t₁ t₂ : List DispatchEvent) (a : α) (q : DispatchProg β) :
    callsMade (t₁ ++ t₂) q = callsMade t₁ (.ret a : DispatchProg α) ++ callsMade t₂ q := by
  rw [callsMade_append]
  exact congrArg (· ++ callsMade t₂ q) (List.append_nil _).symm

/-- The chain's contract where a hook has decided to block. -/
theorem chainContract_blocked {opts : GatewayRunnerOptions} {event : BaseMessageEvent}
    {d : HookDecision} {t₁ t₂ : List DispatchEvent} {q : DispatchProg Unit}
    (hchain : Chain opts.hooks t₁ (.ret d)) (hblock : d.block = some true)
    (hq : Runs (decided redact opts event d) t₂ q) : ChainContract opts event (t₁ ++ t₂) q := by
  have hreply := (decided_blocked_callsIn hblock).callsMade hq
  have hpreNone (c : DispatchCall) (hc : c ∈ callsMade t₂ q) : preOf c = none := by
    obtain ⟨out, rfl⟩ := hreply c hc
    rfl
  have hhandlerNone (c : DispatchCall) (hc : c ∈ callsMade t₂ q) : handlerOf c = none := by
    obtain ⟨out, rfl⟩ := hreply c hc
    rfl
  have hpre : preCalls (t₁ ++ t₂) q = preCalls t₁ (.ret d : DispatchProg HookDecision) := by
    rw [preCalls, callsMade_after t₁ t₂ d, List.filterMap_append,
      List.filterMap_eq_nil_iff.2 hpreNone, List.append_nil, preCalls]
  have hanswers : preAnswers (t₁ ++ t₂) = preAnswers t₁ := by
    rw [preAnswers, List.filterMap_append]
    exact (congrArg (preAnswers t₁ ++ ·) (preAnswers_eq_nil hpreNone)).trans (List.append_nil _)
  have hfailed : ¬Passed (t₁ ++ t₂) := by
    rw [Passed, hanswers]
    exact hchain.blocked d rfl hblock
  refine ⟨hpre ▸ hchain.order, ?_, .inl ?_, fun _ hpassed => absurd hpassed hfailed⟩
  · intro pre h r post heq hr
    rw [hanswers] at heq
    rw [hpre]
    exact hchain.stops pre h r post heq hr
  · rw [handlerCalls, callsMade_after t₁ t₂ d, List.filterMap_append,
      List.filterMap_eq_nil_iff.2 hhandlerNone, List.append_nil]
    exact hchain.no_handler

/-- The chain's contract where every hook has passed. -/
theorem chainContract_passed {opts : GatewayRunnerOptions} {event : BaseMessageEvent}
    {d : HookDecision} {t₁ t₂ : List DispatchEvent} {q : DispatchProg Unit}
    (hchain : Chain opts.hooks t₁ (.ret d)) (hblock : d.block ≠ some true)
    (hq : Runs (decided redact opts event d) t₂ q) : ChainContract opts event (t₁ ++ t₂) q := by
  obtain ⟨hpassed, hall⟩ := hchain.passed d rfl hblock
  obtain ⟨rest, hcalls, hrest⟩ := decided_runs hblock hq
  have hpreNone (c : DispatchCall) (hc : c ∈ callsMade t₂ q) : preOf c = none := by
    rw [hcalls] at hc
    obtain rfl | hc := List.mem_cons.1 hc
    · rfl
    · obtain ⟨h, e, rfl⟩ := hrest c hc
      rfl
  have hhandlerNone (c : DispatchCall) (hc : c ∈ rest) : handlerOf c = none := by
    obtain ⟨h, e, rfl⟩ := hrest c hc
    rfl
  have hpre : preCalls (t₁ ++ t₂) q = opts.hooks.filter (·.preInbound) := by
    rw [preCalls, callsMade_after t₁ t₂ d, List.filterMap_append,
      List.filterMap_eq_nil_iff.2 hpreNone, List.append_nil]
    exact hall
  have hanswers : preAnswers (t₁ ++ t₂) = preAnswers t₁ := by
    rw [preAnswers, List.filterMap_append]
    exact (congrArg (preAnswers t₁ ++ ·) (preAnswers_eq_nil hpreNone)).trans (List.append_nil _)
  have hhandler : handlerCalls (t₁ ++ t₂) q = [matchSlashCommand opts event] := by
    have hbefore : (callsMade t₁ (.ret d : DispatchProg HookDecision)).filterMap handlerOf = [] :=
      hchain.no_handler
    rw [handlerCalls, callsMade_after t₁ t₂ d, List.filterMap_append, hbefore, hcalls]
    simp [handlerOf, List.filterMap_eq_nil_iff.2 hhandlerNone]
  have hpassed' : Passed (t₁ ++ t₂) := by
    rw [Passed, hanswers]
    exact hpassed
  refine ⟨by simp [hpre], ?_, .inr ⟨hhandler, hpassed', hpre⟩, fun _ _ => hhandler⟩
  intro pre h r post heq hr
  have := hpassed' (h, r) (by rw [heq]; simp)
  cases hr.symm.trans this

/-- Every dispatch keeps the promise, whatever its hooks and its handler do. -/
theorem chainContract {opts : GatewayRunnerOptions} {event : BaseMessageEvent}
    {t : List DispatchEvent} {q : DispatchProg Unit}
    (h : Runs (dispatch redact opts event) t q) : ChainContract opts event t q := by
  obtain ⟨p, hp, hlive, rfl⟩ | ⟨e, hp, rfl⟩ | ⟨t₁, t₂, d, rfl, hp, hq⟩ := h.of_bind
  · have hchain := firePreInbound_runs hp
    have hcalls := callsMade_bind (f := decided redact opts event) hlive t
    have hpre : preCalls t (p >>= decided redact opts event) = preCalls t p := by
      rw [preCalls, hcalls, preCalls]
    refine ⟨hpre ▸ hchain.order, ?_, .inl ?_, fun hq => ?_⟩
    · intro pre h r post heq hr
      rw [hpre]
      exact hchain.stops pre h r post heq hr
    · rw [handlerCalls, hcalls]
      exact hchain.no_handler
    · rw [finished_bind hlive] at hq
      cases hq
  · have hchain := firePreInbound_runs hp
    exact ⟨hchain.order, hchain.stops, .inl hchain.no_handler,
      fun _ hpassed => absurd hpassed (hchain.thrown e rfl)⟩
  · by_cases hblock : d.block = some true
    · exact chainContract_blocked (firePreInbound_runs hp) hblock hq
    · exact chainContract_passed (firePreInbound_runs hp) hblock hq

end TheokitGateways.Gateway
