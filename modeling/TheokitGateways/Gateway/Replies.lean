import TheokitGateways.Gateway.Dispatch

/-!
# Reply attempts and the hooks that observe them

An attempt is sent at most once and told to each `post_outbound` hook in order.
It tells them all and returns what the adapter answered unless the adapter
throws with someone to tell, or a hook throws a value that cannot be printed
(`attemptContract_iff`).
-/

namespace TheokitGateways.Gateway
open Js Async Prog

/-- A thrown value whose message can be put in a line. -/
def Printable (err : JsAny) : Prop := ∃ text, printed err = .ok text

/-- What became of the observers of a reply: all were called and what they threw was printed,
or one threw what cannot be. -/
def Observed (hooks fired : List GatewayHook) (t : List DeliverEvent) {α : Type}
    (q : DeliverProg α) : Prop :=
  (∃ a, q = .ret a ∧ fired = hooks.filter (·.postOutbound) ∧
    ∀ h out result e, .answered (.postOutbound h out result) (.error e) ∈ t → Printable e) ∨
  ∃ e, q = .throw e ∧
    ∃ h out result e, .answered (.postOutbound h out result) (.error e) ∈ t ∧ ¬Printable e

theorem Observed.emitted {hooks fired : List GatewayHook} {t : List DeliverEvent} {α : Type}
    {q : DeliverProg α} {line : JsString} (h : Observed hooks fired t q) :
    Observed hooks fired (.emitted line :: t) q := by
  simpa [Observed] using h

theorem Observed.cons {hooks fired : List GatewayHook} {t : List DeliverEvent} {α : Type}
    {q : DeliverProg α} {hook : GatewayHook} {outbound : OutboundMessage} {result : SendResult}
    {r : Except JsAny Unit} (hdeclares : hook.postOutbound = true)
    (hr : ∀ e, r = .error e → Printable e) (h : Observed hooks fired t q) :
    Observed (hook :: hooks) (hook :: fired) (.answered (.postOutbound hook outbound result) r :: t)
      q := by
  obtain ⟨a, hq, hfired, hprinted⟩ | ⟨e, hq, h', out, res, err, hmem, herr⟩ := h
  · refine .inl ⟨a, hq, by simp [hdeclares, hfired], fun h' out res e hmem => ?_⟩
    obtain hhead | htail := List.mem_cons.1 hmem
    · cases hhead
      exact hr e rfl
    · exact hprinted h' out res e htail
  · exact .inr ⟨e, hq, h', out, res, err, List.mem_cons_of_mem _ hmem, herr⟩

/-- The observers are called in order, each at most once. -/
theorem firePostOutbound_runs {hooks : List GatewayHook} {outbound : OutboundMessage}
    {result : SendResult} {t : List DeliverEvent} {q : DeliverProg Unit}
    (h : Runs (firePostOutbound hooks outbound result) t q) :
    ∃ fired, callsMade t q = fired.map (DeliverCall.postOutbound · outbound result) ∧
      fired <+: hooks.filter (·.postOutbound) ∧
      (q.finished = true → Observed hooks fired t q) := by
  induction hooks generalizing t with
  | nil =>
    obtain ⟨rfl, rfl⟩ := runs_ret.1 h
    exact ⟨[], rfl, List.nil_prefix, fun _ => .inl ⟨(), rfl, rfl, by simp⟩⟩
  | cons hook hooks ih =>
    by_cases hdeclares : hook.postOutbound = true
    · have hhead : [hook] <+: (hook :: hooks).filter (·.postOutbound) := by
        simp [hdeclares]
      simp only [firePostOutbound, fireObservers, hdeclares, Bool.not_true, Bool.false_eq_true,
        if_false] at h
      obtain ⟨rfl, rfl⟩ | ⟨r, t', rfl, hrun⟩ := runs_call.1 h
      · exact ⟨[hook], rfl, hhead, fun hq => by cases hq⟩
      have hrun : Runs (report (js "post_outbound") hook r >>= fun _ =>
          firePostOutbound hooks outbound result) t' q := hrun
      cases r with
      | ok answer =>
        rw [report_ok] at hrun
        obtain ⟨fired, hcalls, hprefix, hobserved⟩ := ih hrun
        refine ⟨hook :: fired, by simp [hcalls], by simpa [hdeclares] using hprefix, fun hq => ?_⟩
        exact (hobserved hq).cons hdeclares (fun e he => by cases he)
      | error err =>
        cases hprinted : printed err with
        | error e =>
          rw [report_throw hprinted] at hrun
          obtain ⟨rfl, rfl⟩ := runs_throw.1 hrun
          refine ⟨[hook], rfl, hhead, fun _ => .inr ⟨e, rfl, hook, outbound, result, err,
            List.mem_singleton_self _, ?_⟩⟩
          rintro ⟨text, htext⟩
          cases hprinted.symm.trans htext
        | ok message =>
          rw [report_printed hprinted] at hrun
          obtain ⟨rfl, rfl⟩ | ⟨t'', rfl, hrest⟩ := runs_emit.1 hrun
          · exact ⟨[hook], rfl, hhead, fun hq => by cases hq⟩
          obtain ⟨fired, hcalls, hprefix, hobserved⟩ := ih hrest
          refine ⟨hook :: fired, by simp [hcalls], by simpa [hdeclares] using hprefix,
            fun hq => ?_⟩
          refine (hobserved hq).emitted.cons hdeclares fun e he => ?_
          cases he
          exact ⟨message, hprinted⟩
    · simp only [firePostOutbound, fireObservers, hdeclares, Bool.not_false, if_true] at h
      obtain ⟨fired, hcalls, hprefix, hobserved⟩ := ih h
      refine ⟨fired, hcalls, by simpa [hdeclares] using hprefix, fun hq => ?_⟩
      simpa [Observed, hdeclares] using hobserved hq

/-! ## Reply attempts -/

def sendOf : DeliverCall → Option (JsString × OutboundMessage)
  | .sendMessage platform outbound => some (platform, outbound)
  | _ => none

def postOf : DeliverCall → Option GatewayHook
  | .postOutbound hook _ _ => some hook
  | _ => none

/-- The result the adapter of a platform gave an attempt, or what stands for it where the
platform has no adapter. -/
def AdapterResult (opts : GatewayRunnerOptions) (event : BaseMessageEvent)
    (outbound : OutboundMessage) (t : List DeliverEvent) (result : SendResult) : Prop :=
  if event.platform ∈ opts.adapters then
    .answered (.sendMessage event.platform outbound) (.ok result) ∈ t
  else result = noAdapter event.platform

/-- What a reply attempt is promised. -/
structure AttemptContract (opts : GatewayRunnerOptions) (event : BaseMessageEvent)
    (outbound : OutboundMessage) (t : List DeliverEvent) (q : DeliverProg SendResult) : Prop where
  /-- It is sent at most once, by the adapter of the event's platform. -/
  sends_once : (callsMade t q).filterMap sendOf = [] ∨
    (callsMade t q).filterMap sendOf = [(event.platform, outbound)]
  /-- No hook observes it twice, or out of order. -/
  observes_in_order : (callsMade t q).filterMap postOf <+: opts.hooks.filter (·.postOutbound)
  /-- When it has settled, every hook has observed it. -/
  observed : q.finished = true →
    (callsMade t q).filterMap postOf = opts.hooks.filter (·.postOutbound)
  /-- The caller gets what the adapter answered. -/
  returns : q.finished = true → ∀ result, AdapterResult opts event outbound t result →
    q = .ret result

/-- `sendMessage` does not throw, unless there is no one to tell, and what the hooks throw can be
printed. -/
structure AttemptCondition (opts : GatewayRunnerOptions) (t : List DeliverEvent) : Prop where
  send : ∀ platform outbound e, .answered (.sendMessage platform outbound) (.error e) ∈ t →
    opts.hooks.filter (·.postOutbound) = []
  hooks : ∀ h outbound result e, .answered (.postOutbound h outbound result) (.error e) ∈ t →
    Printable e

variable {opts : GatewayRunnerOptions} {event : BaseMessageEvent} {outbound : OutboundMessage}

/-- What the hooks are told of a result, and what is returned then. -/
theorem observing_runs {result : SendResult} {t : List DeliverEvent} {q : DeliverProg SendResult}
    (h : Runs (firePostOutbound opts.hooks outbound result >>= fun _ => pure result) t q) :
    (callsMade t q).filterMap sendOf = [] ∧
    (callsMade t q).filterMap postOf <+: opts.hooks.filter (·.postOutbound) ∧
    (q.finished = true →
      (q = .ret result ∧ (callsMade t q).filterMap postOf = opts.hooks.filter (·.postOutbound) ∧
        AttemptCondition opts t) ∨
      (∃ e, q = .throw e) ∧ ¬AttemptCondition opts t) := by
  have hsends (fired : List GatewayHook) :
      (fired.map (DeliverCall.postOutbound · outbound result)).filterMap sendOf = [] := by
    simp [List.filterMap_map, Function.comp_def, sendOf]
  have hposts (fired : List GatewayHook) :
      (fired.map (DeliverCall.postOutbound · outbound result)).filterMap postOf = fired := by
    simp [List.filterMap_map, Function.comp_def, postOf]
  obtain ⟨p, hp, hlive, rfl⟩ | ⟨e, hp, rfl⟩ | ⟨t₁, t₂, a, rfl, hp, hq⟩ := h.of_bind
  · obtain ⟨fired, hcalls, hprefix, _⟩ := firePostOutbound_runs hp
    rw [callsMade_bind hlive, hcalls, hsends, hposts, finished_bind hlive]
    exact ⟨rfl, hprefix, fun hq => by cases hq⟩
  · obtain ⟨fired, hcalls, hprefix, hobserved⟩ := firePostOutbound_runs hp
    have hcalls' : callsMade t (.throw e : DeliverProg SendResult) =
        fired.map (DeliverCall.postOutbound · outbound result) := hcalls
    rw [hcalls', hsends, hposts]
    refine ⟨rfl, hprefix, fun _ => .inr ⟨⟨e, rfl⟩, fun hcondition => ?_⟩⟩
    obtain ⟨a, ha, _⟩ | ⟨_, _, hook, out, res, err, hmem, herr⟩ := hobserved rfl
    · cases ha
    · exact herr (hcondition.hooks hook out res err hmem)
  · obtain ⟨rfl, rfl⟩ := runs_ret.1 hq
    obtain ⟨fired, hcalls, hprefix, hobserved⟩ := firePostOutbound_runs hp
    have hcalls' : callsMade (t₁ ++ []) (.ret result : DeliverProg SendResult) =
        fired.map (DeliverCall.postOutbound · outbound result) := by
      rw [List.append_nil]
      exact hcalls
    rw [hcalls', hsends, hposts, List.append_nil]
    refine ⟨rfl, hprefix, fun _ => .inl ⟨rfl, ?_, ?_⟩⟩
    · obtain ⟨a, _, hfired, _⟩ | ⟨e, he, _⟩ := hobserved rfl
      · exact hfired
      · cases he
    · obtain ⟨a, _, _, hprinted⟩ | ⟨e, he, _⟩ := hobserved rfl
      · refine ⟨fun platform out e hmem => ?_, hprinted⟩
        have hcall := mem_callsMade hmem (.ret () : DeliverProg Unit)
        rw [hcalls] at hcall
        obtain ⟨hook, _, hook_eq⟩ := List.mem_map.1 hcall
        cases hook_eq
      · cases he

theorem attemptCondition_cons {platform : JsString} {result : SendResult} {t : List DeliverEvent} :
    AttemptCondition opts (.answered (.sendMessage platform outbound) (.ok result) :: t) ↔
      AttemptCondition opts t := by
  constructor
  · rintro ⟨hsend, hhooks⟩
    exact ⟨fun p out e h => hsend p out e (List.mem_cons_of_mem _ h),
      fun hook out res e h => hhooks hook out res e (List.mem_cons_of_mem _ h)⟩
  · rintro ⟨hsend, hhooks⟩
    refine ⟨fun p out e h => ?_, fun hook out res e h => ?_⟩
    · obtain hhead | htail := List.mem_cons.1 h
      · cases hhead
      · exact hsend p out e htail
    · obtain hhead | htail := List.mem_cons.1 h
      · cases hhead
      · exact hhooks hook out res e htail

/-- An attempt keeps its promise unless it settled after its adapter threw with someone to
tell, or after a hook threw what cannot be printed. -/
theorem attemptContract_iff {t : List DeliverEvent} {q : DeliverProg SendResult}
    (h : Runs (deliver opts event outbound) t q) :
    AttemptContract opts event outbound t q ↔
      (q.finished = true → AttemptCondition opts t) := by
  by_cases hplatform : event.platform ∈ opts.adapters
  · simp only [deliver, hplatform, if_true] at h
    obtain ⟨rfl, rfl⟩ | ⟨r, t', rfl, hrun⟩ := runs_call.1 h
    · refine iff_of_true ⟨.inr rfl, List.nil_prefix, fun hq => ?_, fun hq => ?_⟩ fun hq => ?_
      all_goals cases hq
    cases r with
    | error e =>
      obtain ⟨rfl, rfl⟩ := runs_throw.1 hrun
      constructor
      · rintro ⟨_, _, hobserved, _⟩ hq
        refine ⟨fun platform out e' hmem => (hobserved hq).symm, fun hook out res e' hmem => ?_⟩
        cases List.mem_singleton.1 hmem
      · intro hcondition
        have hnone := (hcondition rfl).send event.platform outbound e (List.mem_singleton_self _)
        refine ⟨.inr rfl, List.nil_prefix, fun _ => hnone.symm, fun _ result hresult => ?_⟩
        rw [AdapterResult, if_pos hplatform] at hresult
        cases List.mem_singleton.1 hresult
    | ok result =>
      obtain ⟨hsends, hprefix, hdone⟩ := observing_runs hrun
      have hresult (result' : SendResult) (hr : AdapterResult opts event outbound
          (.answered (.sendMessage event.platform outbound) (.ok result) :: t') result') :
          result' = result := by
        rw [AdapterResult, if_pos hplatform] at hr
        obtain hhead | htail := List.mem_cons.1 hr
        · cases hhead
          rfl
        · have hsend : (event.platform, outbound) ∈ (callsMade t' q).filterMap sendOf :=
            List.mem_filterMap.2 ⟨_, mem_callsMade htail q, rfl⟩
          rw [hsends] at hsend
          cases hsend
      rw [attemptCondition_cons]
      constructor
      · rintro ⟨_, _, _, hreturns⟩ hq
        obtain ⟨_, _, hcondition⟩ | ⟨⟨e, he⟩, _⟩ := hdone hq
        · exact hcondition
        · have hret := hreturns hq result (by
            rw [AdapterResult, if_pos hplatform]
            exact List.mem_cons_self)
          cases he.symm.trans hret
      · intro hcondition
        refine ⟨.inr ?_, hprefix, fun hq => ?_, fun hq result' hr => ?_⟩
        · simp [sendOf, hsends]
        · obtain ⟨_, hposts, _⟩ | ⟨_, hbad⟩ := hdone hq
          · exact hposts
          · exact absurd (hcondition hq) hbad
        · obtain ⟨hret, _, _⟩ | ⟨_, hbad⟩ := hdone hq
          · rw [hresult result' hr]
            exact hret
          · exact absurd (hcondition hq) hbad
  · simp only [deliver, hplatform, if_false] at h
    obtain ⟨hsends, hprefix, hdone⟩ := observing_runs h
    constructor
    · rintro ⟨_, _, _, hreturns⟩ hq
      obtain ⟨_, _, hcondition⟩ | ⟨⟨e, he⟩, _⟩ := hdone hq
      · exact hcondition
      · have hret := hreturns hq (noAdapter event.platform) (by
          rw [AdapterResult, if_neg hplatform])
        cases he.symm.trans hret
    · intro hcondition
      refine ⟨.inl hsends, hprefix, fun hq => ?_, fun hq result' hr => ?_⟩
      · obtain ⟨_, hposts, _⟩ | ⟨_, hbad⟩ := hdone hq
        · exact hposts
        · exact absurd (hcondition hq) hbad
      · rw [AdapterResult, if_neg hplatform] at hr
        obtain ⟨hret, _, _⟩ | ⟨_, hbad⟩ := hdone hq
        · rw [hr]
          exact hret
        · exact absurd (hcondition hq) hbad

end TheokitGateways.Gateway
