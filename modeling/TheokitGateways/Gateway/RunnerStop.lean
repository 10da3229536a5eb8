import TheokitGateways.Gateway.Replies
import TheokitGateways.Gateway.RunnerRelease

/-!
# A stop resolves

As long as what is thrown can be put in a line, no dispatch rejects, so nothing
keeps a stop from going on to release the adapters, and no `disconnect()` that
fails keeps it from resolving. From every state of a run the stop is over once
its timer has fired and each `disconnect()` has settled.
-/

namespace TheokitGateways.Gateway
open Js Async Prog History Transition

/-- What is thrown, where the dispatch puts it in a line, can be put there. -/
def Harmless (redact : JsString → JsString) : ∀ c : DispatchCall, Except JsAny c.Answer → Prop
  | .preInbound _, .error e => ∃ text, redacted redact e = .ok text
  | .handler _, .error e => ∃ text, redacted redact e = .ok text
  | .onError _ _, .error e => Printable e
  | _, _ => True

variable {redact : JsString → JsString} {opts : GatewayRunnerOptions}

theorem report_safe {phase : JsString} {h : GatewayHook} {r : Except JsAny Unit}
    (hr : ∀ e, r = .error e → Printable e) :
    (report phase h r : DispatchProg Unit).SafeUnder (Harmless redact) := by
  cases r with
  | ok _ => trivial
  | error err =>
    obtain ⟨text, htext⟩ := hr err rfl
    simp only [report, htext]
    trivial

theorem fireOnError_safe (hooks : List GatewayHook) (error : JsAny) :
    (fireOnError hooks error).SafeUnder (Harmless redact) := by
  induction hooks with
  | nil => trivial
  | cons hook hooks ih =>
    unfold fireOnError fireObservers
    split
    · exact ih
    · intro r hr
      refine (report_safe fun e he => ?_).bind fun _ => ih
      subst he
      exact hr

theorem hookFailed_safe {h : GatewayHook} {err : JsAny}
    (herr : ∃ text, redacted redact err = .ok text) :
    (hookFailed redact h err).SafeUnder (Harmless redact) := by
  obtain ⟨text, htext⟩ := herr
  simp only [hookFailed, htext]
  trivial

theorem firePreInbound_safe (hooks : List GatewayHook) :
    (firePreInbound redact hooks).SafeUnder (Harmless redact) := by
  induction hooks with
  | nil => trivial
  | cons hook hooks ih =>
    unfold firePreInbound
    split
    · exact ih
    · intro r hr
      cases r with
      | error err => exact hookFailed_safe hr
      | ok decision =>
        simp only [Prog.bind]
        split
        · trivial
        · exact ih

theorem decided_safe (event : BaseMessageEvent) (decision : HookDecision) :
    (decided redact opts event decision).SafeUnder (Harmless redact) := by
  unfold decided
  split
  · split
    · trivial
    · trivial
    · exact fun r _ => trivial
  · intro r hr
    cases r with
    | ok _ => trivial
    | error err =>
      obtain ⟨text, htext⟩ := hr
      refine (fireOnError_safe opts.hooks err).bind fun _ => ?_
      simp only [htext]
      trivial

/-- A dispatch does not reject over what can be put in a line. -/
theorem dispatch_safe (event : BaseMessageEvent) :
    (dispatch redact opts event).SafeUnder (Harmless redact) :=
  (firePreInbound_safe opts.hooks).bind (decided_safe event)

namespace Runner

/-- The actions with which a stop ends, whatever the disconnects come to. -/
def finish (opts : GatewayRunnerOptions) (outcomes : Nat → Except JsAny Unit) (s : Runner) :
    List Action :=
  match s.stopPhase with
  | .notCalled | .settled _ => []
  | .draining _ =>
    .drainTimeout :: (opts.registered.map fun i => .stopDisconnects i (outcomes i)) ++
      [.stopReleased]
  | .releasing release =>
    (release.remaining.map fun i => .stopDisconnects i (outcomes i)) ++ [.stopReleased]

/-- The adapter's `disconnect()` was called after the stop. -/
def DisconnectedSinceStop (log : List LogEvent) (i : Nat) : Prop :=
  ∃ later earlier, log = later ++ .stopCalled :: earlier ∧ .disconnect i ∈ later

/-- What a stop is promised. -/
structure StopResolves (redact : JsString → JsString) (opts : GatewayRunnerOptions) (s : Runner) :
    Prop where
  /-- No dispatch has rejected. -/
  tracked : ∀ d ∈ s.dispatches, ∀ e, d.prog ≠ .throw e
  /-- The stop has not rejected. -/
  never_rejects : ∀ e, s.stopPhase ≠ .settled (.error e)
  /-- Past its drain it has called every `disconnect()`. -/
  disconnects : s.stopPhase.released = true →
    ∀ i ∈ opts.registered, DisconnectedSinceStop s.log i
  /-- Its timer and the disconnects are all it still waits for. -/
  resolves : s.stopPhase.called = true → ∀ outcomes : Nat → Except JsAny Unit,
    (∀ i e, outcomes i = .error e → ∃ text, described redact e = .ok text) →
      ∃ t, run (step redact opts) s (s.finish opts outcomes) = some t ∧
        t.stopPhase = .settled (.ok ())

/-- What the calls of a dispatch throw, and the disconnects of a stop, can be put in a line. -/
def Describable (redact : JsString → JsString) (s : Runner) : Action → Prop
  | .dispatchStep d env => ∀ dispatched, s.dispatches[d]? = some dispatched →
      ∀ c, dispatched.prog.pending = some c → Harmless redact c (env c)
  | .stopDisconnects _ (.error err) => ∃ text, described redact err = .ok text
  | _ => True

/-- A release that nothing has rejected. -/
def Clear : StopPhase → Prop
  | .releasing release => release.rejected = none
  | .settled r => r = .ok ()
  | _ => True

structure Resolving (redact : JsString → JsString) (opts : GatewayRunnerOptions) (s : Runner) :
    Prop where
  safe : ∀ d ∈ s.dispatches, d.prog.SafeUnder (Harmless redact)
  clear : Clear s.stopPhase
  logged : s.stopPhase.called = true → .stopCalled ∈ s.log
  disconnects : s.stopPhase.released = true →
    ∀ i ∈ opts.registered, DisconnectedSinceStop s.log i

theorem DisconnectedSinceStop.append {log : List LogEvent} {i : Nat}
    (h : DisconnectedSinceStop log i) (es : List LogEvent) :
    DisconnectedSinceStop (es ++ log) i := by
  obtain ⟨later, earlier, rfl, hmem⟩ := h
  exact ⟨es ++ later, earlier, by simp, List.mem_append_right _ hmem⟩

/-- What leaves the stop and the dispatches alone, and forgets nothing. -/
structure Quiet (s s' : Runner) : Prop where
  stopPhase : s'.stopPhase = s.stopPhase
  dispatches : s'.dispatches = s.dispatches
  log : ∃ es, s'.log = es ++ s.log

/-- An update of the starts, or of what they have left. -/
theorem Quiet.of_eq {s s' : Runner} (hstop : s'.stopPhase = s.stopPhase)
    (hdispatches : s'.dispatches = s.dispatches) (hlog : s'.log = s.log) : Quiet s s' :=
  ⟨hstop, hdispatches, [], hlog⟩

theorem Quiet.refl (s : Runner) : Quiet s s := .of_eq rfl rfl rfl

theorem Quiet.setRun (s : Runner) (k : Nat) (run : StartRun) : Quiet s (s.setRun k run) :=
  .of_eq rfl rfl rfl

theorem Quiet.note {s s' : Runner} (h : Quiet s s') (es : List LogEvent) :
    Quiet s (s'.note es) := by
  obtain ⟨hstop, hdispatches, es', hlog⟩ := h
  exact ⟨hstop, hdispatches, es.reverse ++ es', by rw [note_log, hlog, List.append_assoc]⟩

theorem Quiet.trans {s s' s'' : Runner} (h : Quiet s s') (h' : Quiet s' s'') : Quiet s s'' := by
  obtain ⟨es, hes⟩ := h.log
  obtain ⟨es', hes'⟩ := h'.log
  exact ⟨h'.stopPhase.trans h.stopPhase, h'.dispatches.trans h.dispatches,
    es' ++ es, by rw [hes', hes, List.append_assoc]⟩

theorem Resolving.quiet {s s' : Runner} (h : Resolving redact opts s) (hq : Quiet s s') :
    Resolving redact opts s' := by
  obtain ⟨hstop, hdispatches, es, hlog⟩ := hq
  refine ⟨hdispatches ▸ h.safe, hstop ▸ h.clear, fun hc => ?_, fun hr i hi => ?_⟩
  · rw [hlog]
    exact List.mem_append_right _ (h.logged (hstop ▸ hc))
  · rw [hlog]
    exact (h.disconnects (hstop ▸ hr) i hi).append es

theorem quiet_callNext (s : Runner) (k : Nat) (run : StartRun) :
    Quiet s (s.callNext opts k run) := by
  unfold callNext
  split
  · exact (Quiet.setRun s k _).note _
  · exact .of_eq rfl rfl rfl

theorem quiet_start (s : Runner) : Quiet s (s.start opts) := by
  unfold start
  split
  · exact (Quiet.refl s).note _
  · split
    · exact (Quiet.refl s).note _
    · exact (Quiet.refl s).note _
    · have hbegun : Quiet s { s with runs := s.runs ++ [StartRun.new] } := .of_eq rfl rfl rfl
      exact (hbegun.note _).trans (quiet_callNext _ _ _)

theorem quiet_settleStart (s : Runner) (k : Nat) (run : StartRun) (r : Except JsAny StartResult) :
    Quiet s (s.settleStart k run r) := (Quiet.setRun s k _).note _

theorem quiet_resolveStart (s : Runner) (k : Nat) (run : StartRun) (result : StartResult) :
    Quiet s (s.resolveStart k run result) := by
  have hresult : Quiet s { s with startResult := some result } := .of_eq rfl rfl rfl
  exact hresult.trans (quiet_settleStart _ k run _)

theorem quiet_wireNext (s : Runner) (k : Nat) (run : StartRun) (outcome : ConnectOutcome)
    (rest : List Nat) : Quiet s (s.wireNext opts k run outcome rest) := by
  cases rest with
  | nil => exact quiet_resolveStart s k run _
  | cons next rest => exact .of_eq rfl rfl rfl

/-- What a start does leaves a stop alone. -/
theorem quiet_of_start {s s' : Runner} {k : Nat} {f : StartRun → Option Runner}
    (hstep : (s.runs[k]?).bind f = some s')
    (hf : ∀ run t, f run = some t → Quiet s t) : Quiet s s' := by
  obtain ⟨run, _, hrun⟩ := Option.bind_eq_some_iff.1 hstep
  exact hf run s' hrun

theorem quiet_connectsDone {s s' : Runner} {k : Nat}
    (hstep : s.connectsDone redact opts k = some s') : Quiet s s' := by
  refine quiet_of_start hstep fun run t ht => ?_
  split at ht
  · simp only [Option.ite_none_left_eq_some] at ht
    obtain ⟨_, ht⟩ := ht
    split at ht
    · split at ht <;> cases ht
      · exact .of_eq rfl rfl rfl
      · exact (Quiet.setRun s k _).note _
    · split at ht <;> cases ht
      · exact .of_eq rfl rfl rfl
      · exact quiet_settleStart _ _ _ _
  · cases ht

theorem quiet_startReleased {s s' : Runner} {k : Nat} (hstep : s.startReleased k = some s') :
    Quiet s s' := by
  refine quiet_of_start hstep fun run t ht => ?_
  split at ht
  · obtain ⟨r, _, ht⟩ := Option.bind_eq_some_iff.1 ht
    split at ht <;> cases ht <;> exact quiet_settleStart _ _ _ _
  · obtain ⟨r, _, ht⟩ := Option.bind_eq_some_iff.1 ht
    split at ht <;> cases ht
    · exact quiet_resolveStart _ _ _ _
    · exact quiet_settleStart _ _ _ _
  · cases ht

theorem quiet_startDisconnects {s s' : Runner} {k i : Nat} {r : Except JsAny Unit}
    (hstep : s.startDisconnects redact opts k i r = some s') : Quiet s s' := by
  refine quiet_of_start hstep fun run t ht => ?_
  split at ht
  · simp only [Option.ite_none_left_eq_some] at ht
    obtain ⟨_, ht⟩ := ht
    cases ht
    exact (Quiet.setRun s k _).note _
  · simp only [Option.ite_none_left_eq_some] at ht
    obtain ⟨_, ht⟩ := ht
    cases ht
    exact (Quiet.setRun s k _).note _
  · cases ht

/-- The stop goes on to release what the runner holds. -/
theorem Resolving.releaseRegistered {s : Runner} (h : Resolving redact opts s)
    (hlogged : .stopCalled ∈ s.log) : Resolving redact opts (s.releaseRegistered opts) := by
  refine ⟨h.safe, rfl, fun _ => List.mem_append_right _ hlogged, fun _ i hi => ?_⟩
  obtain ⟨newer, older, holder⟩ := List.append_of_mem hlogged
  refine ⟨(opts.registered.map LogEvent.disconnect).reverse ++ newer, older, ?_, ?_⟩
  · simp [Runner.releaseRegistered, holder]
  · exact List.mem_append_left _ (List.mem_reverse.2 (List.mem_map.2 ⟨i, hi, rfl⟩))

theorem Resolving.stop {s : Runner} (h : Resolving redact opts s) :
    Resolving redact opts (s.stop opts) := by
  unfold Runner.stop
  split
  · exact h.quiet ((Quiet.refl s).note _)
  · rename_i hcalled
    have hreleased : s.stopPhase.released ≠ true := fun hr =>
      hcalled (StopPhase.called_of_released hr)
    have hnoted (es : List LogEvent) :
        Resolving redact opts ({ s with unsubs := [] }.note es) := by
      have hunsubs : Quiet s { s with unsubs := [] } := .of_eq rfl rfl rfl
      exact h.quiet (hunsubs.note es)
    dsimp only
    split
    · exact (hnoted _).releaseRegistered (by simp)
    · exact ⟨h.safe, trivial, fun _ => by simp, fun hr => by cases hr⟩

theorem settle_rejected {release : Release} {i : Nat} {r : Except JsAny Unit}
    (hclear : release.rejected = none)
    (hr : ∀ e, r = .error e → ∃ text, described redact e = .ok text) :
    (release.settle redact opts i r).1.rejected = none ∧
      (release.settle redact opts i r).1.remaining = release.remaining.erase i := by
  cases r with
  | ok _ => exact ⟨hclear, rfl⟩
  | error err =>
    obtain ⟨text, htext⟩ := hr err rfl
    simp only [Release.settle, htext]
    exact ⟨hclear, trivial⟩

theorem Resolving.stopDisconnects {s s' : Runner} (h : Resolving redact opts s) {i : Nat}
    {r : Except JsAny Unit} (hok : Describable redact s (.stopDisconnects i r))
    (hstep : s.stopDisconnects redact opts i r = some s') : Resolving redact opts s' := by
  unfold Runner.stopDisconnects at hstep
  split at hstep
  · rename_i release hphase
    simp only [Option.ite_none_left_eq_some] at hstep
    obtain ⟨_, hstep⟩ := hstep
    cases hstep
    have hclear := h.clear
    rw [hphase] at hclear
    have hr (e : JsAny) (he : r = .error e) : ∃ text, described redact e = .ok text := by
      subst he
      exact hok
    refine ⟨h.safe, (settle_rejected hclear hr).1, fun _ => ?_, fun _ j hj => ?_⟩
    · exact List.mem_append_right _ (h.logged (by rw [hphase]; rfl))
    · exact (h.disconnects (by rw [hphase]; rfl) j hj).append _
  · cases hstep

theorem result_of_clear {release : Release} (hclear : release.rejected = none)
    {r : Except JsAny Unit} (hr : release.result = some r) : r = .ok () := by
  simp only [Release.result, hclear] at hr
  split at hr
  · exact (Option.some.inj hr).symm
  · cases hr

theorem Resolving.stopReleased {s s' : Runner} (h : Resolving redact opts s)
    (hstep : s.stopReleased = some s') : Resolving redact opts s' := by
  unfold Runner.stopReleased at hstep
  split at hstep
  · rename_i release hphase
    obtain ⟨r, hr, rfl⟩ := Option.map_eq_some_iff.1 hstep
    have hclear := h.clear
    rw [hphase] at hclear
    refine ⟨h.safe, result_of_clear hclear hr, fun _ => ?_, fun _ j hj => ?_⟩
    · exact List.mem_append_right _ (h.logged (by rw [hphase]; rfl))
    · exact (h.disconnects (by rw [hphase]; rfl) j hj).append _
  · cases hstep

/-- Dispatches that are safe may change. -/
theorem Resolving.dispatching {s : Runner} (h : Resolving redact opts s)
    {dispatches : List Dispatched}
    (hsafe : ∀ d ∈ dispatches, d.prog.SafeUnder (Harmless redact)) :
    Resolving redact opts { s with dispatches := dispatches } :=
  ⟨hsafe, h.clear, h.logged, h.disconnects⟩

theorem Resolving.set_dispatch {s : Runner} (h : Resolving redact opts s) (d : Nat)
    {dispatched : Dispatched} (hsafe : dispatched.prog.SafeUnder (Harmless redact)) :
    Resolving redact opts { s with dispatches := s.dispatches.set d dispatched } := by
  refine h.dispatching fun d' hd' => ?_
  obtain hd' | rfl := List.mem_or_eq_of_mem_set hd'
  · exact h.safe d' hd'
  · exact hsafe

theorem step_resolving {s s' : Runner} {a : Action} (h : Resolving redact opts s)
    (hok : Describable redact s a) (hstep : step redact opts s a = some s') :
    Resolving redact opts s' := by
  cases a with
  | start =>
    cases hstep
    exact h.quiet (quiet_start s)
  | connectReturns k =>
    refine h.quiet (quiet_of_start hstep fun run t ht => ?_)
    split at ht <;> cases ht
    exact quiet_callNext s k run
  | connectSettles k i r =>
    refine h.quiet (quiet_of_start hstep fun run t ht => ?_)
    split at ht <;> cases ht <;> exact (Quiet.setRun s k _).note _
  | connectsDone k => exact h.quiet (quiet_connectsDone hstep)
  | resumeStart k =>
    refine h.quiet (quiet_of_start hstep fun run t ht => ?_)
    split at ht
    · split at ht <;> cases ht
      · exact (Quiet.setRun s k _).note _
      · exact quiet_wireNext s k run _ _
    · cases ht
  | onInboundReturns k thrown =>
    refine h.quiet (quiet_of_start hstep fun run t ht => ?_)
    split at ht <;> cases ht
    · exact quiet_settleStart s k run _
    · rename_i next _ _ _
      have hunsubs : Quiet s { s with unsubs := s.unsubs ++ [(k, next)] } := .of_eq rfl rfl rfl
      exact (hunsubs.note _).trans (quiet_wireNext _ k run _ _)
  | startDisconnects k i r => exact h.quiet (quiet_startDisconnects hstep)
  | startReleased k => exact h.quiet (quiet_startReleased hstep)
  | clearStart k =>
    refine h.quiet (quiet_of_start hstep fun run t ht => ?_)
    split at ht
    · simp only [Option.ite_none_right_eq_some] at ht
      obtain ⟨_, ht⟩ := ht
      cases ht
      exact .of_eq rfl rfl rfl
    · cases ht
  | stop =>
    cases hstep
    exact h.stop
  | drained =>
    simp only [step, drained] at hstep
    split at hstep
    · rename_i hphase
      split at hstep
      · cases hstep
        exact h.releaseRegistered (h.logged (by rw [hphase]; rfl))
      · cases hstep
    · cases hstep
  | drainRejects d =>
    obtain ⟨dispatched, hd, hstep⟩ := Option.bind_eq_some_iff.1 hstep
    have hsafe := h.safe dispatched (List.mem_of_getElem? hd)
    split at hstep
    · rename_i e _ he
      cases hprog : dispatched.prog with
      | throw e' =>
        rw [hprog] at hsafe
        exact hsafe.elim
      | _ =>
        rw [hprog] at he
        cases he
    · cases hstep
  | drainTimeout =>
    simp only [step, drainTimeout] at hstep
    split at hstep
    · rename_i hphase
      cases hstep
      exact h.releaseRegistered (h.logged (by rw [hphase]; rfl))
    · cases hstep
  | stopDisconnects i r => exact h.stopDisconnects hok hstep
  | stopReleased => exact h.stopReleased hstep
  | inbound i event =>
    simp only [step, inbound, Option.ite_none_right_eq_some] at hstep
    obtain ⟨_, hstep⟩ := hstep
    cases hstep
    refine h.dispatching fun d hd => ?_
    obtain hd | hd := List.mem_append.1 hd
    · exact h.safe d hd
    · cases List.mem_singleton.1 hd
      exact dispatch_safe event
  | dispatchReturns d =>
    obtain ⟨dispatched, hd, hstep⟩ := Option.bind_eq_some_iff.1 hstep
    simp only [Option.ite_none_right_eq_some] at hstep
    obtain ⟨_, hstep⟩ := hstep
    cases hstep
    exact h.set_dispatch d (h.safe dispatched (List.mem_of_getElem? hd))
  | dispatchStep d env =>
    obtain ⟨dispatched, hd, hstep⟩ := Option.bind_eq_some_iff.1 hstep
    obtain ⟨next, hnext, hstep⟩ := Option.bind_eq_some_iff.1 hstep
    cases hstep
    exact h.set_dispatch d
      ((h.safe dispatched (List.mem_of_getElem? hd)).step hnext (hok dispatched hd))
  | untrack d =>
    obtain ⟨dispatched, hd, hstep⟩ := Option.bind_eq_some_iff.1 hstep
    simp only [Option.ite_none_right_eq_some] at hstep
    obtain ⟨_, hstep⟩ := hstep
    cases hstep
    exact h.set_dispatch d (h.safe dispatched (List.mem_of_getElem? hd))

/-- A stop that releases resolves when the disconnects have settled, one by one. -/
theorem finishes_release {outcomes : Nat → Except JsAny Unit}
    (houtcomes : ∀ i e, outcomes i = .error e → ∃ text, described redact e = .ok text)
    {remaining : List Nat} {s : Runner} {release : Release}
    (hphase : s.stopPhase = .releasing release) (hremaining : release.remaining = remaining)
    (hclear : release.rejected = none) :
    ∃ t, run (step redact opts) s
        ((remaining.map fun i => .stopDisconnects i (outcomes i)) ++ [.stopReleased]) = some t ∧
      t.stopPhase = .settled (.ok ()) := by
  induction remaining generalizing s release with
  | nil =>
    refine ⟨s.settleStop (.ok ()), ?_, rfl⟩
    simp [run_cons, step, stopReleased, hphase, Release.result, hclear, hremaining]
  | cons i remaining ih =>
    obtain ⟨hrejected, herase⟩ := @settle_rejected _ opts release i _ hclear (houtcomes i)
    rw [hremaining, List.erase_cons_head] at herase
    have hphase' : ({ s with stopPhase := .releasing (release.settle redact opts i (outcomes i)).1
        }.note (release.settle redact opts i (outcomes i)).2).stopPhase =
          .releasing (release.settle redact opts i (outcomes i)).1 := rfl
    obtain ⟨t, ht, hsettled⟩ := ih hphase' herase hrejected
    refine ⟨t, ?_, hsettled⟩
    rw [List.map_cons, List.cons_append, run_cons]
    simp only [step, Runner.stopDisconnects, hphase, hremaining, List.mem_cons, true_or,
      not_true_eq_false, if_false]
    exact ht

theorem Resolving.stopResolves {s : Runner} (h : Resolving redact opts s) :
    StopResolves redact opts s where
  tracked := by
    intro d hd e he
    have hsafe := h.safe d hd
    rw [he] at hsafe
    exact hsafe
  never_rejects := by
    intro e he
    have hclear := h.clear
    rw [he] at hclear
    cases hclear
  disconnects := h.disconnects
  resolves := by
    intro hcalled outcomes houtcomes
    unfold finish
    split
    · rename_i hphase
      rw [hphase] at hcalled
      cases hcalled
    · rename_i r hphase
      have hclear := h.clear
      rw [hphase] at hclear
      exact ⟨s, rfl, by rw [hphase, show r = .ok () from hclear]⟩
    · rename_i hphase
      have hstep : step redact opts s .drainTimeout = some (s.releaseRegistered opts) := by
        simp only [step, drainTimeout, hphase]
      have hreleasing : (s.releaseRegistered opts).stopPhase = .releasing
          { during := js "stopping the runner", remaining := opts.registered } := rfl
      obtain ⟨t, ht, hsettled⟩ := finishes_release houtcomes hreleasing rfl rfl
      refine ⟨t, ?_, hsettled⟩
      rw [List.cons_append, run_cons, hstep]
      exact ht
    · rename_i release hphase
      have hclear := h.clear
      rw [hphase] at hclear
      exact finishes_release houtcomes hphase rfl hclear

/-- In every run in which what is thrown can be put in a line, no dispatch rejects, every adapter
is disconnected and the stop resolves. -/
theorem stopResolves_of_describable (redact : JsString → JsString) (opts : GatewayRunnerOptions)
    {as : List Action} {s : Runner}
    (hmeets : Meets (step redact opts) (Describable redact) {} as)
    (hrun : run (step redact opts) {} as = some s) : StopResolves redact opts s := by
  have hstart : Resolving redact opts {} :=
    ⟨fun _ hd => (List.not_mem_nil hd).elim, trivial, fun hc => (by cases hc),
      fun hr => (by cases hr)⟩
  exact (invariant_of_meets (fun _ _ _ h hok hstep => step_resolving h hok hstep) hstart hmeets
    hrun).stopResolves

/-- The handler rejects with an error. -/
def failing : ∀ c : DispatchCall, Except JsAny c.Answer
  | .preInbound _ | .handler _ | .onError _ _ | .reply _ =>
    .error (JsAny.error (js "Error") (js "boom"))

/-- The handler fails while a stop waits for it, and then so does the `disconnect()`. -/
def failedDrain : List Action :=
  [.start, .connectReturns 0, .connectSettles 0 0 (.ok true), .connectsDone 0, .resumeStart 0,
    .onInboundReturns 0 none, .inbound 0 telegramEvent, .dispatchReturns 0, .stop,
    .dispatchStep 0 failing, .dispatchStep 0 failing, .drained,
    .stopDisconnects 0 (.error (JsAny.error (js "Error") (js "socket close failed"))),
    .stopReleased]

theorem failedDrain_describable :
    Meets (step id telegramOptions) (Describable id) {} failedDrain := by
  refine meets_cons trivial rfl <| meets_cons trivial rfl <| meets_cons trivial rfl <|
    meets_cons trivial rfl <| meets_cons trivial rfl <| meets_cons trivial rfl <|
    meets_cons trivial rfl <| meets_cons trivial rfl <| meets_cons trivial rfl <|
    meets_cons ?_ rfl <| meets_cons ?_ rfl <| meets_cons trivial rfl <|
    meets_cons ⟨_, rfl⟩ rfl <| meets_cons trivial rfl trivial
  · intro dispatched hd c hc
    cases hd
    cases hc
    exact ⟨_, rfl⟩
  · intro dispatched hd c hc
    cases hd
    cases hc

theorem stopResolves_failedDrain :
    StopResolves id telegramOptions
      ((run (step id telegramOptions) {} failedDrain).get (by rfl)) :=
  stopResolves_of_describable id telegramOptions failedDrain_describable (Option.some_get _).symm

/-- A handler that rejects with `undefined` makes the dispatch reject, and the stop with it. -/
theorem rejectedDrain_rejects_stop :
    ¬ ∀ (redact : JsString → JsString) (opts : GatewayRunnerOptions) (as : List Action)
      (s : Runner), run (step redact opts) {} as = some s → StopResolves redact opts s := by
  intro h
  have hresolves := h id telegramOptions rejectedDrain _ (Option.some_get rfl).symm
  exact hresolves.never_rejects _ rfl

end Runner

end TheokitGateways.Gateway
