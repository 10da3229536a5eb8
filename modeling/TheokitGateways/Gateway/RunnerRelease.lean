import TheokitGateways.Gateway.RunnerInvariant

/-!
# A stopped runner leaves nothing connected

Every step of a runner keeps the invariant, as long as no dispatch rejects while
a stop waits for it and the runner is not called back where it has not recorded
what it does (`stopsClean_of_orderly`).
-/

namespace TheokitGateways.Gateway
open Js Async History Transition

namespace Runner
open LogEvent

variable {redact : JsString → JsString} {opts : GatewayRunnerOptions}

/-- What a start that goes to another phase may do there. -/
def givesBack (k : Nat) : LogEvent → Bool
  | .startSettled k' _ => k' = k
  | .disconnect _ | .wrote _ => true
  | _ => false

/-- A start goes to another phase. -/
theorem Moves.to {stopPhase : StopPhase} {k : Nat} {run : StartRun} {phase : StartPhase}
    {es : List LogEvent} (hlive : run.phase.isSettled = false)
    (hsize : run.outcomes.length ≤ opts.adapters.length) (hes : ∀ e ∈ es, givesBack k e = true)
    (hsettles : phase.isSettled = true → ∃ r, .startSettled k r ∈ es)
    (hwiring : stopPhase.called = true → run.phase.isWiring = false → phase.isWiring = false)
    (hholds : stopPhase.released = true → ∀ i, (∀ e ∈ es, disconnects i e = false) →
      run.Holds i → StartRun.Holds { run with phase := phase } i) :
    Moves opts stopPhase k run { run with phase := phase } es := by
  have hopen (i : Nat) : ¬Open (LogEvent.connected k i) (disconnects i) es.reverse := by
    refine not_open_of_forall fun e he => ?_
    have hgives := hes e (List.mem_reverse.1 he)
    cases e with
    | connectSettled _ _ _ => cases hgives
    | _ => rfl
  refine ⟨hlive, fun e he => ?_, fun i hi => ?_, Nat.le_refl _, hsize, hsettles, hwiring,
    fun i hi => absurd hi (hopen i), fun hreleased i hi => ?_⟩
  · have hgives := hes e he
    cases e with
    | startSettled _ _ => exact hgives
    | disconnect _ => rfl
    | wrote _ => rfl
    | _ => cases hgives
  · cases hes _ hi
  · obtain hi | ⟨hnone, hi⟩ := hi
    · exact absurd hi (hopen i)
    · exact hholds hreleased i hnone hi

/-- A start past its calls goes to another phase. -/
theorem Invariant.to {s : Runner} (h : Invariant opts s) {k : Nat} {run : StartRun}
    (hrun : s.runs[k]? = some run) (hlive : run.phase.isSettled = false)
    (hcalling : run.phase.isCalling = false) (phase : StartPhase) (es : List LogEvent)
    (hes : ∀ e ∈ es, givesBack k e = true)
    (hsettles : phase.isSettled = true → ∃ r, .startSettled k r ∈ es)
    (hwiring : s.stopPhase.called = true → run.phase.isWiring = false → phase.isWiring = false)
    (hholds : s.stopPhase.released = true → ∀ i, (∀ e ∈ es, disconnects i e = false) →
      run.Holds i → StartRun.Holds { run with phase := phase } i) :
    Invariant opts ((s.setRun k { run with phase := phase }).note es) :=
  h.moved hrun (Moves.to hlive (h.sizes k run hrun) hes hsettles hwiring hholds)
    (.inr ⟨rfl, fun hc => by cases hcalling.symm.trans hc⟩)

/-- A start settles, having given back what it held. -/
theorem Invariant.settleStart {s : Runner} (h : Invariant opts s) {k : Nat} {run : StartRun}
    (hrun : s.runs[k]? = some run) (hlive : run.phase.isSettled = false)
    (hholds : s.stopPhase.released = true → ∀ i, ¬run.Holds i) (r : Except JsAny StartResult) :
    Invariant opts (s.settleStart k run r) :=
  h.moved hrun
    (Moves.to hlive (h.sizes k run hrun) (by simp [givesBack]) (fun _ => ⟨r, by simp⟩)
      (fun _ _ => rfl) fun hreleased i _ hi => absurd hi (hholds hreleased i))
    (.inr ⟨rfl, fun _ hset => by cases hset⟩)

theorem Invariant.resolveStart {s : Runner} (h : Invariant opts s) {k : Nat} {run : StartRun}
    (hrun : s.runs[k]? = some run) (hlive : run.phase.isSettled = false)
    (hholds : s.stopPhase.released = true → ∀ i, ¬run.Holds i) (result : StartResult) :
    Invariant opts (s.resolveStart k run result) :=
  have h' : Invariant opts { s with startResult := some result } :=
    h.of_eq rfl rfl rfl rfl rfl rfl
  h'.settleStart hrun hlive hholds _

theorem Invariant.callNext {s : Runner} (h : Invariant opts s) {k : Nat} {run : StartRun}
    (hrun : s.runs[k]? = some run) (hcalling : run.phase = .calling) :
    Invariant opts (s.callNext opts k run) := by
  have hlive : run.phase.isSettled = false := by rw [hcalling]; rfl
  unfold Runner.callNext
  split
  · rename_i hlt
    have hholds (i : Nat) (hi : run.Holds i) :
        StartRun.Holds { run with outcomes := run.outcomes ++ [none] } i := by
      simp only [StartRun.Holds, hcalling, StartRun.succeeded_iff] at hi ⊢
      have hi' := (List.getElem?_eq_some_iff.1 hi).1
      rwa [List.getElem?_append_left hi']
    have hm : Moves opts s.stopPhase k run { run with outcomes := run.outcomes ++ [none] }
        [.connect k run.outcomes.length] := by
      refine ⟨hlive, by simp [ofStart], ?_, by simp, by simp; omega, ?_, fun _ hw => hw,
        by simp [LogEvent.connected], ?_⟩
      · intro i hi
        obtain rfl : i = run.outcomes.length := by simpa using hi
        simp
      · intro hset
        cases hlive.symm.trans hset
      · intro _ i hi
        exact hholds i (by simpa [LogEvent.connected, disconnects] using hi)
    exact h.moved hrun hm (.inr ⟨rfl, fun hc _ => hc⟩)
  · have hm : Moves opts s.stopPhase k run { run with phase := .connecting } [] := by
      refine Moves.to hlive (h.sizes k run hrun) (by simp) (fun hset => by cases hset)
        (fun _ _ => rfl) fun _ i _ hi => ?_
      simp only [StartRun.Holds, hcalling] at hi
      exact hi
    exact h.moved hrun hm (.inl rfl)

theorem Invariant.start {s : Runner} (h : Invariant opts s) (hok : Orderly redact opts s .start) :
    Invariant opts (s.start opts) := by
  unfold Runner.start
  cases hcalled : s.stopPhase.called with
  | true => exact h.noted rfl trivial trivial
  | false =>
    have hstop : .stopCalled ∉ s.log := fun hmem => by
      cases hcalled.symm.trans (h.stopLogged hmem)
    simp only [Bool.false_eq_true, if_false]
    split
    · exact h.noted rfl trivial hstop
    · rename_i k _ hk
      refine h.noted rfl ⟨(h.begun k).2 ?_, fun j hj => ?_⟩ hstop
      · have := h.inFlight k hk
        omega
      · have := h.inFlight k hk
        have := (h.begun j).1 hj
        omega
    · rename_i _ hflight
      exact (h.begins hcalled hflight (hok hcalled)).callNext (by simp) rfl

theorem Invariant.connectReturns {s s' : Runner} (h : Invariant opts s) {k : Nat}
    (hstep : s.connectReturns opts k = some s') : Invariant opts s' := by
  obtain ⟨run, hrun, hstep⟩ := Option.bind_eq_some_iff.1 hstep
  split at hstep
  · cases hstep
    exact h.callNext hrun ‹_›
  · cases hstep

theorem Invariant.connectSettles {s s' : Runner} (h : Invariant opts s) {k i : Nat}
    {r : Except JsAny Bool} (hstep : s.connectSettles opts k i r = some s') :
    Invariant opts s' := by
  obtain ⟨run, hrun, hstep⟩ := Option.bind_eq_some_iff.1 hstep
  obtain ⟨hphase, hi, rfl⟩ : (run.phase = .calling ∨ run.phase = .connecting) ∧
      run.outcomes[i]? = some none ∧ s' = (s.setRun k { run with
        outcomes := run.outcomes.set i (some r)
        failures := run.failures ++ StartRun.failuresOf (opts.platform i) r }).note
          [.connectSettled k i r] := by
    split at hstep
    · exact ⟨.inl ‹_›, ‹_›, (Option.some.inj hstep).symm⟩
    · exact ⟨.inr ‹_›, ‹_›, (Option.some.inj hstep).symm⟩
    · cases hstep
  have hlt := (List.getElem?_eq_some_iff.1 hi).1
  have hsize := h.sizes k run hrun
  have hlive : run.phase.isSettled = false := by
    obtain hp | hp := hphase <;> rw [hp] <;> rfl
  have hholds (outcomes : List (Option (Except JsAny Bool))) (failures : List JsAny) (j : Nat) :
      StartRun.Holds ⟨outcomes, failures, run.phase⟩ j ↔
        outcomes[j]? = some (some (.ok true)) := by
    obtain hp | hp := hphase <;> simp only [StartRun.Holds, hp, StartRun.succeeded_iff]
  have hm : Moves opts s.stopPhase k run { run with
      outcomes := run.outcomes.set i (some r)
      failures := run.failures ++ StartRun.failuresOf (opts.platform i) r }
      [.connectSettled k i r] := by
    refine ⟨hlive, by simp [ofStart], by simp, by simp, by simpa using hsize, ?_, fun _ hw => hw,
      ?_, ?_⟩
    · intro hset
      cases hlive.symm.trans hset
    · intro j hj
      cases r with
      | error e => simp [LogEvent.connected] at hj
      | ok b =>
        cases b with
        | false => simp [LogEvent.connected] at hj
        | true =>
          obtain rfl : i = j := by simpa [LogEvent.connected] using hj
          omega
    · intro _ j hj
      refine (hholds _ _ j).2 ?_
      obtain hj | ⟨_, hj⟩ := hj
      · cases r with
        | error e => simp [LogEvent.connected] at hj
        | ok b =>
          cases b with
          | false => simp [LogEvent.connected] at hj
          | true =>
            obtain rfl : i = j := by simpa [LogEvent.connected] using hj
            exact List.getElem?_set_self hlt
      · have hj := (hholds run.outcomes run.failures j).1 hj
        have hne : i ≠ j := by
          rintro rfl
          cases hi.symm.trans hj
        exact (List.getElem?_set_ne hne).trans hj
  exact h.moved hrun hm (.inr ⟨rfl, fun hc _ => hc⟩)

theorem exists_mapM_ok {α β ε : Type} {f : α → Except ε β} {l : List α}
    (h : ∀ x ∈ l, ∃ y, f x = .ok y) : ∃ ys, l.mapM f = .ok ys := by
  induction l with
  | nil => exact ⟨[], rfl⟩
  | cons x l ih =>
    obtain ⟨y, hy⟩ := h x List.mem_cons_self
    obtain ⟨ys, hys⟩ := ih fun x' hx' => h x' (List.mem_cons_of_mem _ hx')
    exact ⟨y :: ys, by rw [List.mapM_cons, hy, hys]; rfl⟩

theorem connectIsolated_connected {run : StartRun} {outcome : ConnectOutcome}
    (h : run.connectIsolated redact opts = .ok outcome) : outcome.connected = run.connected := by
  simp only [StartRun.connectIsolated, bind, Except.bind] at h
  split at h
  · cases h
  · cases h
    rfl

/-- An isolating start goes on when every reason can be described. -/
theorem connectIsolated_ok {run : StartRun}
    (h : ∀ e, some (.error e) ∈ run.outcomes → ∃ text, described redact e = .ok text) :
    ∃ outcome, run.connectIsolated redact opts = .ok outcome := by
  have hreason (i : Nat) : ∃ reason,
      StartRun.connectFailureReason redact (run.outcomes[i]?).join = .ok reason := by
    unfold StartRun.connectFailureReason
    split
    · rename_i err herr
      exact h err (List.mem_of_getElem? (Option.join_eq_some_iff.1 herr))
    · exact ⟨_, rfl⟩
  have hfailed (i : Nat) : ∃ failed : FailedConnect, (do
      let reason ← StartRun.connectFailureReason redact (run.outcomes[i]?).join
      return { platform := opts.platform i, reason } : Except JsAny FailedConnect) =
        .ok failed := by
    obtain ⟨reason, hreason⟩ := hreason i
    exact ⟨_, by rw [hreason]; rfl⟩
  obtain ⟨failed, hfailed⟩ := exists_mapM_ok
    (l := (List.range run.outcomes.length).filter (!run.succeeded ·)) fun i _ => hfailed i
  exact ⟨_, by rw [StartRun.connectIsolated, hfailed]; rfl⟩

/-- What has been disconnected is not held. -/
theorem not_mem_of_disconnects {is : List Nat} {i : Nat}
    (hnone : ∀ e ∈ is.map LogEvent.disconnect, disconnects i e = false) : i ∉ is := by
  intro hi
  have := hnone _ (List.mem_map.2 ⟨i, hi, rfl⟩)
  simp [disconnects] at this

theorem givesBack_disconnects {k : Nat} (is : List Nat) :
    ∀ e ∈ is.map LogEvent.disconnect, givesBack k e = true := by
  intro e he
  obtain ⟨i, _, rfl⟩ := List.mem_map.1 he
  rfl

theorem Invariant.connectsDone {s s' : Runner} (h : Invariant opts s) {k : Nat}
    (hok : Orderly redact opts s (.connectsDone k))
    (hstep : s.connectsDone redact opts k = some s') : Invariant opts s' := by
  obtain ⟨run, hrun, hstep⟩ := Option.bind_eq_some_iff.1 hstep
  split at hstep
  · rename_i hphase
    have hlive : run.phase.isSettled = false := by rw [hphase]; rfl
    have hcalling : run.phase.isCalling = false := by rw [hphase]; rfl
    have hholds (i : Nat) (hi : run.Holds i) : i ∈ run.connected := by
      rwa [StartRun.mem_connected, ← show run.Holds i = (run.succeeded i = true) by
        simp only [StartRun.Holds, hphase]]
    simp only [Option.ite_none_left_eq_some] at hstep
    obtain ⟨_, hstep⟩ := hstep
    split at hstep
    · split at hstep
      · cases hstep
        refine h.to hrun hlive hcalling (.joined _) [] (by simp) (fun hset => by cases hset)
          (fun _ _ => rfl) fun _ i _ hi => ?_
        have hlt := List.mem_range.1 (List.mem_filter.1 (hholds i hi)).1
        exact List.mem_range.2 (Nat.lt_of_lt_of_le hlt (h.sizes k run hrun))
      · cases hstep
        exact h.to hrun hlive hcalling (.rollingBack _ _) (run.connected.map .disconnect)
          (givesBack_disconnects _) (fun hset => by cases hset) (fun _ _ => rfl)
          fun _ i hnone hi => not_mem_of_disconnects hnone (hholds i hi)
    · rename_i hisolate
      split at hstep
      · rename_i outcome houtcome
        cases hstep
        refine h.to hrun hlive hcalling (.joined _) [] (by simp) (fun hset => by cases hset)
          (fun _ _ => rfl) fun _ i _ hi => ?_
        have hconnected := connectIsolated_connected houtcome
        exact show i ∈ outcome.connected from hconnected ▸ hholds i hi
      · rename_i e he
        cases hstep
        refine h.settleStart hrun hlive (fun hreleased i hi => ?_) _
        have hdescribed := hok hisolate hreleased run hrun
          (List.ne_nil_of_mem (hholds i hi))
        obtain ⟨outcome, houtcome⟩ := @connectIsolated_ok redact opts run hdescribed
        cases he.symm.trans houtcome
  · cases hstep

theorem Invariant.wireNext {s : Runner} (h : Invariant opts s) {k : Nat} {run : StartRun}
    (hrun : s.runs[k]? = some run) (hlive : run.phase.isSettled = false)
    (hcalling : run.phase.isCalling = false) (hstop : s.stopPhase.called = false)
    (outcome : ConnectOutcome) (rest : List Nat) :
    Invariant opts (s.wireNext opts k run outcome rest) := by
  have hreleased : s.stopPhase.released ≠ true := by
    intro hreleased
    cases hstop.symm.trans (StopPhase.called_of_released hreleased)
  cases rest with
  | nil => exact h.resolveStart hrun hlive (fun hr => absurd hr hreleased) _
  | cons next rest =>
    exact h.to hrun hlive hcalling (.wiring next rest outcome) [] (by simp)
      (fun hset => by cases hset) (fun hc => by cases hstop.symm.trans hc)
      fun hr => absurd hr hreleased

theorem Invariant.resumeStart {s s' : Runner} (h : Invariant opts s) {k : Nat}
    (hstep : s.resumeStart opts k = some s') : Invariant opts s' := by
  obtain ⟨run, hrun, hstep⟩ := Option.bind_eq_some_iff.1 hstep
  split at hstep
  · rename_i outcome hphase
    have hlive : run.phase.isSettled = false := by rw [hphase]; rfl
    have hcalling : run.phase.isCalling = false := by rw [hphase]; rfl
    split at hstep
    · cases hstep
      refine h.to hrun hlive hcalling (.releasing _ _) (outcome.connected.map .disconnect)
        (givesBack_disconnects _) (fun hset => by cases hset) (fun _ _ => rfl)
        fun _ i hnone hi => not_mem_of_disconnects hnone ?_
      simpa only [StartRun.Holds, hphase] using hi
    · rename_i hstop
      cases hstep
      exact h.wireNext hrun hlive hcalling (by simpa using hstop) _ _
  · cases hstep

/-- A start that is wiring holds nothing, and is not overtaken. -/
theorem Invariant.not_called_of_wiring {s : Runner} (h : Invariant opts s) {k : Nat}
    {run : StartRun} (hrun : s.runs[k]? = some run) (hwiring : run.phase.isWiring = true) :
    s.stopPhase.called = false := by
  cases hc : s.stopPhase.called with
  | false => rfl
  | true => cases hwiring.symm.trans (h.wiring hc run (List.mem_of_getElem? hrun))

theorem Invariant.onInboundReturns {s s' : Runner} (h : Invariant opts s) {k : Nat}
    {thrown : Option JsAny} (hstep : s.onInboundReturns opts k thrown = some s') :
    Invariant opts s' := by
  obtain ⟨run, hrun, hreturns⟩ := Option.bind_eq_some_iff.1 hstep
  clear hstep
  cases hphase : run.phase with
  | wiring next rest outcome =>
    rw [hphase] at hreturns
    have hlive : run.phase.isSettled = false := by rw [hphase]; rfl
    have hstop := h.not_called_of_wiring hrun (by rw [hphase]; rfl)
    cases thrown with
    | some e =>
      cases hreturns
      exact h.settleStart hrun hlive (fun _ i hi => by simp [StartRun.Holds, hphase] at hi) _
    | none =>
      cases hreturns
      exact (h.subscribed hstop k next).wireNext hrun hlive (by rw [hphase]; rfl) hstop outcome rest
  | _ =>
    rw [hphase] at hreturns
    cases hreturns

/-- The settling of a `disconnect()` notes a line at most. -/
theorem settle_events (release : Release) (i : Nat) (r : Except JsAny Unit) :
    (release.settle redact opts i r).2 = [] ∨
      ∃ line, (release.settle redact opts i r).2 = [.wrote line] := by
  unfold Release.settle
  split
  · exact .inl rfl
  · split
    · exact .inr ⟨_, rfl⟩
    · exact .inl rfl

theorem settle_givesBack {k i : Nat} {release : Release} {r : Except JsAny Unit} :
    ∀ e ∈ (release.settle redact opts i r).2, givesBack k e = true := by
  intro e he
  obtain hnil | ⟨line, hline⟩ := @settle_events redact opts release i r
  · rw [hnil] at he
    cases he
  · rw [hline] at he
    cases List.mem_singleton.1 he
    rfl

theorem Invariant.startDisconnects {s s' : Runner} (h : Invariant opts s) {k i : Nat}
    {r : Except JsAny Unit} (hstep : s.startDisconnects redact opts k i r = some s') :
    Invariant opts s' := by
  obtain ⟨run, hrun, hstep⟩ := Option.bind_eq_some_iff.1 hstep
  have hnone (p : StartPhase) (hp : run.phase = p) (hlive : p.isSettled = false)
      (hcalling : p.isCalling = false) (hholds : ∀ j, ¬run.Holds j) (phase : StartPhase)
      (hset : phase.isSettled = false) (hwiring : phase.isWiring = false) (es : List LogEvent)
      (hes : ∀ e ∈ es, givesBack k e = true) :
      Invariant opts ((s.setRun k { run with phase := phase }).note es) :=
    h.to hrun (hp ▸ hlive) (hp ▸ hcalling) phase es hes (fun hs => by cases hset.symm.trans hs)
      (fun _ _ => hwiring) fun _ j _ hj => absurd hj (hholds j)
  split at hstep
  · rename_i release failure hphase
    simp only [Option.ite_none_left_eq_some] at hstep
    obtain ⟨_, hstep⟩ := hstep
    cases hstep
    exact hnone _ hphase rfl rfl (by simp [StartRun.Holds, hphase]) _ rfl rfl _ settle_givesBack
  · rename_i release failed hphase
    simp only [Option.ite_none_left_eq_some] at hstep
    obtain ⟨_, hstep⟩ := hstep
    cases hstep
    exact hnone _ hphase rfl rfl (by simp [StartRun.Holds, hphase]) _ rfl rfl _ settle_givesBack
  · cases hstep

theorem Invariant.startReleased {s s' : Runner} (h : Invariant opts s) {k : Nat}
    (hstep : s.startReleased k = some s') : Invariant opts s' := by
  obtain ⟨run, hrun, hstep⟩ := Option.bind_eq_some_iff.1 hstep
  split at hstep
  · rename_i release failure hphase
    have hlive : run.phase.isSettled = false := by rw [hphase]; rfl
    have hholds (i : Nat) : ¬run.Holds i := by simp [StartRun.Holds, hphase]
    obtain ⟨r, _, hstep⟩ := Option.bind_eq_some_iff.1 hstep
    split at hstep <;> cases hstep <;> exact h.settleStart hrun hlive (fun _ => hholds) _
  · rename_i release failed hphase
    have hlive : run.phase.isSettled = false := by rw [hphase]; rfl
    have hholds (i : Nat) : ¬run.Holds i := by simp [StartRun.Holds, hphase]
    obtain ⟨r, _, hstep⟩ := Option.bind_eq_some_iff.1 hstep
    split at hstep <;> cases hstep
    · exact h.resolveStart hrun hlive (fun _ => hholds) _
    · exact h.settleStart hrun hlive (fun _ => hholds) _
  · cases hstep

/-- A start that is forgotten has settled, so none is under way. -/
theorem Invariant.clearStart {s s' : Runner} (h : Invariant opts s) {k : Nat}
    (hstep : s.clearStart k = some s') : Invariant opts s' := by
  obtain ⟨run, hrun, hstep⟩ := Option.bind_eq_some_iff.1 hstep
  split at hstep
  · rename_i e hphase
    simp only [Option.ite_none_right_eq_some] at hstep
    obtain ⟨hflight, hstep⟩ := hstep
    cases hstep
    have hlast := h.inFlight k hflight
    refine { h with
      latest := fun j run₁ hrun₁ hlive => ?_
      inFlight := fun j hj => by cases hj }
    obtain ⟨hj, _⟩ := h.latest j run₁ hrun₁ hlive
    obtain rfl : j = k := by omega
    cases hrun.symm.trans hrun₁
    rw [hphase] at hlive
    cases hlive
  · cases hstep

theorem Invariant.stopDisconnects {s s' : Runner} (h : Invariant opts s) {i : Nat}
    {r : Except JsAny Unit} (hstep : s.stopDisconnects redact opts i r = some s') :
    Invariant opts s' := by
  unfold Runner.stopDisconnects at hstep
  split at hstep
  · rename_i release hphase
    simp only [Option.ite_none_left_eq_some] at hstep
    obtain ⟨_, hstep⟩ := hstep
    cases hstep
    have h' : Invariant opts
        { s with stopPhase := .releasing (release.settle redact opts i r).1 } :=
      h.of_eq rfl rfl rfl rfl (by rw [hphase]; rfl) (by rw [hphase]; rfl)
    obtain hnil | ⟨line, hline⟩ := @settle_events redact opts release i r
    · rw [hnil]
      exact h'
    · rw [hline]
      exact h'.noted rfl trivial trivial
  · cases hstep

theorem Invariant.stopReleased {s s' : Runner} (h : Invariant opts s)
    (hstep : s.stopReleased = some s') : Invariant opts s' := by
  unfold Runner.stopReleased at hstep
  split at hstep
  · rename_i release hphase
    obtain ⟨r, _, rfl⟩ := Option.map_eq_some_iff.1 hstep
    have h' : Invariant opts { s with stopPhase := .settled r } :=
      h.of_eq rfl rfl rfl rfl (by rw [hphase]; rfl) (by rw [hphase]; rfl)
    exact h'.noted rfl trivial trivial
  · cases hstep

theorem step_invariant (hdistinct : opts.adapters.Nodup) {s s' : Runner} {a : Action}
    (h : Invariant opts s) (hok : Orderly redact opts s a)
    (hstep : step redact opts s a = some s') : Invariant opts s' := by
  cases a with
  | start =>
    cases hstep
    exact h.start hok
  | connectReturns k => exact h.connectReturns hstep
  | connectSettles k i r => exact h.connectSettles hstep
  | connectsDone k => exact h.connectsDone hok hstep
  | resumeStart k => exact h.resumeStart hstep
  | onInboundReturns k thrown => exact h.onInboundReturns hstep
  | startDisconnects k i r => exact h.startDisconnects hstep
  | startReleased k => exact h.startReleased hstep
  | clearStart k => exact h.clearStart hstep
  | stop =>
    cases hstep
    exact h.stop hdistinct hok
  | drained =>
    simp only [step, drained] at hstep
    split at hstep
    · rename_i hphase
      split at hstep
      · cases hstep
        exact h.releaseRegistered hdistinct (by rw [hphase]; rfl)
      · cases hstep
    · cases hstep
  | drainRejects d =>
    obtain ⟨dispatched, hd, hstep⟩ := Option.bind_eq_some_iff.1 hstep
    split at hstep
    · rename_i e _ he
      cases hprog : dispatched.prog with
      | throw e' => exact absurd hprog (hok dispatched hd e')
      | _ =>
        rw [hprog] at he
        cases he
    · cases hstep
  | drainTimeout =>
    simp only [step, drainTimeout] at hstep
    split at hstep
    · rename_i hphase
      cases hstep
      exact h.releaseRegistered hdistinct (by rw [hphase]; rfl)
    · cases hstep
  | stopDisconnects i r => exact h.stopDisconnects hstep
  | stopReleased => exact h.stopReleased hstep
  | inbound i event =>
    simp only [step, inbound, Option.ite_none_right_eq_some] at hstep
    obtain ⟨_, hstep⟩ := hstep
    cases hstep
    exact h.of_eq rfl rfl rfl rfl rfl rfl
  | dispatchReturns d =>
    obtain ⟨dispatched, _, hstep⟩ := Option.bind_eq_some_iff.1 hstep
    simp only [Option.ite_none_right_eq_some] at hstep
    obtain ⟨_, hstep⟩ := hstep
    cases hstep
    exact h.of_eq rfl rfl rfl rfl rfl rfl
  | dispatchStep d env =>
    obtain ⟨dispatched, _, hstep⟩ := Option.bind_eq_some_iff.1 hstep
    obtain ⟨next, _, hstep⟩ := Option.bind_eq_some_iff.1 hstep
    cases hstep
    exact h.of_eq rfl rfl rfl rfl rfl rfl
  | untrack d =>
    obtain ⟨dispatched, _, hstep⟩ := Option.bind_eq_some_iff.1 hstep
    simp only [Option.ite_none_right_eq_some] at hstep
    obtain ⟨_, hstep⟩ := hstep
    cases hstep
    exact h.of_eq rfl rfl rfl rfl rfl rfl

theorem Invariant.stopsClean {s : Runner} (h : Invariant opts s) : StopsClean s where
  shares := h.shares
  refuses := h.refuses
  disconnected := by
    rintro ⟨hstop, hruns⟩ k i howed
    have hreleased : s.stopPhase.released = true := by
      cases hp : s.stopPhase with
      | settled r => rfl
      | _ => cases hp ▸ hstop
    obtain ⟨run, hrun, hholds⟩ := (h.owed k i howed).2 hreleased
    have hset := hruns run (List.mem_of_getElem? hrun)
    cases hp : run.phase with
    | settled r => simp [StartRun.Holds, hp] at hholds
    | _ => cases hp ▸ hset
  unwired := by
    rintro ⟨hstop, _⟩ k i hwired
    have hcalled : s.stopPhase.called = true := by
      cases hp : s.stopPhase with
      | settled r => rfl
      | _ => cases hp ▸ hstop
    have hmem := h.wired k i hwired
    rw [h.unsubs hcalled] at hmem
    cases hmem

/-- In every run in which no dispatch rejects while a stop waits for it, and the runner is not
called back where it has not recorded what it does, overlapping starts share their connects and a
stop leaves nothing connected and nothing wired. -/
theorem stopsClean_of_orderly (redact : JsString → JsString) (opts : GatewayRunnerOptions)
    (hdistinct : opts.adapters.Nodup) {as : List Action} {s : Runner}
    (hmeets : Meets (step redact opts) (Orderly redact opts) {} as)
    (hrun : run (step redact opts) {} as = some s) : StopsClean s :=
  (invariant_of_meets (fun _ _ _ h hok hstep => step_invariant hdistinct h hok hstep)
    (invariant_start opts) hmeets hrun).stopsClean

/-- A runner of one adapter, without hooks. -/
def telegramOptions : GatewayRunnerOptions where
  adapters := [js "telegram"]
  hooks := []
  commands := []

/-- A stop comes before the connect has settled. -/
def overtakenStart : List Action :=
  [.start, .connectReturns 0, .stop, .stopDisconnects 0 (.ok ()), .stopReleased,
    .connectSettles 0 0 (.ok true), .connectsDone 0, .resumeStart 0, .startDisconnects 0 0 (.ok ()),
    .startReleased 0]

theorem overtakenStart_orderly :
    Meets (step id telegramOptions) (Orderly id telegramOptions) {} overtakenStart :=
  meets_cons (fun _ run hrun => (List.not_mem_nil hrun).elim) rfl <| meets_cons trivial rfl <|
    meets_cons (fun _ => by decide) rfl <| meets_cons trivial rfl <| meets_cons trivial rfl <|
    meets_cons trivial rfl <| meets_cons (fun h => by cases h) rfl <| meets_cons trivial rfl <|
    meets_cons trivial rfl <| meets_cons trivial rfl trivial

theorem stopsClean_overtakenStart :
    StopsClean ((run (step id telegramOptions) {} overtakenStart).get (by rfl)) :=
  stopsClean_of_orderly id telegramOptions (by decide) overtakenStart_orderly
    (Option.some_get _).symm

def telegramEvent : BaseMessageEvent where
  id := js "tg-1-2"
  platform := js "telegram"
  sender := { id := js "100" }
  channel := { id := js "1", type := .dm }
  text := js "hi"
  receivedAt := 0

/-- Every call rejects with `undefined`. -/
def rejecting : ∀ c : DispatchCall, Except JsAny c.Answer
  | .preInbound _ | .handler _ | .onError _ _ | .reply _ => .error .undefined

/-- The handler rejects with `undefined` while a stop waits for it. -/
def rejectedDrain : List Action :=
  [.start, .connectReturns 0, .connectSettles 0 0 (.ok true), .connectsDone 0, .resumeStart 0,
    .onInboundReturns 0 none, .inbound 0 telegramEvent, .dispatchReturns 0, .stop,
    .dispatchStep 0 rejecting, .drainRejects 0]

/-- Logging what the handler rejected with throws in turn, the stop rejects, and the adapter
stays connected. -/
theorem rejectedDrain_leaves_connected :
    ¬ ∀ (redact : JsString → JsString) (opts : GatewayRunnerOptions), opts.adapters.Nodup →
      ∀ (as : List Action) (s : Runner), run (step redact opts) {} as = some s →
        StopsClean s := by
  intro h
  have hclean := h id telegramOptions (by decide) rejectedDrain _ (Option.some_get rfl).symm
  exact hclean.disconnected ⟨rfl, by decide⟩ 0 0 (by decide)

end Runner

end TheokitGateways.Gateway
