import TheokitGateways.Gateway.Runner
import TheokitGateways.History
import TheokitGateways.Records
import TheokitGateways.Transition

/-!
# Who gives an adapter back

Starts that overlap share their connects, and after a stop, when everything has
settled, what connected has been disconnected and what was subscribed has been
unsubscribed. The invariant follows each connect to the one who will give it
back: until `stop` releases what the runner holds it is `stop`, and from then on
the start that is still under way.
-/

namespace TheokitGateways.Gateway
open Js Async History Records Transition

namespace LogEvent

def connected (k i : Nat) : LogEvent → Bool
  | .connectSettled k' i' (.ok true) => k' = k && i' = i
  | _ => false

def disconnects (i : Nat) : LogEvent → Bool
  | .disconnect j => j = i
  | _ => false

def subscribes (k i : Nat) : LogEvent → Bool
  | .subscribe k' i' => k' = k && i' = i
  | _ => false

def unsubscribes (k i : Nat) : LogEvent → Bool
  | .unsubscribe k' i' => k' = k && i' = i
  | _ => false

/-- A start that calls `connect()` finds the earlier ones settled, one that joins a start joins
the latest, and no start calls a `connect()` twice. -/
def Shares : LogEvent → List LogEvent → Prop
  | .startBegun k, past => ∀ j, .startBegun j ∈ past → j < k ∧ ∃ r, .startSettled j r ∈ past
  | .startJoined k, past => .startBegun k ∈ past ∧ ∀ j, .startBegun j ∈ past → j ≤ k
  | .connect k i, past => .startBegun k ∈ past ∧ .connect k i ∉ past
  | _, _ => True

/-- After a stop every start is refused. -/
def Refuses : LogEvent → List LogEvent → Prop
  | .startBegun _, past | .startJoined _, past | .startReturned _, past => .stopCalled ∉ past
  | _, _ => True

/-- The events of a start under way, and those of no start. -/
def ofStart (k : Nat) : LogEvent → Bool
  | .connect k' _ | .connectSettled k' _ _ | .startSettled k' _ => k' = k
  | .disconnect _ | .wrote _ => true
  | _ => false

end LogEvent

namespace StartPhase

def isCalling : StartPhase → Bool
  | .calling => true
  | _ => false

def isWiring : StartPhase → Bool
  | .wiring _ _ _ => true
  | _ => false

def isSettled : StartPhase → Bool
  | .settled _ => true
  | _ => false

end StartPhase

namespace StopPhase

/-- `stop` has called the `disconnect()` of all it holds, or will not. -/
def released : StopPhase → Bool
  | .releasing _ | .settled _ => true
  | _ => false

def isSettled : StopPhase → Bool
  | .settled _ => true
  | _ => false

theorem called_of_released {p : StopPhase} (h : p.released = true) : p.called = true := by
  cases p with
  | notCalled => cases h
  | draining awaited => cases h
  | releasing release => rfl
  | settled r => rfl

end StopPhase

/-- The start will give the adapter back, if a stop overtook it. -/
def StartRun.Holds (run : StartRun) (i : Nat) : Prop :=
  match run.phase with
  | .calling | .connecting => run.succeeded i = true
  | .joined outcome => i ∈ outcome.connected
  | _ => False

namespace Runner
open LogEvent

/-- The adapter connected in the start `k`, and its `disconnect()` was not called since. -/
def Owed (log : List LogEvent) (k i : Nat) : Prop := Open (connected k i) (disconnects i) log

/-- The adapter was subscribed to in the start `k`, and was not unsubscribed since. -/
def Wired (log : List LogEvent) (k i : Nat) : Prop := Open (subscribes k i) (unsubscribes k i) log

instance (log : List LogEvent) (k i : Nat) : Decidable (Owed log k i) := decidableOpen _ _ _

/-- A stop was called, and nothing is pending. -/
def AtRest (s : Runner) : Prop :=
  s.stopPhase.isSettled = true ∧ ∀ run ∈ s.runs, run.phase.isSettled = true

/-- What the starts and the stops of a runner are promised. -/
structure StopsClean (s : Runner) : Prop where
  shares : Each Shares s.log
  refuses : Each Refuses s.log
  disconnected : s.AtRest → ∀ k i, ¬Owed s.log k i
  unwired : s.AtRest → ∀ k i, ¬Wired s.log k i

/-- No `connect()` calls `start`, no `onInbound()` calls `stop`, no dispatch that a stop waits for
has rejected, and when an isolating start that connected something goes on after `stop` has
released the adapters, the reasons of the others can be described. -/
def Orderly (redact : JsString → JsString) (opts : GatewayRunnerOptions) (s : Runner) :
    Action → Prop
  | .start => s.stopPhase.called = false → ∀ run ∈ s.runs, run.phase.isCalling = false
  | .stop => s.stopPhase.called = false → ∀ run ∈ s.runs, run.phase.isWiring = false
  | .drainRejects d => ∀ dispatched, s.dispatches[d]? = some dispatched → ∀ e,
      dispatched.prog ≠ .throw e
  | .connectsDone k => opts.connectFailure = .isolate → s.stopPhase.released = true →
      ∀ run, s.runs[k]? = some run → run.connected ≠ [] → ∀ e, some (.error e) ∈ run.outcomes →
        ∃ text, described redact e = .ok text
  | _ => True

/-- Every connect is followed to the one who gives it back. -/
structure Invariant (opts : GatewayRunnerOptions) (s : Runner) : Prop where
  shares : Each Shares s.log
  refuses : Each Refuses s.log
  begun : ∀ j, .startBegun j ∈ s.log ↔ j < s.runs.length
  connects : ∀ k i, .connect k i ∈ s.log →
    ∃ run : StartRun, s.runs[k]? = some run ∧ i < run.outcomes.length
  settled : ∀ (k : Nat) (run : StartRun), s.runs[k]? = some run → run.phase.isSettled = true →
    ∃ r, .startSettled k r ∈ s.log
  /-- A start that has not settled is the latest, and past its calls the one in flight. -/
  latest : ∀ (k : Nat) (run : StartRun), s.runs[k]? = some run → run.phase.isSettled = false →
    k + 1 = s.runs.length ∧ (run.phase.isCalling = false → s.startInFlight = some k)
  inFlight : ∀ k, s.startInFlight = some k → k + 1 = s.runs.length
  sizes : ∀ (k : Nat) (run : StartRun), s.runs[k]? = some run →
    run.outcomes.length ≤ opts.adapters.length
  owed : ∀ k i, Owed s.log k i → i < opts.adapters.length ∧
    (s.stopPhase.released = true → ∃ run : StartRun, s.runs[k]? = some run ∧ run.Holds i)
  wired : ∀ k i, Wired s.log k i → (k, i) ∈ s.unsubs
  stopLogged : .stopCalled ∈ s.log → s.stopPhase.called = true
  unsubs : s.stopPhase.called = true → s.unsubs = []
  wiring : s.stopPhase.called = true → ∀ run ∈ s.runs, run.phase.isWiring = false

theorem invariant_start (opts : GatewayRunnerOptions) : Invariant opts {} := by
  constructor <;> simp [Owed, Wired, StopPhase.called]

variable {redact : JsString → JsString} {opts : GatewayRunnerOptions}

/-- A start goes on: what it does next, and where it is then. -/
structure Moves (opts : GatewayRunnerOptions) (stopPhase : StopPhase) (k : Nat)
    (run run' : StartRun) (es : List LogEvent) : Prop where
  live : run.phase.isSettled = false
  events : ∀ e ∈ es, e.ofStart k = true
  connect : ∀ i, .connect k i ∈ es →
    es = [.connect k i] ∧ i = run.outcomes.length ∧ run'.outcomes.length = i + 1
  grows : run.outcomes.length ≤ run'.outcomes.length
  bound : run'.outcomes.length ≤ opts.adapters.length
  settles : run'.phase.isSettled = true → ∃ r, .startSettled k r ∈ es
  wiring : stopPhase.called = true → run.phase.isWiring = false → run'.phase.isWiring = false
  connected : ∀ i, Open (LogEvent.connected k i) (disconnects i) es.reverse →
    i < opts.adapters.length
  holds : stopPhase.released = true → ∀ i,
    Open (LogEvent.connected k i) (disconnects i) es.reverse ∨
      (∀ e ∈ es, disconnects i e = false) ∧ run.Holds i → run'.Holds i

theorem ofStart_shares {k : Nat} {e : LogEvent} (he : e.ofStart k = true)
    (hc : ∀ i, e ≠ .connect k i) (past : List LogEvent) : Shares e past := by
  cases e with
  | connect k' i =>
    obtain rfl : k' = k := by simpa [ofStart] using he
    exact absurd rfl (hc i)
  | _ => trivial

theorem ofStart_refuses {k : Nat} {e : LogEvent} (he : e.ofStart k = true)
    (past : List LogEvent) : Refuses e past := by
  cases e with
  | _ => trivial

/-- What a start does opens nothing for another one, and subscribes to nothing. -/
theorem connected_of_ofStart {k j : Nat} {e : LogEvent} (he : e.ofStart k = true) (hj : j ≠ k)
    (i : Nat) : LogEvent.connected j i e = false := by
  cases e with
  | connectSettled k' i' r =>
    obtain rfl : k' = k := by simpa [ofStart] using he
    cases r with
    | error e => rfl
    | ok b => cases b <;> simp [LogEvent.connected, Ne.symm hj]
  | _ => rfl

theorem subscribes_of_ofStart {k : Nat} {e : LogEvent} (he : e.ofStart k = true) (j i : Nat) :
    subscribes j i e = false := by
  cases e with
  | subscribe k' i' => cases he
  | _ => rfl

@[simp] theorem note_log (s : Runner) (es : List LogEvent) :
    (s.note es).log = es.reverse ++ s.log := rfl

@[simp] theorem note_runs (s : Runner) (es : List LogEvent) : (s.note es).runs = s.runs := rfl

theorem setRun_length (s : Runner) (k : Nat) (run : StartRun) :
    (s.setRun k run).runs.length = s.runs.length := List.length_set

/-- Events that are not of the kind `p` leave it as it was in the log. -/
theorem mem_log_of_note {s : Runner} {es : List LogEvent} {e : LogEvent} {k : Nat}
    (hes : ∀ e ∈ es, e.ofStart k = true) (he : e.ofStart k = false) (h : e ∈ (s.note es).log) :
    e ∈ s.log := by
  obtain h | h := List.mem_append.1 h
  · rw [hes e (List.mem_reverse.1 h)] at he
    cases he
  · exact h

theorem shares_note {s : Runner} (h : Each Shares s.log) {k : Nat} {run run' : StartRun}
    {es : List LogEvent} (hbegun : .startBegun k ∈ s.log)
    (hfresh : .connect k run.outcomes.length ∉ s.log)
    (hm : Moves opts s.stopPhase k run run' es) : Each Shares (s.note es).log := by
  by_cases hc : ∃ i, .connect k i ∈ es
  · obtain ⟨i, hi⟩ := hc
    obtain ⟨rfl, rfl, _⟩ := hm.connect i hi
    exact ⟨⟨hbegun, hfresh⟩, h⟩
  · refine Each.append (fun e he past => ?_) h
    have he := List.mem_reverse.1 he
    exact ofStart_shares (hm.events e he) (fun i heq => hc ⟨i, heq ▸ he⟩) past

theorem Invariant.moved {s : Runner} (h : Invariant opts s) {k : Nat} {run run' : StartRun}
    {es : List LogEvent} (hrun : s.runs[k]? = some run)
    (hm : Moves opts s.stopPhase k run run' es) {flight : Option Nat}
    (hflight : flight = some k ∨ flight = s.startInFlight ∧ (run.phase.isCalling = true →
      run'.phase.isSettled = false → run'.phase.isCalling = true)) :
    Invariant opts { (s.setRun k run').note es with startInFlight := flight } := by
  obtain ⟨hlast, hrecorded⟩ := h.latest k run hrun hm.live
  have hself : (s.setRun k run').runs[k]? = some run' :=
    List.getElem?_set_self (List.getElem?_eq_some_iff.1 hrun).1
  have hother {j : Nat} (hj : j ≠ k) : (s.setRun k run').runs[j]? = s.runs[j]? :=
    List.getElem?_set_ne (Ne.symm hj)
  have hold {e : LogEvent} (he : e.ofStart k = false) (hmem : e ∈ (s.note es).log) : e ∈ s.log :=
    mem_log_of_note hm.events he hmem
  have hin {e : LogEvent} (hmem : e ∈ s.log) : e ∈ (s.note es).log :=
    List.mem_append_right _ hmem
  have hofStart {e : LogEvent} (he : e ∈ es.reverse) : e.ofStart k = true :=
    hm.events e (List.mem_reverse.1 he)
  have hlen : (s.setRun k run').runs.length = s.runs.length := setRun_length s k run'
  have hfresh : .connect k run.outcomes.length ∉ s.log := by
    intro hmem
    obtain ⟨run₀, hrun₀, hlt⟩ := h.connects k _ hmem
    cases hrun.symm.trans hrun₀
    omega
  constructor
  case shares => exact shares_note h.shares ((h.begun k).2 (by omega)) hfresh hm
  case refuses => exact Each.append (fun e he past => ofStart_refuses (hofStart he) past) h.refuses
  case begun =>
    intro j
    exact ⟨fun hmem => hlen ▸ (h.begun j).1 (hold rfl hmem),
      fun hlt => hin ((h.begun j).2 (hlen ▸ hlt))⟩
  case connects =>
    intro j i hmem
    by_cases hj : j = k
    · subst hj
      refine ⟨run', hself, ?_⟩
      obtain hes | hmem := List.mem_append.1 hmem
      · obtain ⟨_, _, hlen⟩ := hm.connect i (List.mem_reverse.1 hes)
        omega
      · obtain ⟨run₀, hrun₀, hlt⟩ := h.connects j i hmem
        cases hrun.symm.trans hrun₀
        exact Nat.lt_of_lt_of_le hlt hm.grows
    · obtain ⟨run₁, hrun₁, hlt⟩ := h.connects j i (hold (by simpa [ofStart] using hj) hmem)
      exact ⟨run₁, (hother hj).trans hrun₁, hlt⟩
  case settled =>
    intro j run₁ hrun₁ hset
    obtain ⟨rfl, rfl⟩ | ⟨_, hrun₁⟩ := getElem?_set_eq_some hrun₁
    · obtain ⟨r, hr⟩ := hm.settles hset
      exact ⟨r, List.mem_append_left _ (List.mem_reverse.2 hr)⟩
    · obtain ⟨r, hr⟩ := h.settled j run₁ hrun₁ hset
      exact ⟨r, hin hr⟩
  case latest =>
    intro j run₁ hrun₁ hlive
    obtain ⟨rfl, rfl⟩ | ⟨hj, hrun₁⟩ := getElem?_set_eq_some hrun₁
    · refine ⟨hlast.trans hlen.symm, fun hcall => ?_⟩
      obtain hflight | ⟨hflight, hkeeps⟩ := hflight
      · exact hflight
      · refine hflight.trans (hrecorded ?_)
        cases hcalling : run.phase.isCalling with
        | false => rfl
        | true =>
          rw [hkeeps hcalling hlive] at hcall
          cases hcall
    · have hj' := (h.latest j run₁ hrun₁ hlive).1
      omega
  case inFlight =>
    intro j hj
    refine Eq.trans ?_ hlen.symm
    obtain hflight | ⟨hflight, _⟩ := hflight
    · cases hflight.symm.trans hj
      exact hlast
    · exact h.inFlight j (hflight.symm.trans hj)
  case sizes =>
    intro j run₁ hrun₁
    obtain ⟨_, rfl⟩ | ⟨_, hrun₁⟩ := getElem?_set_eq_some hrun₁
    · exact hm.bound
    · exact h.sizes j run₁ hrun₁
  case owed =>
    intro j i howed
    by_cases hj : j = k
    · subst hj
      have hopen := open_append.1 howed
      constructor
      · obtain hes | ⟨_, hpast⟩ := hopen
        · exact hm.connected i hes
        · exact (h.owed j i hpast).1
      · intro hreleased
        refine ⟨run', hself, hm.holds hreleased i ?_⟩
        obtain hes | ⟨hnone, hpast⟩ := hopen
        · exact .inl hes
        · obtain ⟨run₀, hrun₀, hholds⟩ := (h.owed j i hpast).2 hreleased
          cases hrun.symm.trans hrun₀
          exact .inr ⟨fun e he => hnone e (List.mem_reverse.2 he), hholds⟩
    · have hes (e : LogEvent) (he : e ∈ es.reverse) : LogEvent.connected j i e = false :=
        connected_of_ofStart (hofStart he) hj i
      obtain ⟨hlt, hheld⟩ := h.owed j i (open_of_append hes howed).2
      refine ⟨hlt, fun hreleased => ?_⟩
      obtain ⟨run₁, hrun₁, hholds⟩ := hheld hreleased
      exact ⟨run₁, (hother hj).trans hrun₁, hholds⟩
  case wired =>
    intro j i hwired
    have hes (e : LogEvent) (he : e ∈ es.reverse) : subscribes j i e = false :=
      subscribes_of_ofStart (hofStart he) j i
    exact h.wired j i (open_of_append hes hwired).2
  case stopLogged => exact fun hmem => h.stopLogged (hold rfl hmem)
  case unsubs => exact h.unsubs
  case wiring =>
    intro hcalled run₁ hrun₁
    obtain hmem | rfl := List.mem_or_eq_of_mem_set hrun₁
    · exact h.wiring hcalled run₁ hmem
    · exact hm.wiring hcalled (h.wiring hcalled run (List.mem_of_getElem? hrun))

/-- Events that open nothing, and are no start's first. -/
def plain : LogEvent → Bool
  | .startBegun _ | .connect _ _ | .connectSettled _ _ _ | .subscribe _ _ | .stopCalled => false
  | _ => true

theorem Invariant.notes {s : Runner} (h : Invariant opts s) {es : List LogEvent}
    (hes : ∀ e ∈ es, plain e = true) (hs : Each Shares (s.note es).log)
    (hr : Each Refuses (s.note es).log) : Invariant opts (s.note es) := by
  have hold {e : LogEvent} (he : plain e = false) (hmem : e ∈ (s.note es).log) : e ∈ s.log := by
    obtain hmem | hmem := List.mem_append.1 hmem
    · cases he.symm.trans (hes e (List.mem_reverse.1 hmem))
    · exact hmem
  have hin {e : LogEvent} (hmem : e ∈ s.log) : e ∈ (s.note es).log :=
    List.mem_append_right _ hmem
  have hconnected (k i : Nat) : ∀ e ∈ es.reverse, LogEvent.connected k i e = false := by
    intro e he
    have hplain := hes e (List.mem_reverse.1 he)
    cases e with
    | connectSettled _ _ _ => cases hplain
    | _ => rfl
  have hsubscribes (k i : Nat) : ∀ e ∈ es.reverse, subscribes k i e = false := by
    intro e he
    have hplain := hes e (List.mem_reverse.1 he)
    cases e with
    | subscribe _ _ => cases hplain
    | _ => rfl
  constructor
  case shares => exact hs
  case refuses => exact hr
  case begun =>
    exact fun j => ⟨fun hmem => (h.begun j).1 (hold rfl hmem), fun hlt => hin ((h.begun j).2 hlt)⟩
  case connects => exact fun k i hmem => h.connects k i (hold rfl hmem)
  case settled =>
    exact fun k run hrun hset => (h.settled k run hrun hset).imp fun _ hr => hin hr
  case latest => exact h.latest
  case inFlight => exact h.inFlight
  case sizes => exact h.sizes
  case owed => exact fun k i howed => h.owed k i (open_of_append (hconnected k i) howed).2
  case wired => exact fun k i hwired => h.wired k i (open_of_append (hsubscribes k i) hwired).2
  case stopLogged => exact fun hmem => h.stopLogged (hold rfl hmem)
  case unsubs => exact h.unsubs
  case wiring => exact h.wiring

theorem Invariant.noted {s : Runner} (h : Invariant opts s) {e : LogEvent} (he : plain e = true)
    (hs : Shares e s.log) (hr : Refuses e s.log) : Invariant opts (s.note [e]) :=
  h.notes (fun _ he' => List.mem_singleton.1 he' ▸ he) ⟨hs, h.shares⟩ ⟨hr, h.refuses⟩

/-- What changes neither the log, the starts nor what is wired. -/
theorem Invariant.of_eq {s s' : Runner} (h : Invariant opts s) (hlog : s'.log = s.log)
    (hruns : s'.runs = s.runs) (hflight : s'.startInFlight = s.startInFlight)
    (hunsubs : s'.unsubs = s.unsubs) (hstop : s'.stopPhase.called = s.stopPhase.called)
    (hreleased : s'.stopPhase.released = s.stopPhase.released) : Invariant opts s' := by
  constructor
  case shares => exact hlog ▸ h.shares
  case refuses => exact hlog ▸ h.refuses
  case begun => exact hlog ▸ hruns ▸ h.begun
  case connects => exact hlog ▸ hruns ▸ h.connects
  case settled => exact hlog ▸ hruns ▸ h.settled
  case latest => exact hruns ▸ hflight ▸ h.latest
  case inFlight => exact hruns ▸ hflight ▸ h.inFlight
  case sizes => exact hruns ▸ h.sizes
  case owed => exact hlog ▸ hruns ▸ hreleased ▸ h.owed
  case wired => exact hlog ▸ hunsubs ▸ h.wired
  case stopLogged => exact hlog ▸ hstop ▸ h.stopLogged
  case unsubs => exact hstop ▸ hunsubs ▸ h.unsubs
  case wiring => exact hstop ▸ hruns ▸ h.wiring

/-- A start begins when the ones before it have settled. -/
theorem Invariant.begins {s : Runner} (h : Invariant opts s) (hstop : s.stopPhase.called = false)
    (hflight : s.startInFlight = none) (hcalling : ∀ run ∈ s.runs, run.phase.isCalling = false) :
    Invariant opts ({ s with runs := s.runs ++ [StartRun.new] }.note
      [.startBegun s.runs.length]) := by
  have hset (k : Nat) (run : StartRun) (hrun : s.runs[k]? = some run) :
      run.phase.isSettled = true := by
    cases hlive : run.phase.isSettled with
    | true => rfl
    | false =>
      have hrecorded := (h.latest k run hrun hlive).2 (hcalling run (List.mem_of_getElem? hrun))
      cases hflight.symm.trans hrecorded
  have hget (k : Nat) (run : StartRun) : (s.runs ++ [StartRun.new])[k]? = some run ↔
      s.runs[k]? = some run ∨ k = s.runs.length ∧ run = StartRun.new := by
    grind
  have hstopped : .stopCalled ∉ s.log := fun hmem => by
    rw [h.stopLogged hmem] at hstop
    cases hstop
  constructor
  case shares =>
    refine ⟨fun j hmem => ⟨(h.begun j).1 hmem, ?_⟩, h.shares⟩
    have hlt := (h.begun j).1 hmem
    exact h.settled j _ (List.getElem?_eq_getElem hlt) (hset j _ (List.getElem?_eq_getElem hlt))
  case refuses => exact ⟨hstopped, h.refuses⟩
  case begun =>
    intro j
    simp only [note_log, note_runs, List.reverse_singleton, List.singleton_append, List.mem_cons,
      LogEvent.startBegun.injEq, h.begun, List.length_append, List.length_singleton]
    omega
  case connects =>
    intro k i hmem
    obtain ⟨run, hrun, hlt⟩ := h.connects k i (by simpa using hmem)
    exact ⟨run, (hget k run).2 (.inl hrun), hlt⟩
  case settled =>
    intro k run hrun hs
    obtain hrun | ⟨_, rfl⟩ := (hget k run).1 hrun
    · obtain ⟨r, hr⟩ := h.settled k run hrun hs
      exact ⟨r, List.mem_cons_of_mem _ hr⟩
    · cases hs
  case latest =>
    intro k run hrun hlive
    obtain hrun | ⟨rfl, rfl⟩ := (hget k run).1 hrun
    · rw [hset k run hrun] at hlive
      cases hlive
    · exact ⟨by simp, fun hc => by cases hc⟩
  case inFlight =>
    intro k hk
    cases hflight.symm.trans hk
  case sizes =>
    intro k run hrun
    obtain hrun | ⟨_, rfl⟩ := (hget k run).1 hrun
    · exact h.sizes k run hrun
    · exact Nat.zero_le _
  case owed =>
    intro k i howed
    obtain ⟨hlt, hheld⟩ := h.owed k i (by simpa [Owed, LogEvent.connected, disconnects] using howed)
    refine ⟨hlt, fun hreleased => ?_⟩
    obtain ⟨run, hrun, hholds⟩ := hheld hreleased
    exact ⟨run, (hget k run).2 (.inl hrun), hholds⟩
  case wired =>
    intro k i hwired
    exact h.wired k i (by simpa [Wired, subscribes, unsubscribes] using hwired)
  case stopLogged => exact fun hmem => h.stopLogged (by simpa using hmem)
  case unsubs => exact h.unsubs
  case wiring =>
    intro hcalled
    exact absurd hcalled (by simp [note, hstop])

/-- Adapters of distinct platforms are all held. -/
theorem mem_registered (hdistinct : opts.adapters.Nodup) {i : Nat}
    (hi : i < opts.adapters.length) : i ∈ opts.registered := by
  have hkeys : (opts.adapters.zipIdx.map Prod.fst).Nodup := by
    rwa [List.zipIdx_map_fst]
  have hmem : (opts.adapters[i], i) ∈ opts.adapters.zipIdx :=
    List.mk_mem_zipIdx_iff_getElem?.2 (List.getElem?_eq_getElem hi)
  have hget := OrderedMap.get_foldl_set hkeys hmem .empty
  exact List.mem_map.2 ⟨_, OrderedMap.mem_entries_of_get hget, rfl⟩

/-- A `disconnect()` of every adapter there is closes what is owed. -/
theorem not_owed_of_disconnects {log : List LogEvent} {is : List Nat} {k i : Nat} (hi : i ∈ is) :
    ¬Owed ((is.map LogEvent.disconnect).reverse ++ log) k i := by
  intro howed
  have hes : ∀ e ∈ (is.map LogEvent.disconnect).reverse, LogEvent.connected k i e = false := by
    intro e he
    obtain ⟨j, _, rfl⟩ := List.mem_map.1 (List.mem_reverse.1 he)
    rfl
  have hnone := (open_of_append hes howed).1 (.disconnect i)
    (List.mem_reverse.2 (List.mem_map.2 ⟨i, hi, rfl⟩))
  simp [disconnects] at hnone

theorem Invariant.releaseRegistered {s : Runner} (h : Invariant opts s)
    (hdistinct : opts.adapters.Nodup) (hcalled : s.stopPhase.called = true) :
    Invariant opts (s.releaseRegistered opts) := by
  have hnew {e : LogEvent} (he : e ∈ opts.registered.map LogEvent.disconnect) :
      ∃ i, e = .disconnect i := by
    obtain ⟨i, _, rfl⟩ := List.mem_map.1 he
    exact ⟨i, rfl⟩
  have hsafe {P : LogEvent → List LogEvent → Prop} (hP : ∀ i past, P (.disconnect i) past) :
      ∀ e ∈ (opts.registered.map LogEvent.disconnect).reverse, ∀ past, P e past := by
    intro e he past
    obtain ⟨i, rfl⟩ := hnew (List.mem_reverse.1 he)
    exact hP i past
  have h' : Invariant opts (s.note (opts.registered.map .disconnect)) := by
    refine h.notes (fun e he => ?_) (Each.append (hsafe fun _ _ => trivial) h.shares)
      (Each.append (hsafe fun _ _ => trivial) h.refuses)
    obtain ⟨i, rfl⟩ := hnew he
    rfl
  exact
    { h' with
      owed := fun k i howed =>
        absurd howed (not_owed_of_disconnects (mem_registered hdistinct (h'.owed k i howed).1))
      stopLogged := fun _ => rfl
      unsubs := fun _ => h.unsubs hcalled
      wiring := fun _ => h.wiring hcalled }

/-- A stop forgets what is wired, and unsubscribes it. -/
theorem Invariant.stops {s : Runner} (h : Invariant opts s)
    (hwiring : ∀ run ∈ s.runs, run.phase.isWiring = false) (awaited : List Nat) :
    Invariant opts
      { { s with unsubs := [] }.note (.stopCalled :: s.unsubs.map fun (k, i) => .unsubscribe k i)
        with stopPhase := .draining awaited } := by
  have hnew {e : LogEvent} (he : e ∈ (LogEvent.stopCalled :: s.unsubs.map fun (k, i) =>
      LogEvent.unsubscribe k i).reverse) : e = .stopCalled ∨ ∃ k i, e = .unsubscribe k i := by
    obtain rfl | he := List.mem_cons.1 (List.mem_reverse.1 he)
    · exact .inl rfl
    · obtain ⟨u, _, rfl⟩ := List.mem_map.1 he
      exact .inr ⟨_, _, rfl⟩
  have hin {e : LogEvent} (he : e ∈ s.log) : e ∈ (LogEvent.stopCalled :: s.unsubs.map fun (k, i) =>
      LogEvent.unsubscribe k i).reverse ++ s.log := List.mem_append_right _ he
  have hold {e : LogEvent} (hne : e ≠ .stopCalled) (hne' : ∀ k i, e ≠ .unsubscribe k i)
      (he : e ∈ (LogEvent.stopCalled :: s.unsubs.map fun (k, i) =>
        LogEvent.unsubscribe k i).reverse ++ s.log) : e ∈ s.log := by
    obtain he | he := List.mem_append.1 he
    · obtain rfl | ⟨k, i, rfl⟩ := hnew he
      · exact absurd rfl hne
      · exact absurd rfl (hne' k i)
    · exact he
  constructor
  case shares =>
    refine Each.append (fun e he past => ?_) h.shares
    obtain rfl | ⟨k, i, rfl⟩ := hnew he <;> trivial
  case refuses =>
    refine Each.append (fun e he past => ?_) h.refuses
    obtain rfl | ⟨k, i, rfl⟩ := hnew he <;> trivial
  case begun =>
    exact fun j => ⟨fun he => (h.begun j).1 (hold (by simp) (by simp) he),
      fun hlt => hin ((h.begun j).2 hlt)⟩
  case connects => exact fun k i he => h.connects k i (hold (by simp) (by simp) he)
  case settled =>
    exact fun k run hrun hset => (h.settled k run hrun hset).imp fun _ hr => hin hr
  case latest => exact h.latest
  case inFlight => exact h.inFlight
  case sizes => exact h.sizes
  case owed =>
    intro k i howed
    refine ⟨(h.owed k i (open_of_append (fun e he => ?_) howed).2).1, fun hr => by cases hr⟩
    obtain rfl | ⟨k, i, rfl⟩ := hnew he <;> rfl
  case wired =>
    intro k i hwired
    have hes : ∀ e ∈ (LogEvent.stopCalled :: s.unsubs.map fun (k, i) =>
        LogEvent.unsubscribe k i).reverse, subscribes k i e = false := by
      intro e he
      obtain rfl | ⟨k, i, rfl⟩ := hnew he <;> rfl
    obtain ⟨hnone, hpast⟩ := open_of_append hes hwired
    have hclosed := hnone (.unsubscribe k i) (by
      rw [List.mem_reverse]
      exact List.mem_cons_of_mem _ (List.mem_map.2 ⟨_, h.wired k i hpast, rfl⟩))
    simp [unsubscribes] at hclosed
  case stopLogged => exact fun _ => rfl
  case unsubs => exact fun _ => rfl
  case wiring => exact fun _ => hwiring

theorem Invariant.stop {s : Runner} (h : Invariant opts s) (hdistinct : opts.adapters.Nodup)
    (hok : Orderly redact opts s .stop) : Invariant opts (s.stop opts) := by
  unfold Runner.stop
  cases hcalled : s.stopPhase.called with
  | true => exact h.noted rfl trivial trivial
  | false =>
    simp only [Bool.false_eq_true, if_false]
    split
    · exact (h.stops (hok hcalled) []).releaseRegistered hdistinct rfl
    · exact h.stops (hok hcalled) _

theorem Invariant.subscribed {s : Runner} (h : Invariant opts s)
    (hcalled : s.stopPhase.called = false) (k next : Nat) :
    Invariant opts ({ s with unsubs := s.unsubs ++ [(k, next)] }.note [.subscribe k next]) := by
  have hold {e : LogEvent} (hne : e ≠ .subscribe k next) (he : e ∈ .subscribe k next :: s.log) :
      e ∈ s.log := (List.mem_cons.1 he).resolve_left hne
  constructor
  case shares => exact ⟨trivial, h.shares⟩
  case refuses => exact ⟨trivial, h.refuses⟩
  case begun =>
    exact fun j => ⟨fun he => (h.begun j).1 (hold (by simp) he),
      fun hlt => List.mem_cons_of_mem _ ((h.begun j).2 hlt)⟩
  case connects => exact fun k i he => h.connects k i (hold (by simp) he)
  case settled =>
    exact fun k run hrun hset =>
      (h.settled k run hrun hset).imp fun _ hr => List.mem_cons_of_mem _ hr
  case latest => exact h.latest
  case inFlight => exact h.inFlight
  case sizes => exact h.sizes
  case owed =>
    exact fun k i howed => h.owed k i (by simpa [Owed, LogEvent.connected, disconnects] using howed)
  case wired =>
    intro j i hwired
    obtain hnext | ⟨_, hpast⟩ := hwired
    · obtain ⟨rfl, rfl⟩ : k = j ∧ next = i := by simpa [subscribes] using hnext
      simp [note]
    · exact List.mem_append_left _ (h.wired j i hpast)
  case stopLogged => exact fun he => h.stopLogged (hold (by simp) he)
  case unsubs =>
    intro hc
    cases hcalled.symm.trans hc
  case wiring => exact h.wiring

end Runner

end TheokitGateways.Gateway
