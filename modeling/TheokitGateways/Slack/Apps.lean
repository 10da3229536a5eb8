import TheokitGateways.Records
import TheokitGateways.Slack.Adapter

/-!
# The App the adapter holds

A `disconnect` forgets whatever is held when the App it has stopped is gone. As
long as it does not go on once a `connect` that came after it waits for an App or
was promised one, what it forgets is what it has stopped.
-/

namespace TheokitGateways.Slack
open Js Gateway Records Transition

namespace SlackAdapter

/-- The adapter holds the App that runs, and stays connected until a `disconnect`. -/
structure OneApp (s : SlackAdapter) : Prop where
  held : (∀ call ∈ s.calls, call.isPending = false) → ∀ k, s.app = some k ↔
    ∃ app, s.apps[k]? = some app ∧ app.started = true ∧ app.stopped = false
  referenced : ∀ (k : Nat) (app : App), s.apps[k]? = some app → app.started = true →
    app.stopped = false → s.app = some k
  connected : ∀ i : Nat, s.calls[i]? = some (.connected (.ok true)) →
    (∀ (j : Nat) (call : Call), i < j → s.calls[j]? = some call → call.isDisconnect = false) →
    s.connected = true ∧ s.app.isSome = true

/-- A `connect` that was made after a call waits for an App, or was promised one. -/
def superseded (s : SlackAdapter) (i : Nat) : Bool := (s.calls.drop (i + 1)).any Call.wantsApp

/-- A `disconnect` stops an App, and forgets what is held, only while no `connect` has superseded
it; and errors can be printed. -/
def Heeds (s : SlackAdapter) : Action → Prop
  | .resumed i => s.app = none ∨ s.superseded i = false
  | .stopped i result => s.superseded i = false ∧ Prints result
  | .started _ result => Prints result
  | .authTested _ userId => Prints (userId.bind userIdText)
  | _ => True

instance (s : SlackAdapter) : ∀ action, Decidable (s.Heeds action)
  | .resumed _ => inferInstanceAs (Decidable (_ ∨ _))
  | .stopped .. => inferInstanceAs (Decidable (_ ∧ _))
  | .started _ result => inferInstanceAs (Decidable (Prints result))
  | .authTested _ userId => inferInstanceAs (Decidable (Prints (userId.bind userIdText)))
  | .connect _ | .disconnect | .cleaned _ | .finished _ | .message .. | .onInbound _
  | .offInbound _ => inferInstanceAs (Decidable True)

/-- The App that is held, where the attempt that is pending stands. -/
def Phase (s : SlackAdapter) : Attempt → Prop
  | .starting k => s.connected = false ∧ s.app = some k ∧ s.apps[k]? = some {}
  | .authTest => s.connected = false ∧ ∃ k, s.app = some k ∧ s.apps[k]? = some ⟨true, false⟩
  | .cleaning k => s.connected = false ∧ s.app = some k
  | .returned answer => answer = .ok true ∧ s.connected = true ∨
    answer ≠ .ok true ∧ s.connected = false ∧ s.app = none
  | .settled _ => False

/-- What every step keeps of the Apps. -/
structure Kept (s : SlackAdapter) : Prop where
  bounded : ∀ k, s.app = some k → k < s.apps.length
  alone : ∀ (k : Nat) (app : App), s.apps[k]? = some app → app.started = true →
    app.stopped = false → s.app = some k
  running : s.connected = true → ∃ k, s.app = some k ∧ s.apps[k]? = some ⟨true, false⟩
  settled : ∀ (j : Nat) (attempt : Attempt), s.attempts[j]? = some attempt →
    s.connectingPromise ≠ some j → ∃ answer, attempt = .settled answer

/-- What every step keeps of the App that is held. -/
structure Held (s : SlackAdapter) : Prop extends Kept s where
  idle : s.connectingPromise = none → s.connected = false → s.app = none
  attempt : ∀ j : Nat, s.connectingPromise = some j →
    ∃ attempt, s.attempts[j]? = some attempt ∧ s.Phase attempt

/-- What a call at a place knows of the session. -/
def Stands (s : SlackAdapter) (i : Nat) : Call → Prop
  | .connecting j => s.connectingPromise = some j
  | .waiting j => s.superseded i = true ∨ s.connectingPromise = none ∨
    s.connectingPromise = some j
  | .stopping k => s.superseded i = true ∨
    s.connectingPromise = none ∧ (s.app = none ∨ s.app = some k)
  | .connected answer => answer = .ok true → s.connected = true ∨
    ∃ (j : Nat) (call : Call), i < j ∧ s.calls[j]? = some call ∧ call.isDisconnect = true
  | .disconnected _ => True

/-- What every step keeps of the calls. -/
structure Heard (s : SlackAdapter) : Prop where
  asked : ∀ j, s.connectingPromise = some j → ∃ i : Nat, s.calls[i]? = some (.connecting j)
  stands : ∀ (i : Nat) (call : Call), s.calls[i]? = some call → s.Stands i call

variable {s s' : SlackAdapter} {action : Action} {requireMention : Option Bool}

/-! ## The App -/

/-- An attempt goes on, or ends. -/
theorem Kept.setAttempt (h : s.Kept) {j : Nat} (hj : s.connectingPromise = some j)
    (hlt : j < s.attempts.length) (attempt : Attempt) (hphase : s.Phase attempt) :
    (s.setAttempt j attempt).Held where
  bounded := h.bounded
  alone := h.alone
  running := h.running
  settled i other hi hother := by
    obtain ⟨rfl, _⟩ | ⟨_, hi⟩ := getElem?_set_eq_some hi
    · exact absurd hj hother
    · exact h.settled i other hi hother
  idle hnone := by
    have hsome : some j = none := hj.symm.trans hnone
    cases hsome
  attempt i hi := by
    obtain rfl : j = i := Option.some.inj (hj.symm.trans hi)
    exact ⟨attempt, List.getElem?_set_self hlt, hphase⟩

theorem Held.lt_of_pending (h : s.Held) {j : Nat} (hj : s.connectingPromise = some j) :
    j < s.attempts.length := by
  obtain ⟨attempt, hattempt, _⟩ := h.attempt j hj
  exact (List.getElem?_eq_some_iff.1 hattempt).1

/-- An attempt that has not settled is the one that is pending. -/
theorem Held.pending (h : s.Held) {j : Nat} {attempt : Attempt}
    (hj : s.attempts[j]? = some attempt) (hopen : ∀ answer, attempt ≠ .settled answer) :
    s.connectingPromise = some j ∧ s.Phase attempt := by
  have hpending : s.connectingPromise = some j := by
    apply Decidable.byContradiction
    intro hother
    obtain ⟨answer, rfl⟩ := h.settled j attempt hj hother
    exact hopen answer rfl
  obtain ⟨other, hother, hphase⟩ := h.attempt j hpending
  obtain rfl : attempt = other := Option.some.inj (hj.symm.trans hother)
  exact ⟨hpending, hphase⟩

/-- An adapter that holds no App forgets none. -/
theorem Kept.forget (h : s.Kept) (hdown : s.connected = false) (hnone : s.app = none) :
    Kept { s with app := none, botUserId := none } where
  bounded _ hk := nomatch hk
  alone k app hk hup hrunning := hnone.symm.trans (h.alone k app hk hup hrunning)
  running hup := absurd (hdown.symm.trans hup) (by simp)
  settled := h.settled

theorem held_caught (h : s.Kept) {j : Nat} (hj : s.connectingPromise = some j)
    (hlt : j < s.attempts.length) (hdown : s.connected = false) {err : JsAny}
    (herr : s.app = none ∨ (thrownText err).isOk = true) : (s.caught j err).Held := by
  unfold caught
  split
  · rename_i e he
    rw [he] at herr
    have hnone := herr.resolve_right (by simp [Except.isOk, Except.toBool])
    exact h.setAttempt hj hlt _ (.inr ⟨by simp, hdown, hnone⟩)
  · split
    · exact h.setAttempt hj hlt _ ⟨hdown, ‹_›⟩
    · exact (h.forget hdown ‹_›).setAttempt hj hlt _ (.inr ⟨by simp, hdown, rfl⟩)

/-- Once the App that is held has stopped, none runs. -/
theorem Kept.stopped_of_started (h : s.Kept) {k : Nat} (hk : s.app = none ∨ s.app = some k)
    {i : Nat} {app : App}
    (hi : (s.apps.modify k fun app => { app with stopped := true })[i]? = some app)
    (hstarted : app.started = true) : app.stopped = true := by
  obtain ⟨before, hbefore, rfl⟩ := getElem?_modify_eq_some.1 hi
  split
  · rfl
  · rename_i hne
    rw [if_neg hne] at hstarted
    cases hrunning : before.stopped with
    | true => rfl
    | false =>
      have hheld := h.alone i before hbefore hstarted hrunning
      grind

theorem held_connect (h : s.Held) (made : Except JsAny Unit) : (s.connect made).Held := by
  have hcalls (call : Call) : (s.addCall call).Held :=
    ⟨⟨h.bounded, h.alone, h.running, h.settled⟩, h.idle, h.attempt⟩
  unfold connect
  split
  · exact hcalls _
  · rename_i hdown
    rw [Bool.not_eq_true] at hdown
    split
    · exact hcalls _
    · rename_i hfree
      have hnone := h.idle hfree hdown
      have hsettled (j : Nat) (attempt : Attempt)
          (hj : (s.attempts ++ [.starting s.apps.length])[j]? = some attempt)
          (hother : some s.attempts.length ≠ some j) : ∃ answer, attempt = .settled answer := by
        obtain hj | ⟨rfl, _⟩ := getElem?_append_singleton.1 hj
        · exact h.settled j attempt hj (by simp [hfree])
        · exact absurd rfl hother
      dsimp only
      split
      · refine ⟨⟨fun k hk => ?_, fun k app hk hup hrunning => ?_, fun hup => ?_, hsettled⟩,
          fun hnone => (by cases hnone), fun j hj => ?_⟩
        · obtain rfl : s.apps.length = k := Option.some.inj hk
          simp
        · obtain hk | ⟨_, rfl⟩ := getElem?_append_singleton.1 hk
          · exact absurd (hnone.symm.trans (h.alone k app hk hup hrunning)) (by simp)
          · cases hup
        · exact absurd (hdown.symm.trans hup) (by simp)
        · obtain rfl : s.attempts.length = j := Option.some.inj hj
          exact ⟨_, List.getElem?_concat_length, hdown, rfl, List.getElem?_concat_length⟩
      · have hkept : Kept { s with
            connectingPromise := some s.attempts.length
            attempts := s.attempts ++ [.starting s.apps.length]
            calls := s.calls ++ [.connecting s.attempts.length] } :=
          ⟨h.bounded, h.alone, h.running, hsettled⟩
        exact held_caught hkept rfl (by simp) hdown (.inl hnone)

theorem held_started (h : s.Held) {j k : Nat} (hj : s.attempts[j]? = some (.starting k))
    {result : Except JsAny Unit} (hprints : Prints result) : (s.started j k result).Held := by
  obtain ⟨hpending, hdown, happ, hk⟩ := h.pending hj (by simp)
  have hlt := h.lt_of_pending hpending
  cases result with
  | ok =>
    have hmodified : (s.modifyApp k fun app => { app with started := true }).Kept := by
      refine ⟨fun i hi => ?_, fun i app hi hup hrunning => ?_, fun hup => ?_, h.settled⟩
      · have hlt := h.bounded i hi
        simpa [modifyApp] using hlt
      · obtain ⟨before, hbefore, rfl⟩ := getElem?_modify_eq_some.1 hi
        split at hrunning
        · subst k
          exact happ
        · rename_i hne
          rw [if_neg hne] at hup
          exact h.alone i before hbefore hup hrunning
      · exact absurd (hdown.symm.trans hup) (by simp)
    have hrunning : (s.modifyApp k fun app => { app with started := true }).apps[k]? =
        some ⟨true, false⟩ := by
      simp [modifyApp, hk]
    unfold started
    dsimp only
    split
    · exact hmodified.setAttempt hpending hlt _ ⟨hdown, k, happ, hrunning⟩
    · rename_i hnone
      exact absurd (happ.symm.trans hnone) (by simp)
  | error err => exact held_caught h.toKept hpending hlt hdown (.inr hprints)

theorem held_authTested (h : s.Held) {j : Nat} (hj : s.attempts[j]? = some .authTest)
    {userId : Except JsAny JsAny} (hprints : Prints (userId.bind userIdText)) :
    (s.authTested j userId).Held := by
  obtain ⟨hpending, hdown, hrunning⟩ := h.pending hj (by simp)
  have hlt := h.lt_of_pending hpending
  unfold authTested
  split
  · rename_i id _
    have hkept : Kept { s with botUserId := some id, connected := true } :=
      ⟨h.bounded, h.alone, fun _ => hrunning, h.settled⟩
    exact hkept.setAttempt hpending hlt _ (.inl ⟨rfl, rfl⟩)
  · rename_i err herr
    rw [herr] at hprints
    exact held_caught h.toKept hpending hlt hdown (.inr hprints)

theorem held_cleaned (h : s.Held) {j k : Nat} (hj : s.attempts[j]? = some (.cleaning k)) :
    (s.cleaned j k).Held := by
  obtain ⟨hpending, hdown, happ⟩ := h.pending hj (by simp)
  have hkept : Kept { s.modifyApp k fun app => { app with stopped := true } with
      app := none, botUserId := none } := by
    refine ⟨fun i hi => (by cases hi), fun i app hi hup hrunning => ?_, fun hup => ?_, h.settled⟩
    · have hstopped := h.stopped_of_started (.inr happ) hi hup
      exact absurd (hstopped.symm.trans hrunning) (by simp)
    · exact absurd (hdown.symm.trans hup) (by simp)
  exact hkept.setAttempt hpending (h.lt_of_pending hpending) _ (.inr ⟨by simp, hdown, rfl⟩)

theorem held_finished (h : s.Held) {j : Nat} {answer : Except JsAny Bool}
    (hj : s.attempts[j]? = some (.returned answer)) : (s.finished j answer).Held := by
  obtain ⟨hpending, hreturned⟩ := h.pending hj (by simp)
  refine ⟨⟨h.bounded, h.alone, h.running, fun i attempt hi _ => ?_⟩, fun _ hdown => ?_,
    fun i hi => (by cases hi)⟩
  · obtain ⟨_, rfl⟩ | ⟨hne, hi⟩ := getElem?_set_eq_some hi
    · exact ⟨answer, rfl⟩
    · refine h.settled i attempt hi fun hother => hne ?_
      exact (Option.some.inj (hpending.symm.trans hother)).symm
  · obtain ⟨_, hup⟩ | ⟨_, _, hnone⟩ := hreturned
    · exact absurd (hup.symm.trans hdown) (by simp)
    · exact hnone

/-- A `disconnect` that can print forgets what is held. -/
theorem stopped_of_prints (i k : Nat) {result : Except JsAny Unit} (hprints : Prints result) :
    s.stopped i k result = setCall { s.modifyApp k fun app => { app with stopped := true } with
      app := none, connected := false, botUserId := none } i (.disconnected (.ok ())) := by
  cases result with
  | ok => rfl
  | error err =>
    unfold stopped
    dsimp only
    split
    · rfl
    · rename_i e he
      rw [Prints, he] at hprints
      cases hprints

theorem held_stopped (h : s.Held) (i : Nat) {k : Nat} (hfree : s.connectingPromise = none)
    (hk : s.app = none ∨ s.app = some k) {result : Except JsAny Unit} (hprints : Prints result) :
    (s.stopped i k result).Held := by
  rw [stopped_of_prints i k hprints]
  refine ⟨⟨fun i hi => (by cases hi), fun i app hi hup hrunning => ?_,
    fun hup => (by cases hup), h.settled⟩, fun _ _ => rfl, fun j hj => ?_⟩
  · have hstopped := h.stopped_of_started hk hi hup
    exact absurd (hstopped.symm.trans hrunning) (by simp)
  · exact absurd (hfree.symm.trans hj) (by simp)

/-! ## The calls -/

theorem superseded_iff {i : Nat} : s.superseded i = true ↔
    ∃ (j : Nat) (call : Call), i < j ∧ s.calls[j]? = some call ∧ call.wantsApp = true := by
  rw [superseded, List.any_eq_true]
  constructor
  · rintro ⟨call, hmem, hcall⟩
    obtain ⟨j, hj⟩ := List.mem_iff_getElem?.1 hmem
    rw [List.getElem?_drop] at hj
    exact ⟨i + 1 + j, call, by omega, hj, hcall⟩
  · rintro ⟨j, call, hlt, hj, hcall⟩
    refine ⟨call, List.mem_iff_getElem?.2 ⟨j - (i + 1), ?_⟩, hcall⟩
    rw [List.getElem?_drop, show i + 1 + (j - (i + 1)) = j by omega]
    exact hj

/-- What a call knows stays so when more calls are made. -/
theorem Stands.addCall {i : Nat} {call : Call} (h : s.Stands i call) (new : Call) :
    (s.addCall new).Stands i call := by
  have hsuperseded (h : s.superseded i = true) : (s.addCall new).superseded i = true := by
    obtain ⟨j, call, hlt, hj, hcall⟩ := superseded_iff.1 h
    exact superseded_iff.2 ⟨j, call, hlt, getElem?_append_singleton.2 (.inl hj), hcall⟩
  cases call with
  | connecting j => exact h
  | waiting j => exact h.imp hsuperseded id
  | stopping k => exact h.imp hsuperseded id
  | connected answer =>
    intro htrue
    refine (h htrue).imp id ?_
    rintro ⟨j, call, hlt, hj, hcall⟩
    exact ⟨j, call, hlt, getElem?_append_singleton.2 (.inl hj), hcall⟩
  | disconnected result => trivial

theorem heard_addCall (h : s.Heard) {new : Call}
    (hnew : (s.addCall new).Stands s.calls.length new) : (s.addCall new).Heard where
  asked j hj := by
    obtain ⟨i, hi⟩ := h.asked j hj
    exact ⟨i, getElem?_append_singleton.2 (.inl hi)⟩
  stands i call hi := by
    obtain hi | ⟨rfl, rfl⟩ := getElem?_append_singleton.1 hi
    · exact (h.stands i call hi).addCall new
    · exact hnew

/-- An attempt goes on, while the calls stand as they were. -/
theorem Heard.of_pending (h : s.Heard) {j : Nat} (hj : s.connectingPromise = some j)
    (hj' : s'.connectingPromise = some j) (hcalls : s'.calls = s.calls)
    (hup : s.connected = true → s'.connected = true) : s'.Heard where
  asked i hi := by
    rw [hcalls]
    exact h.asked i (by rw [hj, ← hj', hi])
  stands i call hi := by
    rw [hcalls] at hi
    have hstands := h.stands i call hi
    have hsuperseded : s'.superseded i = s.superseded i := by rw [superseded, hcalls, superseded]
    cases call with
    | connecting k =>
      show s'.connectingPromise = some k
      rw [hj', ← hj]
      exact hstands
    | waiting k =>
      show s'.superseded i = true ∨ s'.connectingPromise = none ∨ s'.connectingPromise = some k
      rw [hsuperseded, hj', ← hj]
      exact hstands
    | stopping k =>
      obtain hstands | ⟨hnone, _⟩ := hstands
      · exact .inl (hsuperseded.trans hstands)
      · exact absurd (hj.symm.trans hnone) (by simp)
    | connected answer =>
      intro htrue
      rw [hcalls]
      exact (hstands htrue).imp hup id
    | disconnected result => trivial

theorem calls_caught (j : Nat) (err : JsAny) : (s.caught j err).calls = s.calls ∧
    (s.caught j err).connectingPromise = s.connectingPromise ∧
    (s.caught j err).connected = s.connected := by
  unfold caught
  split
  · exact ⟨rfl, rfl, rfl⟩
  · split <;> exact ⟨rfl, rfl, rfl⟩

theorem heard_caught (h : s.Heard) {j : Nat} (hj : s.connectingPromise = some j) (err : JsAny) :
    (s.caught j err).Heard := by
  obtain ⟨hcalls, hpromise, hconnected⟩ := calls_caught (s := s) j err
  exact h.of_pending hj (hpromise.trans hj) hcalls fun hup => hconnected.trans hup

theorem heard_connect (h : s.Heard) (made : Except JsAny Unit) : (s.connect made).Heard := by
  unfold connect
  split
  · exact heard_addCall h fun _ => .inl ‹_›
  · split
    · exact heard_addCall h ‹_›
    · rename_i hfree
      have hcalling : Heard { s with
          connectingPromise := some s.attempts.length
          attempts := s.attempts ++ [.starting s.apps.length]
          calls := s.calls ++ [.connecting s.attempts.length] } := by
        refine ⟨fun j hj => ?_, fun i call hi => ?_⟩
        · obtain rfl : s.attempts.length = j := Option.some.inj hj
          exact ⟨s.calls.length, List.getElem?_concat_length⟩
        · obtain hi | ⟨rfl, rfl⟩ := getElem?_append_singleton.1 hi
          · have hlt := (List.getElem?_eq_some_iff.1 hi).1
            have hsuperseded : (s.addCall (.connecting s.attempts.length)).superseded i = true :=
              superseded_iff.2 ⟨s.calls.length, _, hlt, List.getElem?_concat_length, rfl⟩
            have hstands := (h.stands i call hi).addCall (.connecting s.attempts.length)
            cases call with
            | connecting j => exact absurd (hfree.symm.trans (h.stands i _ hi)) (by simp)
            | waiting j => exact .inl hsuperseded
            | stopping k => exact .inl hsuperseded
            | connected answer => exact hstands
            | disconnected result => trivial
          · rfl
      dsimp only
      split
      · exact hcalling.of_pending rfl rfl rfl id
      · exact heard_caught hcalling rfl _

theorem heard_started (h : s.Heard) {j : Nat} (hj : s.connectingPromise = some j) (k : Nat)
    (result : Except JsAny Unit) : (s.started j k result).Heard := by
  cases result with
  | ok =>
    have hmodified : (s.modifyApp k fun app => { app with started := true }).Heard :=
      h.of_pending hj hj rfl id
    unfold started
    dsimp only
    split
    · exact hmodified.of_pending hj hj rfl id
    · exact heard_caught hmodified hj _
  | error err => exact heard_caught h hj err

theorem heard_authTested (h : s.Heard) {j : Nat} (hj : s.connectingPromise = some j)
    (userId : Except JsAny JsAny) : (s.authTested j userId).Heard := by
  unfold authTested
  split
  · exact h.of_pending hj hj rfl fun _ => rfl
  · exact heard_caught h hj _

theorem wantsApp_answered {j : Nat} {answer : Except JsAny Bool} (h : answer = .ok true)
    {call : Call} (hcall : call.wantsApp = true) : (call.answered j answer).wantsApp = true := by
  cases call with
  | connecting i =>
    rw [Call.answered]
    split
    · rw [h]
      rfl
    · rfl
  | _ => exact hcall

theorem isDisconnect_answered (j : Nat) (answer : Except JsAny Bool) (call : Call) :
    (call.answered j answer).isDisconnect = call.isDisconnect := by
  cases call with
  | connecting i =>
    rw [Call.answered]
    split <;> rfl
  | _ => rfl

theorem wantsApp_of_isDisconnect {call : Call} (h : call.isDisconnect = true) :
    call.wantsApp = false := by
  cases call with
  | connecting | connected => cases h
  | _ => rfl

/-- The attempt that was pending leaves an App, or none is held. -/
theorem heard_finished (h : s.Heard) {j : Nat} {answer : Except JsAny Bool}
    (hj : s.connectingPromise = some j)
    (hreturned : answer = .ok true ∧ s.connected = true ∨
      answer ≠ .ok true ∧ s.connected = false ∧ s.app = none) : (s.finished j answer).Heard := by
  refine ⟨fun i hi => (by cases hi), fun i call hi => ?_⟩
  obtain ⟨before, hbefore, rfl⟩ := getElem?_map_eq_some.1 hi
  have hstands := h.stands i before hbefore
  cases before with
  | connecting k =>
    obtain rfl : j = k := Option.some.inj (hj.symm.trans hstands)
    rw [Call.answered, if_pos rfl]
    intro htrue
    refine .inl ?_
    obtain ⟨_, hup⟩ | ⟨hfalse, _⟩ := hreturned
    · exact hup
    · exact absurd htrue hfalse
  | waiting k => exact .inr (.inl rfl)
  | stopping k =>
    obtain ⟨htrue, _⟩ | ⟨_, _, hnone⟩ := hreturned
    · obtain hsuperseded | ⟨hfree, _⟩ := hstands
      · obtain ⟨n, call, hlt, hn, hcall⟩ := superseded_iff.1 hsuperseded
        exact .inl (superseded_iff.2 ⟨n, _, hlt, getElem?_map_eq_some.2 ⟨call, hn, rfl⟩,
          wantsApp_answered htrue hcall⟩)
      · exact absurd (hj.symm.trans hfree) (by simp)
    · exact .inr ⟨rfl, .inl hnone⟩
  | connected answered =>
    intro htrue
    refine (hstands htrue).imp id ?_
    rintro ⟨n, call, hlt, hn, hcall⟩
    exact ⟨n, _, hlt, getElem?_map_eq_some.2 ⟨call, hn, rfl⟩,
      (isDisconnect_answered j answer call).trans hcall⟩
  | disconnected result => trivial

/-- A `disconnect` goes on. -/
theorem heard_setCall (h : s.Heard) {i : Nat} {old new : Call} (hi : s.calls[i]? = some old)
    (hold : old.isDisconnect = true) (hdisconnect : new.isDisconnect = true)
    (hnew : s.Stands i new) : (s.setCall i new).Heard := by
  have hlt := (List.getElem?_eq_some_iff.1 hi).1
  have hset {n : Nat} {call : Call} (hn : s.calls[n]? = some call) :
      (n ≠ i ∧ (s.setCall i new).calls[n]? = some call) ∨ (n = i ∧ call = old ∧
        (s.setCall i new).calls[n]? = some new) := by
    by_cases hni : n = i
    · subst n
      exact .inr ⟨rfl, Option.some.inj (hn.symm.trans hi), List.getElem?_set_self hlt⟩
    · exact .inl ⟨hni, (List.getElem?_set_ne (Ne.symm hni)).trans hn⟩
  have hsuperseded {n : Nat} (hn : s.superseded n = true) :
      (s.setCall i new).superseded n = true := by
    obtain ⟨m, call, hlt, hm, hcall⟩ := superseded_iff.1 hn
    obtain ⟨_, hm'⟩ | ⟨_, rfl, _⟩ := hset hm
    · exact superseded_iff.2 ⟨m, call, hlt, hm', hcall⟩
    · rw [wantsApp_of_isDisconnect hold] at hcall
      cases hcall
  have hstands {n : Nat} {call : Call} (hn : s.Stands n call) :
      (s.setCall i new).Stands n call := by
    cases call with
    | connecting k => exact hn
    | waiting k => exact hn.imp hsuperseded id
    | stopping k => exact hn.imp hsuperseded id
    | connected answer =>
      intro htrue
      refine (hn htrue).imp id ?_
      rintro ⟨m, call, hlt, hm, hcall⟩
      obtain ⟨_, hm'⟩ | ⟨_, rfl, hm'⟩ := hset hm
      · exact ⟨m, call, hlt, hm', hcall⟩
      · exact ⟨m, new, hlt, hm', hdisconnect⟩
    | disconnected result => trivial
  refine ⟨fun j hj => ?_, fun n call hn => ?_⟩
  · obtain ⟨n, hn⟩ := h.asked j hj
    obtain ⟨_, hn'⟩ | ⟨_, rfl, _⟩ := hset hn
    · exact ⟨n, hn'⟩
    · cases hold
  · obtain ⟨rfl, rfl⟩ | ⟨_, hn⟩ := getElem?_set_eq_some hn
    · exact hstands hnew
    · exact hstands (h.stands n call hn)

theorem heard_disconnect (h : s.Heard) : s.disconnect.Heard := by
  unfold disconnect
  split
  · exact heard_addCall h (.inr (.inr ‹_›))
  · refine heard_addCall h ?_
    unfold teardown
    split
    · trivial
    · exact .inr ⟨‹_›, .inr ‹_›⟩

/-- An App has stopped, and what is held is forgotten. -/
theorem heard_stopped (h : s.Heard) {i k : Nat} (hi : s.calls[i]? = some (.stopping k))
    (hfree : s.connectingPromise = none) (hlatest : s.superseded i = false)
    {result : Except JsAny Unit} (hprints : Prints result) : (s.stopped i k result).Heard := by
  have hforgotten : Heard { s.modifyApp k fun app => { app with stopped := true } with
      app := none, connected := false, botUserId := none } := by
    refine ⟨fun j hj => absurd (hfree.symm.trans hj) (by simp), fun n call hn => ?_⟩
    cases call with
    | connecting j => exact absurd (hfree.symm.trans (h.stands n _ hn)) (by simp)
    | waiting j => exact .inr (.inl hfree)
    | stopping j => exact .inr ⟨hfree, .inl rfl⟩
    | connected answer =>
      intro htrue
      refine .inr ⟨i, _, ?_, hi, rfl⟩
      rcases Nat.lt_trichotomy n i with hlt | rfl | hlt
      · exact hlt
      · exact absurd (hi.symm.trans hn) (by simp)
      · rw [htrue] at hn
        have hsuperseded : s.superseded i = true := superseded_iff.2 ⟨n, _, hlt, hn, rfl⟩
        exact absurd (hlatest.symm.trans hsuperseded) (by simp)
    | disconnected result => trivial
  rw [stopped_of_prints i k hprints]
  exact heard_setCall hforgotten hi rfl rfl trivial

/-! ## Runs -/

/-- A `disconnect` that was not superseded goes on when no attempt is pending. -/
theorem Heard.free_of_waiting (h : s.Heard) (hheld : s.Held) {i j : Nat}
    (hi : s.calls[i]? = some (.waiting j)) (hlatest : s.superseded i = false)
    {answer : Except JsAny Bool} (hj : s.attempts[j]? = some (.settled answer)) :
    s.connectingPromise = none := by
  obtain hsuperseded | hfree | hpending := h.stands i _ hi
  · exact absurd (hlatest.symm.trans hsuperseded) (by simp)
  · exact hfree
  · obtain ⟨attempt, hattempt, hphase⟩ := hheld.attempt j hpending
    obtain rfl := Option.some.inj (hj.symm.trans hattempt)
    exact hphase.elim

theorem Heard.free_of_stopping (h : s.Heard) {i k : Nat} (hi : s.calls[i]? = some (.stopping k))
    (hlatest : s.superseded i = false) :
    s.connectingPromise = none ∧ (s.app = none ∨ s.app = some k) := by
  obtain hsuperseded | hfree := h.stands i _ hi
  · exact absurd (hlatest.symm.trans hsuperseded) (by simp)
  · exact hfree

/-- Messages and handlers leave the session as it is. -/
theorem sound_of_eq (hheld : s.Held) (h : s.Heard)
    (heq : s' = { s with handler := s'.handler, delivered := s'.delivered }) :
    s'.Held ∧ s'.Heard := by
  rw [heq]
  exact ⟨⟨⟨hheld.bounded, hheld.alone, hheld.running, hheld.settled⟩, hheld.idle, hheld.attempt⟩,
    h.asked, h.stands⟩

theorem sound_step (hheld : s.Held) (h : s.Heard) (hC : s.Heeds action)
    (hstep : s.step requireMention action = some s') : s'.Held ∧ s'.Heard := by
  have hcalls (calls : List Call) : Held { s with calls := calls } :=
    ⟨⟨hheld.bounded, hheld.alone, hheld.running, hheld.settled⟩, hheld.idle, hheld.attempt⟩
  cases steps_of_step hstep with
  | connect made => exact ⟨held_connect hheld made, heard_connect h made⟩
  | disconnect =>
    refine ⟨?_, heard_disconnect h⟩
    unfold disconnect
    split <;> exact hcalls _
  | started hj result =>
    have hpending := (hheld.pending hj (by simp)).1
    exact ⟨held_started hheld hj hC, heard_started h hpending _ result⟩
  | authTested hj userId =>
    have hpending := (hheld.pending hj (by simp)).1
    exact ⟨held_authTested hheld hj hC, heard_authTested h hpending userId⟩
  | cleaned hj =>
    have hpending := (hheld.pending hj (by simp)).1
    exact ⟨held_cleaned hheld hj, h.of_pending hpending hpending rfl id⟩
  | finished hj =>
    obtain ⟨hpending, hreturned⟩ := hheld.pending hj (by simp)
    exact ⟨held_finished hheld hj, heard_finished h hpending hreturned⟩
  | resumed hi hj =>
    refine ⟨hcalls _, ?_⟩
    unfold teardown
    split
    · exact heard_setCall h hi rfl rfl trivial
    · rename_i k hk
      have hlatest := hC.resolve_left (by simp [hk])
      exact heard_setCall h hi rfl rfl (.inr ⟨h.free_of_waiting hheld hi hlatest hj, .inr hk⟩)
  | stopped hi result =>
    obtain ⟨hfree, hk⟩ := h.free_of_stopping hi hC.1
    exact ⟨held_stopped hheld _ hfree hk hC.2, heard_stopped h hi hfree hC.1 hC.2⟩
  | message hk body =>
    refine sound_of_eq hheld h ?_
    unfold handleMessage
    split
    · rfl
    · split <;> rfl
  | onInbound handler => exact sound_of_eq hheld h rfl
  | offInbound handler =>
    refine sound_of_eq hheld h ?_
    split <;> rfl

theorem held_init : Held {} where
  bounded _ hk := nomatch hk
  alone _ _ hk := nomatch hk
  running hup := nomatch hup
  settled _ _ hj := nomatch hj
  idle _ _ := rfl
  attempt _ hj := nomatch hj

theorem heard_init : Heard {} where
  asked _ hj := nomatch hj
  stands _ _ hi := nomatch hi

theorem Held.oneApp (hheld : s.Held) (h : s.Heard) : s.OneApp where
  held hsettled k := by
    have hfree : s.connectingPromise = none := by
      cases hj : s.connectingPromise with
      | none => rfl
      | some j =>
        obtain ⟨i, hi⟩ := h.asked j hj
        cases hsettled _ (List.mem_of_getElem? hi)
    constructor
    · intro hk
      cases hup : s.connected with
      | true =>
        obtain ⟨i, hi, hrunning⟩ := hheld.running hup
        obtain rfl : k = i := Option.some.inj (hk.symm.trans hi)
        exact ⟨_, hrunning, rfl, rfl⟩
      | false =>
        have hnone := hheld.idle hfree hup
        exact absurd (hnone.symm.trans hk) (by simp)
    · rintro ⟨app, hk, hstarted, hrunning⟩
      exact hheld.alone k app hk hstarted hrunning
  referenced := hheld.alone
  connected i hi hlast := by
    obtain hup | ⟨j, call, hlt, hj, hcall⟩ := h.stands i _ hi rfl
    · obtain ⟨k, hk, _⟩ := hheld.running hup
      exact ⟨hup, by rw [hk]; rfl⟩
    · exact absurd ((hlast j call hlt hj).symm.trans hcall) (by simp)

/-- As long as every `disconnect` heeds the `connect`s that came after it, the adapter holds the
App that runs. -/
theorem oneApp_of_heeds (requireMention : Option Bool) (as : List Action) (s : SlackAdapter)
    (hrun : run (step requireMention) {} as = some s)
    (hheeds : Meets (step requireMention) Heeds {} as) : s.OneApp := by
  have hsound : s.Held ∧ s.Heard :=
    invariant_of_meets (I := fun s => s.Held ∧ s.Heard)
      (fun _ _ _ h hC hstep => sound_step h.1 h.2 hC hstep) ⟨held_init, heard_init⟩ hheeds hrun
  exact hsound.1.oneApp hsound.2

/-- Two `disconnect`s wait for one attempt, and the adapter connects again. -/
def reconnected : List Action :=
  [.connect (.ok ()), .disconnect, .disconnect, .started 0 (.ok ()),
    .authTested 0 (.ok (.string (js "B"))), .finished 0, .resumed 1, .stopped 1 (.error .undefined),
    .resumed 2, .connect (.ok ()), .started 1 (.ok ()), .authTested 1 (.ok (.string (js "B"))),
    .finished 1]

theorem oneApp_of_heeds_reconnected : ∃ s, run (step none) {} reconnected = some s ∧
    s.OneApp := by
  have hsome : (run (step none) {} reconnected).isSome = true := by decide +kernel
  obtain ⟨s, hrun⟩ := Option.isSome_iff_exists.1 hsome
  exact ⟨s, hrun, oneApp_of_heeds none reconnected s hrun (by decide +kernel)⟩

/-- A `connect` that is made while an App is being stopped answers true, and is left without. -/
theorem disconnect_takes_promised_app : ¬ ∀ (requireMention : Option Bool) (as : List Action)
    (s : SlackAdapter), run (step requireMention) {} as = some s → s.OneApp := by
  intro h
  have hany : (run (step none) {} [.connect (.ok ()), .started 0 (.ok ()),
      .authTested 0 (.ok (.string (js "B"))), .finished 0, .disconnect, .connect (.ok ()),
      .stopped 1 (.ok ())]).any (fun s => s.calls.length == 3 && !s.connected &&
        s.calls[2]?.any Call.wantsApp && s.calls.all (!·.isPending)) = true := by
    decide +kernel
  obtain ⟨s, hrun, hs⟩ := (Option.any_eq_true _ _).1 hany
  simp only [Bool.and_eq_true, beq_iff_eq, Bool.not_eq_true'] at hs
  obtain ⟨⟨⟨hlength, hdown⟩, hwants⟩, hsettled⟩ := hs
  obtain ⟨call, hcall, hwants⟩ := (Option.any_eq_true _ _).1 hwants
  have hpromised : s.calls[2]? = some (.connected (.ok true)) := by
    rw [hcall]
    rcases call with j | (err | (_ | _)) | j | k | result
    · have hpending := List.all_eq_true.1 hsettled _ (List.mem_of_getElem? hcall)
      cases hpending
    · cases hwants
    · cases hwants
    · rfl
    all_goals cases hwants
  have hlast (j : Nat) (call : Call) (hj : 2 < j) (hcall : s.calls[j]? = some call) :
      call.isDisconnect = false := by
    have hlt := (List.getElem?_eq_some_iff.1 hcall).1
    omega
  have hup := ((h none _ s hrun).connected 2 hpromised hlast).1
  exact absurd (hdown.symm.trans hup) (by simp)

end SlackAdapter
end TheokitGateways.Slack
