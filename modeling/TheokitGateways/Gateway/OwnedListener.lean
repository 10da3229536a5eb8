import TheokitGateways.Gateway.ListenerOwner
import TheokitGateways.Records

/-!
# The listener that is owned

An attempt of the current generation that may still open a session has the slot,
so the session it opens finds the adapter without a listener. One of an older
generation never opens a session, and stops the listener it has started.
-/

namespace TheokitGateways.Gateway
open Js Records Transition

/-- The listener of an attempt, where the attempt stands. -/
def Session.Fits (session : Session) : Prop :=
  match session.phase with
  | .checking => session.listener = .absent
  | .starting => session.listener = .starting
  | .stopping => session.listener = .closing
  | .returned answer | .settled answer =>
    answer = .ok true ∧
      (session.listener = .listening ∨ session.listener = .closing ∨ session.listener = .closed) ∨
    answer ≠ .ok true ∧ session.listener.isStopped = true

namespace ListenerOwner

/-- No call is pending. -/
def Idle (o : ListenerOwner) : Prop := ∀ call ∈ o.calls, call.isPending = false

/-- No `disconnect` was made between two calls. -/
def Uninterrupted (o : ListenerOwner) (i j : Nat) : Prop :=
  ∀ (n : Nat) (call : SessionCall), i < n → n < j → o.calls[n]? = some call →
    call.isDisconnect = false

/-- An attempt has still to answer, or has answered in a way. -/
def Answers (o : ListenerOwner) (j : Nat) (A : Except JsAny Bool → Prop) : Prop :=
  ∃ session, o.sessions[j]? = some session ∧ ∀ answer, session.answer = some answer → A answer

/-- What every step keeps of the attempts. -/
structure Kept (o : ListenerOwner) : Prop where
  fits : ∀ (j : Nat) (session : Session), o.sessions[j]? = some session → session.Fits
  listening : ∀ (j : Nat) (session : Session), o.sessions[j]? = some session →
    session.listener = .listening → o.server = some j
  served : ∀ k, o.server = some k →
    ∃ session, o.sessions[k]? = some session ∧ session.listener = .listening
  connected : o.connected = true ↔ o.server.isSome = true
  bounded : ∀ (j : Nat) (session : Session), o.sessions[j]? = some session →
    session.generation ≤ o.generation
  /-- An attempt of this generation that may still open a session has the slot. -/
  current : ∀ (j : Nat) (session : Session), o.sessions[j]? = some session →
    session.answer = none → session.generation = o.generation →
    session.phase = .stopping ∨ o.connecting = some j ∧ o.connected = false
  slot : ∀ j, o.connecting = some j →
    ∃ session, o.sessions[j]? = some session ∧ session.isSettled = false

/-- What every step keeps of the calls. -/
structure Heard (o : ListenerOwner) : Prop where
  asked : ∀ (j : Nat) (session : Session), o.sessions[j]? = some session →
    session.isSettled = false → ∃ i : Nat, o.calls[i]? = some (.connecting j)
  waits : ∀ i j : Nat, o.calls[i]? = some (.connecting j) → o.connecting = some j ∨
    ∃ (n : Nat) (call : SessionCall), i < n ∧ o.calls[n]? = some call ∧ call.isDisconnect = true
  closing : ∀ (k : Nat) (session : Session), o.sessions[k]? = some session →
    session.listener = .closing → session.phase = .stopping ∨
      ∃ i : Nat, o.calls[i]? = some (.stopping k)
  stops : ∀ i k : Nat, o.calls[i]? = some (.stopping k) → ∃ session, o.sessions[k]? = some session ∧
    session.answer = some (.ok true) ∧ session.listener ≠ .listening
  shared : ∀ i j a b : Nat, i < j → o.Uninterrupted i j → o.calls[i]? = some (.connecting a) →
    o.calls[j]? = some (.connecting b) → a = b
  gone : o.calls.getLast?.any SessionCall.isDisconnect = true →
    o.connecting = none ∧ o.server = none

variable {o o' : ListenerOwner} {action : OwnerAction}

/-! ## The attempts -/

theorem fits_answered {session : Session} (h : session.Fits) {answer : Except JsAny Bool}
    (hanswer : session.answer = some answer) : answer = .ok true ∧
      (session.listener = .listening ∨ session.listener = .closing ∨ session.listener = .closed) ∨
    answer ≠ .ok true ∧ session.listener.isStopped = true := by
  obtain ⟨generation, phase, listener⟩ := session
  cases phase with
  | checking | starting | stopping => cases hanswer
  | returned other | settled other =>
    obtain rfl : other = answer := Option.some.inj hanswer
    exact h

theorem not_listening_of_pending {session : Session} (h : session.Fits)
    (hpending : session.answer = none) : session.listener ≠ .listening := by
  obtain ⟨generation, phase, listener⟩ := session
  cases phase with
  | checking | starting | stopping =>
    have hlistener : listener = _ := h
    simp [hlistener]
  | returned answer | settled answer => cases hpending

theorem isSettled_of_pending {session : Session} (hpending : session.answer = none) :
    session.isSettled = false := by
  obtain ⟨generation, phase, listener⟩ := session
  cases phase with
  | settled answer => cases hpending
  | _ => rfl

/-- An attempt that has opened no session goes on, or ends without one. -/
structure Advances (o : ListenerOwner) (j : Nat) (session session' : Session) : Prop where
  stands : o.sessions[j]? = some session
  pending : session.answer = none
  generation : session'.generation = session.generation
  fits : session'.Fits
  unsettled : session'.isSettled = false
  later : session'.answer = none → session'.phase = .stopping ∨ session.phase ≠ .stopping
  silent : session'.listener ≠ .listening
  closing : session'.listener = .closing → session'.phase = .stopping

theorem Kept.advance (h : o.Kept) {j : Nat} {session session' : Session}
    (ha : o.Advances j session session') : (o.setSession j session').Kept := by
  have hsilent := not_listening_of_pending (h.fits j session ha.stands) ha.pending
  refine ⟨fun i other hi => ?_, fun i other hi hlistening => ?_, fun k hk => ?_, h.connected,
    fun i other hi => ?_, fun i other hi hopen hcurrent => ?_, fun i hi => ?_⟩
  · obtain ⟨rfl, rfl⟩ | ⟨_, hi⟩ := getElem?_set_eq_some hi
    · exact ha.fits
    · exact h.fits i other hi
  · obtain ⟨rfl, rfl⟩ | ⟨_, hi⟩ := getElem?_set_eq_some hi
    · exact absurd hlistening ha.silent
    · exact h.listening i other hi hlistening
  · obtain ⟨other, hother, hlistening⟩ := h.served k hk
    have hne : j ≠ k := by
      rintro rfl
      obtain rfl := Option.some.inj (ha.stands.symm.trans hother)
      exact hsilent hlistening
    exact ⟨other, (List.getElem?_set_ne hne).trans hother, hlistening⟩
  · obtain ⟨rfl, rfl⟩ | ⟨_, hi⟩ := getElem?_set_eq_some hi
    · rw [ha.generation]
      exact h.bounded i session ha.stands
    · exact h.bounded i other hi
  · obtain ⟨rfl, rfl⟩ | ⟨_, hi⟩ := getElem?_set_eq_some hi
    · obtain hstopping | hstopping := ha.later hopen
      · exact .inl hstopping
      · have hcurrent : session.generation = o.generation := ha.generation.symm.trans hcurrent
        obtain hstops | hslot := h.current i session ha.stands ha.pending hcurrent
        · exact absurd hstops hstopping
        · exact .inr hslot
    · exact h.current i other hi hopen hcurrent
  · obtain ⟨other, hother, hunsettled⟩ := h.slot i hi
    by_cases hne : j = i
    · subst i
      have hlt := (List.getElem?_eq_some_iff.1 ha.stands).1
      exact ⟨session', List.getElem?_set_self hlt, ha.unsettled⟩
    · exact ⟨other, (List.getElem?_set_ne hne).trans hother, hunsettled⟩

theorem Heard.advance (h : o.Heard) {j : Nat} {session session' : Session}
    (ha : o.Advances j session session') : (o.setSession j session').Heard := by
  refine ⟨fun i other hi hopen => ?_, h.waits, fun k other hk hclosing => ?_, fun i k hi => ?_,
    h.shared, h.gone⟩
  · obtain ⟨rfl, rfl⟩ | ⟨_, hi⟩ := getElem?_set_eq_some hi
    · exact h.asked i session ha.stands (isSettled_of_pending ha.pending)
    · exact h.asked i other hi hopen
  · obtain ⟨rfl, rfl⟩ | ⟨_, hk⟩ := getElem?_set_eq_some hk
    · exact .inl (ha.closing hclosing)
    · exact h.closing k other hk hclosing
  · obtain ⟨other, hother, hanswer, hsilent⟩ := h.stops i k hi
    have hne : j ≠ k := by
      rintro rfl
      obtain rfl := Option.some.inj (ha.stands.symm.trans hother)
      exact absurd (ha.pending.symm.trans hanswer) (by simp)
    exact ⟨other, (List.getElem?_set_ne hne).trans hother, hanswer, hsilent⟩

/-- An attempt of this generation opens the session. -/
theorem kept_opened (h : o.Kept) {j : Nat} {session : Session}
    (hj : o.sessions[j]? = some session) (hphase : session.phase = .starting)
    (hcurrent : session.generation = o.generation) : Kept
      { o.setSession j { session with phase := .returned (.ok true), listener := .listening } with
        server := some j
        connected := true } := by
  have hpending : session.answer = none := by rw [Session.answer, hphase]
  obtain ⟨hslot, hdown⟩ :=
    (h.current j session hj hpending hcurrent).resolve_left (by simp [hphase])
  have hfree : o.server = none := by
    rw [← Option.not_isSome_iff_eq_none, ← h.connected, hdown]
    exact Bool.false_ne_true
  have hlt := (List.getElem?_eq_some_iff.1 hj).1
  refine ⟨fun i other hi => ?_, fun i other hi hlistening => ?_, fun k hk => ?_, by simp,
    fun i other hi => ?_, fun i other hi hopen hcurrent => ?_, fun i hi => ?_⟩
  · obtain ⟨rfl, rfl⟩ | ⟨_, hi⟩ := getElem?_set_eq_some hi
    · exact .inl ⟨rfl, .inl rfl⟩
    · exact h.fits i other hi
  · obtain ⟨rfl, _⟩ | ⟨_, hi⟩ := getElem?_set_eq_some hi
    · rfl
    · have hserver := h.listening i other hi hlistening
      exact absurd (hfree.symm.trans hserver) (by simp)
  · obtain rfl : j = k := Option.some.inj hk
    exact ⟨_, List.getElem?_set_self hlt, rfl⟩
  · obtain ⟨rfl, rfl⟩ | ⟨_, hi⟩ := getElem?_set_eq_some hi
    · exact h.bounded i session hj
    · exact h.bounded i other hi
  · obtain ⟨rfl, rfl⟩ | ⟨hne, hi⟩ := getElem?_set_eq_some hi
    · cases hopen
    · obtain hstops | ⟨hslot', _⟩ := h.current i other hi hopen hcurrent
      · exact .inl hstops
      · exact absurd (Option.some.inj (hslot.symm.trans hslot')).symm hne
  · obtain rfl : j = i := Option.some.inj (hslot.symm.trans hi)
    exact ⟨_, List.getElem?_set_self hlt, rfl⟩

theorem heard_opened (h : o.Heard) (hslot : o.connecting ≠ none) {j : Nat} {session : Session}
    (hj : o.sessions[j]? = some session) (hphase : session.phase = .starting) : Heard
      { o.setSession j { session with phase := .returned (.ok true), listener := .listening } with
        server := some j
        connected := true } := by
  have hpending : session.answer = none := by rw [Session.answer, hphase]
  refine ⟨fun i other hi hopen => ?_, h.waits, fun k other hk hclosing => ?_, fun i k hi => ?_,
    h.shared, fun hlast => absurd (h.gone hlast).1 hslot⟩
  · obtain ⟨rfl, rfl⟩ | ⟨_, hi⟩ := getElem?_set_eq_some hi
    · exact h.asked i session hj (isSettled_of_pending hpending)
    · exact h.asked i other hi hopen
  · obtain ⟨rfl, rfl⟩ | ⟨_, hk⟩ := getElem?_set_eq_some hk
    · cases hclosing
    · exact h.closing k other hk hclosing
  · obtain ⟨other, hother, hanswer, hsilent⟩ := h.stops i k hi
    have hne : j ≠ k := by
      rintro rfl
      obtain rfl := Option.some.inj (hj.symm.trans hother)
      exact absurd (hpending.symm.trans hanswer) (by simp)
    exact ⟨other, (List.getElem?_set_ne hne).trans hother, hanswer, hsilent⟩

/-! ## Ends of attempts -/

theorem isDisconnect_answered (j : Nat) (answer : Except JsAny Bool) (call : SessionCall) :
    (call.answered j answer).isDisconnect = call.isDisconnect := by
  cases call with
  | connecting i =>
    rw [SessionCall.answered]
    split <;> rfl
  | _ => rfl

/-- A call that still waits once an attempt has ended waited for another one. -/
theorem answered_eq_connecting {j i : Nat} {answer : Except JsAny Bool} {call : SessionCall}
    (h : call.answered j answer = .connecting i) : call = .connecting i ∧ i ≠ j := by
  cases call with
  | connecting k =>
    rw [SessionCall.answered] at h
    split at h
    · cases h
    · cases h
      exact ⟨rfl, ‹_›⟩
  | _ => cases h

theorem answered_eq_stopping {j k : Nat} {answer : Except JsAny Bool} {call : SessionCall}
    (h : call.answered j answer = .stopping k) : call = .stopping k := by
  cases call with
  | connecting i =>
    rw [SessionCall.answered] at h
    split at h <;> cases h
  | _ => exact h

theorem kept_finished (h : o.Kept) {j : Nat} {session : Session} {answer : Except JsAny Bool}
    (hj : o.sessions[j]? = some session) (hphase : session.phase = .returned answer) :
    (o.finished j session answer).Kept := by
  have hanswer : session.answer = some answer := by rw [Session.answer, hphase]
  have hlt := (List.getElem?_eq_some_iff.1 hj).1
  refine ⟨fun i other hi => ?_, fun i other hi hlistening => ?_, fun k hk => ?_, h.connected,
    fun i other hi => ?_, fun i other hi hopen hcurrent => ?_, fun i hi => ?_⟩
  · obtain ⟨rfl, rfl⟩ | ⟨_, hi⟩ := getElem?_set_eq_some hi
    · exact fits_answered (h.fits i session hj) hanswer
    · exact h.fits i other hi
  · obtain ⟨rfl, rfl⟩ | ⟨_, hi⟩ := getElem?_set_eq_some hi
    · exact h.listening i session hj hlistening
    · exact h.listening i other hi hlistening
  · obtain ⟨other, hother, hlistening⟩ := h.served k hk
    by_cases hne : j = k
    · subst k
      obtain rfl := Option.some.inj (hj.symm.trans hother)
      exact ⟨_, List.getElem?_set_self hlt, hlistening⟩
    · exact ⟨other, (List.getElem?_set_ne hne).trans hother, hlistening⟩
  · obtain ⟨rfl, rfl⟩ | ⟨_, hi⟩ := getElem?_set_eq_some hi
    · exact h.bounded i session hj
    · exact h.bounded i other hi
  · obtain ⟨rfl, rfl⟩ | ⟨hne, hi⟩ := getElem?_set_eq_some hi
    · cases hopen
    · refine (h.current i other hi hopen hcurrent).imp id fun ⟨hslot, hdown⟩ => ⟨?_, hdown⟩
      show (if o.connecting = some j then none else o.connecting) = some i
      rw [hslot, if_neg fun heq => hne (Option.some.inj heq)]
  · have hi : (if o.connecting = some j then none else o.connecting) = some i := hi
    split at hi
    · cases hi
    · rename_i hother
      obtain ⟨other, hsession, hunsettled⟩ := h.slot i hi
      have hne : j ≠ i := by
        rintro rfl
        exact hother hi
      exact ⟨other, (List.getElem?_set_ne hne).trans hsession, hunsettled⟩

theorem heard_finished (h : o.Heard) {j : Nat} {session : Session} {answer : Except JsAny Bool}
    (hj : o.sessions[j]? = some session) (hphase : session.phase = .returned answer) :
    (o.finished j session answer).Heard := by
  have hanswer : session.answer = some answer := by rw [Session.answer, hphase]
  have hlt := (List.getElem?_eq_some_iff.1 hj).1
  have hcall {i : Nat} {call : SessionCall} (hi : o.calls[i]? = some call) :
      (o.calls.map (·.answered j answer))[i]? = some (call.answered j answer) :=
    getElem?_map_eq_some.2 ⟨call, hi, rfl⟩
  have hwaits {i a : Nat} (hi : (o.calls.map (·.answered j answer))[i]? = some (.connecting a)) :
      o.calls[i]? = some (.connecting a) ∧ a ≠ j := by
    obtain ⟨call, hcall, heq⟩ := getElem?_map_eq_some.1 hi
    obtain ⟨rfl, hne⟩ := answered_eq_connecting heq
    exact ⟨hcall, hne⟩
  refine ⟨fun i other hi hopen => ?_, fun i a hi => ?_, fun k other hk hclosing => ?_,
    fun i k hi => ?_, fun i k a b hlt hbetween ha hb => ?_, fun hlast => ?_⟩
  · obtain ⟨_, rfl⟩ | ⟨hne, hi⟩ := getElem?_set_eq_some hi
    · cases hopen
    · obtain ⟨n, hn⟩ := h.asked i other hi hopen
      refine ⟨n, (hcall hn).trans ?_⟩
      rw [SessionCall.answered, if_neg hne]
  · obtain ⟨hi, hne⟩ := hwaits hi
    refine (h.waits i a hi).imp (fun hslot => ?_) fun ⟨n, call, hlt, hn, hdisconnect⟩ => ?_
    · show (if o.connecting = some j then none else o.connecting) = some a
      rw [hslot, if_neg fun heq => hne (Option.some.inj heq)]
    · exact ⟨n, _, hlt, hcall hn, (isDisconnect_answered j answer call).trans hdisconnect⟩
  · have hbefore (hk' : ∃ before, o.sessions[k]? = some before ∧ before.listener = .closing ∧
        (before.phase = .stopping → other.phase = .stopping)) :
        other.phase = .stopping ∨ ∃ i : Nat,
          (o.calls.map (·.answered j answer))[i]? = some (.stopping k) := by
      obtain ⟨before, hbefore, hclosing, hstopping⟩ := hk'
      refine (h.closing k before hbefore hclosing).imp hstopping fun ⟨i, hi⟩ => ⟨i, hcall hi⟩
    obtain ⟨rfl, rfl⟩ | ⟨_, hk⟩ := getElem?_set_eq_some hk
    · refine hbefore ⟨session, hj, hclosing, fun hstopping => ?_⟩
      exact absurd (hphase.symm.trans hstopping) (by simp)
    · exact hbefore ⟨other, hk, hclosing, id⟩
  · obtain ⟨call, hi, heq⟩ := getElem?_map_eq_some.1 hi
    obtain rfl := answered_eq_stopping heq
    obtain ⟨other, hother, hanswered, hsilent⟩ := h.stops i k hi
    by_cases hne : j = k
    · subst k
      obtain rfl := Option.some.inj (hj.symm.trans hother)
      exact ⟨_, List.getElem?_set_self hlt, hanswer.symm.trans hanswered, hsilent⟩
    · exact ⟨other, (List.getElem?_set_ne hne).trans hother, hanswered, hsilent⟩
  · refine h.shared i k a b hlt (fun n call hin hnk hn => ?_) (hwaits ha).1 (hwaits hb).1
    rw [← isDisconnect_answered j answer]
    exact hbetween n _ hin hnk (hcall hn)
  · have hlast : o.calls.getLast?.any SessionCall.isDisconnect = true := by
      rw [finished, List.getLast?_map, Option.any_map] at hlast
      simpa [Function.comp_def, isDisconnect_answered] using hlast
    obtain ⟨hfree, hserver⟩ := h.gone hlast
    refine ⟨?_, hserver⟩
    show (if o.connecting = some j then none else o.connecting) = none
    simp [hfree]

/-! ## Calls of `connect` -/

/-- A `connect` is answered at once, or shares the attempt that has the slot. -/
theorem heard_addCall (h : o.Heard) {new : SessionCall} (hconnect : new.isDisconnect = false)
    (hslot : ∀ j, new = .connecting j → o.connecting = some j) :
    Heard { o with calls := o.calls ++ [new] } := by
  have hcall {i : Nat} {call : SessionCall} (hi : o.calls[i]? = some call) :
      (o.calls ++ [new])[i]? = some call := getElem?_append_singleton.2 (.inl hi)
  have hbetween {i j : Nat} (h : ∀ (n : Nat) (call : SessionCall), i < n → n < j →
      (o.calls ++ [new])[n]? = some call → call.isDisconnect = false) : o.Uninterrupted i j :=
    fun n call hin hnj hn => h n call hin hnj (hcall hn)
  refine ⟨fun j session hj hopen => ?_, fun i j hi => ?_, fun k session hk hclosing => ?_,
    fun i k hi => ?_, fun i j a b hlt hcalls ha hb => ?_, fun hlast => ?_⟩
  · obtain ⟨i, hi⟩ := h.asked j session hj hopen
    exact ⟨i, hcall hi⟩
  · obtain hi | ⟨rfl, heq⟩ := getElem?_append_singleton.1 hi
    · refine (h.waits i j hi).imp id ?_
      exact fun ⟨n, call, hlt, hn, hcalls⟩ => ⟨n, call, hlt, hcall hn, hcalls⟩
    · exact .inl (hslot j heq.symm)
  · exact (h.closing k session hk hclosing).imp id fun ⟨i, hi⟩ => ⟨i, hcall hi⟩
  · obtain hi | ⟨_, rfl⟩ := getElem?_append_singleton.1 hi
    · exact h.stops i k hi
    · cases hconnect
  · obtain hb | ⟨rfl, heq⟩ := getElem?_append_singleton.1 hb
    · have hj := (List.getElem?_eq_some_iff.1 hb).1
      obtain ha | ⟨rfl, _⟩ := getElem?_append_singleton.1 ha
      · exact h.shared i j a b hlt (hbetween hcalls) ha hb
      · omega
    · obtain ha | ⟨rfl, _⟩ := getElem?_append_singleton.1 ha
      · obtain hslot' | ⟨n, call, hin, hn, hdisconnect⟩ := h.waits i a ha
        · exact Option.some.inj (hslot'.symm.trans (hslot b heq.symm))
        · have hlt := (List.getElem?_eq_some_iff.1 hn).1
          exact absurd ((hcalls n call hin hlt (hcall hn)).symm.trans hdisconnect) (by simp)
      · omega
  · rw [List.getLast?_concat, Option.any_some, hconnect] at hlast
    cases hlast

/-- An attempt takes the slot that is free. -/
theorem heard_slot (h : o.Heard) (hfree : o.connecting = none) {session : Session}
    (hlistener : session.listener = .absent) : Heard { o with
      connecting := some o.sessions.length
      sessions := o.sessions ++ [session]
      calls := o.calls ++ [.connecting o.sessions.length] } := by
  have hcall {i : Nat} {call : SessionCall} (hi : o.calls[i]? = some call) :
      (o.calls ++ [.connecting o.sessions.length])[i]? = some call :=
    getElem?_append_singleton.2 (.inl hi)
  have hinterrupted {i a : Nat} (hi : o.calls[i]? = some (.connecting a)) :
      ∃ (n : Nat) (call : SessionCall), i < n ∧ o.calls[n]? = some call ∧
        call.isDisconnect = true :=
    (h.waits i a hi).resolve_left (by simp [hfree])
  refine ⟨fun j other hj hopen => ?_, fun i j hi => ?_, fun k other hk hclosing => ?_,
    fun i k hi => ?_, fun i j a b hlt hcalls ha hb => ?_, fun hlast => ?_⟩
  · obtain hj | ⟨rfl, _⟩ := getElem?_append_singleton.1 hj
    · obtain ⟨i, hi⟩ := h.asked j other hj hopen
      exact ⟨i, hcall hi⟩
    · exact ⟨o.calls.length, List.getElem?_concat_length⟩
  · obtain hi | ⟨_, heq⟩ := getElem?_append_singleton.1 hi
    · obtain ⟨n, call, hlt, hn, hdisconnect⟩ := hinterrupted hi
      exact .inr ⟨n, call, hlt, hcall hn, hdisconnect⟩
    · cases heq
      exact .inl rfl
  · obtain hk | ⟨_, rfl⟩ := getElem?_append_singleton.1 hk
    · exact (h.closing k other hk hclosing).imp id fun ⟨i, hi⟩ => ⟨i, hcall hi⟩
    · exact absurd (hlistener.symm.trans hclosing) (by simp)
  · obtain hi | ⟨_, heq⟩ := getElem?_append_singleton.1 hi
    · obtain ⟨other, hother, hrest⟩ := h.stops i k hi
      exact ⟨other, getElem?_append_singleton.2 (.inl hother), hrest⟩
    · cases heq
  · obtain hb | ⟨rfl, _⟩ := getElem?_append_singleton.1 hb
    · have hj := (List.getElem?_eq_some_iff.1 hb).1
      obtain ha | ⟨rfl, _⟩ := getElem?_append_singleton.1 ha
      · exact h.shared i j a b hlt (fun n call hin hnj hn => hcalls n call hin hnj (hcall hn)) ha hb
      · omega
    · obtain ha | ⟨rfl, _⟩ := getElem?_append_singleton.1 ha
      · obtain ⟨n, call, hin, hn, hdisconnect⟩ := hinterrupted ha
        have hlt := (List.getElem?_eq_some_iff.1 hn).1
        exact absurd ((hcalls n call hin hlt (hcall hn)).symm.trans hdisconnect) (by simp)
      · omega
  · rw [List.getLast?_concat] at hlast
    cases hlast

theorem kept_slot (h : o.Kept) (hdown : o.connected = false) (hfree : o.connecting = none)
    {session : Session} (hfits : session.Fits) (hlistener : session.listener = .absent)
    (hgeneration : session.generation = o.generation) (hopen : session.isSettled = false)
    (calls : List SessionCall) : Kept { o with
      connecting := some o.sessions.length
      sessions := o.sessions ++ [session]
      calls := calls } := by
  refine ⟨fun i other hi => ?_, fun i other hi hlistening => ?_, fun k hk => ?_, h.connected,
    fun i other hi => ?_, fun i other hi hpending hcurrent => ?_, fun i hi => ?_⟩
  · obtain hi | ⟨_, rfl⟩ := getElem?_append_singleton.1 hi
    · exact h.fits i other hi
    · exact hfits
  · obtain hi | ⟨_, rfl⟩ := getElem?_append_singleton.1 hi
    · exact h.listening i other hi hlistening
    · exact absurd (hlistener.symm.trans hlistening) (by simp)
  · obtain ⟨other, hother, hlistening⟩ := h.served k hk
    exact ⟨other, getElem?_append_singleton.2 (.inl hother), hlistening⟩
  · obtain hi | ⟨_, rfl⟩ := getElem?_append_singleton.1 hi
    · exact h.bounded i other hi
    · exact Nat.le_of_eq hgeneration
  · obtain hi | ⟨rfl, rfl⟩ := getElem?_append_singleton.1 hi
    · obtain hstops | ⟨hslot, _⟩ := h.current i other hi hpending hcurrent
      · exact .inl hstops
      · exact absurd (hfree.symm.trans hslot) (by simp)
    · exact .inr ⟨rfl, hdown⟩
  · obtain rfl : o.sessions.length = i := Option.some.inj hi
    exact ⟨session, List.getElem?_concat_length, hopen⟩

theorem fits_openSession (prepared : Except JsAny Unit) : (o.openSession prepared).Fits ∧
    (o.openSession prepared).listener = .absent ∧
    (o.openSession prepared).generation = o.generation ∧
    (o.openSession prepared).isSettled = false := by
  cases prepared with
  | ok => exact ⟨rfl, rfl, rfl, rfl⟩
  | error err => exact ⟨.inr ⟨answerFailed_ne err, rfl⟩, rfl, rfl, rfl⟩

theorem sound_connect (hkept : o.Kept) (h : o.Heard) (prepared : Except JsAny Unit) :
    (o.connect prepared).Kept ∧ (o.connect prepared).Heard := by
  have hcalls (calls : List SessionCall) : Kept { o with calls := calls } :=
    ⟨hkept.fits, hkept.listening, hkept.served, hkept.connected, hkept.bounded, hkept.current,
      hkept.slot⟩
  unfold connect
  split
  · exact ⟨hcalls _, heard_addCall h rfl (by simp)⟩
  · rename_i hdown
    split
    · rename_i j hj
      refine ⟨hcalls _, heard_addCall h rfl fun i hi => ?_⟩
      cases hi
      exact hj
    · rename_i hfree
      obtain ⟨hfits, hlistener, hgeneration, hopen⟩ := fits_openSession (o := o) prepared
      exact ⟨kept_slot hkept (Bool.eq_false_iff.2 hdown) hfree hfits hlistener hgeneration hopen _,
        heard_slot h hfree hlistener⟩

/-! ## Calls of `disconnect` -/

/-- A listener that is stopped is that of an attempt that has opened its session. -/
theorem fits_stopped {session : Session} (h : session.Fits)
    (hanswer : session.answer = some (.ok true)) {listener : Listener}
    (hlistener : listener = .closing ∨ listener = .closed) :
    Session.Fits { session with listener := listener } := by
  obtain ⟨generation, phase, before⟩ := session
  cases phase with
  | checking | starting | stopping => cases hanswer
  | returned answer | settled answer =>
    obtain rfl : answer = .ok true := Option.some.inj hanswer
    exact .inl ⟨rfl, .inr hlistener⟩

theorem answer_of_listening {session : Session} (h : session.Fits)
    (hlistening : session.listener = .listening) : session.answer = some (.ok true) := by
  cases hanswer : session.answer with
  | none => exact absurd hlistening (not_listening_of_pending h hanswer)
  | some answer =>
    obtain ⟨rfl, _⟩ | ⟨_, hstopped⟩ := fits_answered h hanswer
    · rfl
    · rw [hlistening] at hstopped
      cases hstopped

theorem kept_disconnect (h : o.Kept) : o.disconnect.Kept := by
  unfold disconnect
  dsimp only
  split
  · rename_i hserver
    have hserver : o.server = none := hserver
    refine ⟨h.fits, h.listening, h.served, by simp [hserver], fun i session hi => ?_,
      fun i session hi _ hcurrent => ?_, fun i hi => (by cases hi)⟩
    · exact Nat.le_succ_of_le (h.bounded i session hi)
    · have hle := h.bounded i session hi
      simp only at hcurrent
      omega
  · rename_i k hserver
    have hserver : o.server = some k := hserver
    obtain ⟨served, hk, hlistening⟩ := h.served k hserver
    refine ⟨fun i session hi => ?_, fun i session hi hi' => ?_, fun i hi => (by cases hi),
      by simp [setListener], fun i session hi => ?_, fun i session hi _ hcurrent => ?_,
      fun i hi => (by cases hi)⟩
    · obtain ⟨before, hbefore, rfl⟩ := getElem?_modify_eq_some.1 hi
      split
      · subst i
        obtain rfl := Option.some.inj (hk.symm.trans hbefore)
        have hfits := h.fits k served hk
        exact fits_stopped hfits (answer_of_listening hfits hlistening) (.inl rfl)
      · exact h.fits i before hbefore
    · obtain ⟨before, hbefore, rfl⟩ := getElem?_modify_eq_some.1 hi
      split at hi'
      · cases hi'
      · have hi := h.listening i before hbefore hi'
        exact absurd (Option.some.inj (hserver.symm.trans hi)) ‹_›
    · obtain ⟨before, hbefore, rfl⟩ := getElem?_modify_eq_some.1 hi
      have hle := h.bounded i before hbefore
      split <;> exact Nat.le_succ_of_le hle
    · obtain ⟨before, hbefore, rfl⟩ := getElem?_modify_eq_some.1 hi
      have hle := h.bounded i before hbefore
      have hcurrent : before.generation = o.generation + 1 := by
        split at hcurrent <;> exact hcurrent
      omega

/-- A `disconnect` is made, and may stop a listener. -/
theorem heard_addDisconnect (h : o.Heard) (new : SessionCall)
    (hdisconnect : new.isDisconnect = true) (hcalls : o'.calls = o.calls ++ [new])
    (hfree : o'.connecting = none) (hserver : o'.server = none)
    (hsessions : ∀ (k : Nat) (session : Session), o'.sessions[k]? = some session →
      ∃ before, o.sessions[k]? = some before ∧ session.phase = before.phase ∧
        (session.listener = before.listener ∨
          session.listener = .closing ∧ new = .stopping k))
    (hbefore : ∀ (k : Nat) (session : Session), o.sessions[k]? = some session →
      session.answer = some (.ok true) → session.listener ≠ .listening ∨ new = .stopping k →
      ∃ after, o'.sessions[k]? = some after ∧ after.answer = some (.ok true) ∧
        after.listener ≠ .listening)
    (hnew : ∀ k, new = .stopping k → ∃ session, o.sessions[k]? = some session ∧
      session.answer = some (.ok true)) : o'.Heard := by
  have hcall {i : Nat} {call : SessionCall} (hi : o.calls[i]? = some call) :
      o'.calls[i]? = some call := by
    rw [hcalls]
    exact getElem?_append_singleton.2 (.inl hi)
  have hlast : o'.calls[o.calls.length]? = some new := by
    rw [hcalls]
    exact List.getElem?_concat_length
  have hold {i : Nat} {call : SessionCall} (hi : o'.calls[i]? = some call) :
      o.calls[i]? = some call ∨ i = o.calls.length ∧ call = new := by
    rw [hcalls] at hi
    exact getElem?_append_singleton.1 hi
  have hconnecting {i a : Nat} (hi : o'.calls[i]? = some (.connecting a)) :
      o.calls[i]? = some (.connecting a) := by
    obtain hi | ⟨_, rfl⟩ := hold hi
    · exact hi
    · cases hdisconnect
  refine ⟨fun j session hj hopen => ?_, fun i j hi => ?_, fun k session hk hclosing => ?_,
    fun i k hi => ?_, fun i j a b hlt hbetween ha hb => ?_, fun _ => ⟨hfree, hserver⟩⟩
  · obtain ⟨before, hj, hphase, _⟩ := hsessions j session hj
    have hopen : before.isSettled = false := by
      rw [Session.isSettled, ← hphase]
      exact hopen
    obtain ⟨i, hi⟩ := h.asked j before hj hopen
    exact ⟨i, hcall hi⟩
  · have hlt := (List.getElem?_eq_some_iff.1 (hconnecting hi)).1
    exact .inr ⟨o.calls.length, new, hlt, hlast, hdisconnect⟩
  · obtain ⟨before, hk, hphase, hlistener | ⟨_, rfl⟩⟩ := hsessions k session hk
    · rw [hphase]
      refine (h.closing k before hk (hlistener.symm.trans hclosing)).imp id ?_
      exact fun ⟨i, hi⟩ => ⟨i, hcall hi⟩
    · exact .inr ⟨o.calls.length, hlast⟩
  · obtain hi | ⟨_, heq⟩ := hold hi
    · obtain ⟨session, hk, hanswer, hsilent⟩ := h.stops i k hi
      exact hbefore k session hk hanswer (.inl hsilent)
    · obtain ⟨session, hk, hanswer⟩ := hnew k heq.symm
      exact hbefore k session hk hanswer (.inr heq.symm)
  · exact h.shared i j a b hlt (fun n call hin hnj hn => hbetween n call hin hnj (hcall hn))
      (hconnecting ha) (hconnecting hb)

theorem heard_disconnect (hkept : o.Kept) (h : o.Heard) : o.disconnect.Heard := by
  unfold disconnect
  dsimp only
  split
  · exact heard_addDisconnect h .disconnected rfl rfl rfl ‹_›
      (fun k session hk => ⟨session, hk, rfl, .inl rfl⟩)
      (fun k session hk hanswer hsilent => ⟨session, hk, hanswer, hsilent.resolve_right (by simp)⟩)
      (fun k hk => (by cases hk))
  · rename_i k hserver
    obtain ⟨served, hk, hlistening⟩ := hkept.served k hserver
    have hanswer := answer_of_listening (hkept.fits k served hk) hlistening
    refine heard_addDisconnect h (.stopping k) rfl rfl rfl rfl (fun i session hi => ?_)
      (fun i session hi hanswer hsilent => ?_) fun i hi => ?_
    · obtain ⟨before, hbefore, rfl⟩ := getElem?_modify_eq_some.1 hi
      refine ⟨before, hbefore, ?_⟩
      split
      · subst i
        exact ⟨rfl, .inr ⟨rfl, rfl⟩⟩
      · exact ⟨rfl, .inl rfl⟩
    · refine ⟨_, getElem?_modify_eq_some.2 ⟨session, hi, rfl⟩, ?_⟩
      split
      · exact ⟨hanswer, by simp⟩
      · rename_i hne
        refine ⟨hanswer, hsilent.resolve_right fun heq => hne ?_⟩
        exact SessionCall.stopping.inj heq
    · cases hi
      exact ⟨served, hk, hanswer⟩

/-- A listener that a `disconnect` was stopping has stopped. -/
theorem kept_closed (hkept : o.Kept) (h : o.Heard) {i k : Nat}
    (hi : o.calls[i]? = some (.stopping k)) :
    Kept { o.setListener k .closed with calls := o.calls.set i .disconnected } := by
  obtain ⟨stopped, hk, hanswer, hsilent⟩ := h.stops i k hi
  refine ⟨fun j session hj => ?_, fun j session hj hlistening => ?_, fun j hj => ?_,
    hkept.connected, fun j session hj => ?_, fun j session hj hpending hcurrent => ?_,
    fun j hj => ?_⟩
  · obtain ⟨before, hbefore, rfl⟩ := getElem?_modify_eq_some.1 hj
    split
    · subst j
      obtain rfl := Option.some.inj (hk.symm.trans hbefore)
      exact fits_stopped (hkept.fits k stopped hk) hanswer (.inr rfl)
    · exact hkept.fits j before hbefore
  · obtain ⟨before, hbefore, rfl⟩ := getElem?_modify_eq_some.1 hj
    split at hlistening
    · cases hlistening
    · exact hkept.listening j before hbefore hlistening
  · obtain ⟨before, hbefore, hlistening⟩ := hkept.served j hj
    refine ⟨_, getElem?_modify_eq_some.2 ⟨before, hbefore, rfl⟩, ?_⟩
    split
    · subst j
      obtain rfl := Option.some.inj (hk.symm.trans hbefore)
      exact absurd hlistening hsilent
    · exact hlistening
  · obtain ⟨before, hbefore, rfl⟩ := getElem?_modify_eq_some.1 hj
    split <;> exact hkept.bounded j before hbefore
  · obtain ⟨before, hbefore, rfl⟩ := getElem?_modify_eq_some.1 hj
    split at hpending
    · rw [if_pos ‹_›] at hcurrent ⊢
      exact hkept.current j before hbefore hpending hcurrent
    · rw [if_neg ‹_›] at hcurrent ⊢
      exact hkept.current j before hbefore hpending hcurrent
  · obtain ⟨before, hbefore, hopen⟩ := hkept.slot j hj
    refine ⟨_, getElem?_modify_eq_some.2 ⟨before, hbefore, rfl⟩, ?_⟩
    split <;> exact hopen

theorem heard_closed (h : o.Heard) {i k : Nat} (hi : o.calls[i]? = some (.stopping k)) :
    Heard { o.setListener k .closed with calls := o.calls.set i .disconnected } := by
  have hlt := (List.getElem?_eq_some_iff.1 hi).1
  have hcall {n : Nat} {call : SessionCall} (hn : o.calls[n]? = some call) :
      (o.calls.set i .disconnected)[n]? = some call ∨
        n = i ∧ (o.calls.set i .disconnected)[n]? = some .disconnected := by
    by_cases hne : i = n
    · subst n
      exact .inr ⟨rfl, List.getElem?_set_self hlt⟩
    · exact .inl ((List.getElem?_set_ne hne).trans hn)
  have hdisconnects {n : Nat} {call : SessionCall} (hn : o.calls[n]? = some call) :
      ∃ after, (o.calls.set i .disconnected)[n]? = some after ∧
        after.isDisconnect = call.isDisconnect := by
    obtain hn' | ⟨rfl, hn'⟩ := hcall hn
    · exact ⟨call, hn', rfl⟩
    · obtain rfl := Option.some.inj (hi.symm.trans hn)
      exact ⟨_, hn', rfl⟩
  have hconnecting {n a : Nat} (hn : (o.calls.set i .disconnected)[n]? = some (.connecting a)) :
      o.calls[n]? = some (.connecting a) := by
    obtain ⟨_, heq⟩ | ⟨_, hn⟩ := getElem?_set_eq_some hn
    · cases heq
    · exact hn
  refine ⟨fun j session hj hopen => ?_, fun n a hn => ?_, fun j session hj hclosing => ?_,
    fun n j hn => ?_, fun m n a b hlt hbetween ha hb => ?_, fun hlast => ?_⟩
  · obtain ⟨before, hbefore, rfl⟩ := getElem?_modify_eq_some.1 hj
    have hopen : before.isSettled = false := by
      split at hopen <;> exact hopen
    obtain ⟨n, hn⟩ := h.asked j before hbefore hopen
    obtain hn' | ⟨rfl, _⟩ := hcall hn
    · exact ⟨n, hn'⟩
    · exact absurd (hi.symm.trans hn) (by simp)
  · refine (h.waits n a (hconnecting hn)).imp id fun ⟨m, call, hlt, hm, hdisconnect⟩ => ?_
    obtain ⟨after, hafter, heq⟩ := hdisconnects hm
    exact ⟨m, after, hlt, hafter, heq.trans hdisconnect⟩
  · obtain ⟨before, hbefore, rfl⟩ := getElem?_modify_eq_some.1 hj
    split at hclosing
    · cases hclosing
    · rename_i hne
      rw [if_neg hne]
      refine (h.closing j before hbefore hclosing).imp id fun ⟨n, hn⟩ => ?_
      obtain hn' | ⟨rfl, _⟩ := hcall hn
      · exact ⟨n, hn'⟩
      · exact absurd (SessionCall.stopping.inj (Option.some.inj (hi.symm.trans hn))) hne
  · obtain ⟨_, heq⟩ | ⟨_, hn⟩ := getElem?_set_eq_some hn
    · cases heq
    · obtain ⟨before, hbefore, hanswer, hsilent⟩ := h.stops n j hn
      refine ⟨_, getElem?_modify_eq_some.2 ⟨before, hbefore, rfl⟩, ?_⟩
      split
      · exact ⟨hanswer, by simp⟩
      · exact ⟨hanswer, hsilent⟩
  · refine h.shared m n a b hlt (fun p call hmp hpn hp => ?_) (hconnecting ha) (hconnecting hb)
    obtain ⟨after, hafter, heq⟩ := hdisconnects hp
    exact heq.symm.trans (hbetween p after hmp hpn hafter)
  · refine h.gone ?_
    rw [List.getLast?_eq_getElem?, List.length_set] at hlast
    obtain ⟨after, hafter, hdisconnect⟩ := (Option.any_eq_true _ _).1 hlast
    rw [List.getLast?_eq_getElem?]
    obtain ⟨hlast', rfl⟩ | ⟨_, hafter⟩ := getElem?_set_eq_some hafter
    · rw [hlast', hi]
      rfl
    · rw [hafter]
      exact hdisconnect

/-! ## Steps -/

theorem sound_started (hkept : o.Kept) (h : o.Heard) {j : Nat} {session : Session}
    (hj : o.sessions[j]? = some session) (hphase : session.phase = .starting)
    (result : Except JsAny Unit) :
    (o.started j session result).Kept ∧ (o.started j session result).Heard := by
  have hpending : session.answer = none := by rw [Session.answer, hphase]
  cases result with
  | ok =>
    unfold started
    dsimp only
    split
    · have ha : o.Advances j session { session with phase := .stopping, listener := .closing } :=
        ⟨hj, hpending, rfl, rfl, rfl, fun _ => .inl rfl, by simp, fun _ => rfl⟩
      exact ⟨hkept.advance ha, h.advance ha⟩
    · rename_i hcurrent
      have hcurrent : session.generation = o.generation := Decidable.not_not.1 hcurrent
      obtain ⟨hslot, _⟩ :=
        (hkept.current j session hj hpending hcurrent).resolve_left (by simp [hphase])
      exact ⟨kept_opened hkept hj hphase hcurrent, heard_opened h (by simp [hslot]) hj hphase⟩
  | error err =>
    have ha : o.Advances j session
        { session with phase := .returned (answerFailed err), listener := .closed } :=
      ⟨hj, hpending, rfl, .inr ⟨answerFailed_ne err, rfl⟩, rfl, fun hopen => (by cases hopen),
        by simp, fun hclosing => (by cases hclosing)⟩
    exact ⟨hkept.advance ha, h.advance ha⟩

theorem sound_checked (hkept : o.Kept) (h : o.Heard) {j : Nat} {session : Session}
    (hj : o.sessions[j]? = some session) (hphase : session.phase = .checking)
    (passes : Except JsAny Bool) :
    (o.checked j session passes).Kept ∧ (o.checked j session passes).Heard := by
  have hpending : session.answer = none := by rw [Session.answer, hphase]
  have habsent : session.listener = .absent := by
    have hfits := hkept.fits j session hj
    rw [Session.Fits, hphase] at hfits
    exact hfits
  have hends {answer : Except JsAny Bool} (hanswer : answer ≠ .ok true) :
      o.Advances j session { session with phase := .returned answer } :=
    ⟨hj, hpending, rfl, .inr ⟨hanswer, by simp [habsent, Listener.isStopped]⟩, rfl,
      fun hopen => (by cases hopen), by simp [habsent], by simp [habsent]⟩
  have hfalse : Except.ok false ≠ (Except.ok true : Except JsAny Bool) := by simp
  rcases passes with err | (_ | _)
  · exact ⟨hkept.advance (hends (answerFailed_ne err)), h.advance (hends (answerFailed_ne err))⟩
  · exact ⟨hkept.advance (hends hfalse), h.advance (hends hfalse)⟩
  · unfold checked
    dsimp only
    split
    · exact ⟨hkept.advance (hends hfalse), h.advance (hends hfalse)⟩
    · have ha : o.Advances j session { session with phase := .starting, listener := .starting } :=
        ⟨hj, hpending, rfl, rfl, rfl, fun _ => .inr (by simp [hphase]), by simp, by simp⟩
      exact ⟨hkept.advance ha, h.advance ha⟩

theorem sound_step (prepares : Bool) (hkept : o.Kept) (h : o.Heard)
    (hstep : o.step prepares action = some o') : o'.Kept ∧ o'.Heard := by
  cases steps_of_step hstep with
  | connect prepared => exact sound_connect hkept h _
  | disconnect => exact ⟨kept_disconnect hkept, heard_disconnect hkept h⟩
  | checked hj hphase passes => exact sound_checked hkept h hj hphase passes
  | started hj hphase result => exact sound_started hkept h hj hphase result
  | @stopped j session hj hphase =>
    have ha : o.Advances j session
        { session with phase := .returned (.ok false), listener := .closed } :=
      ⟨hj, by rw [Session.answer, hphase], rfl, .inr ⟨by simp, rfl⟩, rfl,
        fun hopen => (by cases hopen), by simp, fun hclosing => (by cases hclosing)⟩
    exact ⟨hkept.advance ha, h.advance ha⟩
  | finished hj hphase => exact ⟨kept_finished hkept hj hphase, heard_finished h hj hphase⟩
  | closed hi => exact ⟨kept_closed hkept h hi, heard_closed h hi⟩

theorem kept_init : Kept {} where
  fits _ _ hj := nomatch hj
  listening _ _ hj := nomatch hj
  served _ hk := nomatch hk
  connected := by simp
  bounded _ _ hj := nomatch hj
  current _ _ hj := nomatch hj
  slot _ hj := nomatch hj

theorem heard_init : Heard {} where
  asked _ _ hj := nomatch hj
  waits _ _ hi := nomatch hi
  closing _ _ hk := nomatch hk
  stops _ _ hi := nomatch hi
  shared _ _ _ _ _ _ ha := nomatch ha
  gone hlast := nomatch hlast

/-- An attempt of an older generation, which has answered in a way if at all. -/
def Overtaken (o : ListenerOwner) (j : Nat) (A : Except JsAny Bool → Prop) : Prop :=
  ∃ session, o.sessions[j]? = some session ∧ session.generation < o.generation ∧
    ∀ answer, session.answer = some answer → A answer

variable {A : Except JsAny Bool → Prop}

/-- An attempt goes on, or ends in a way if it was overtaken. -/
theorem Overtaken.setSession {i j : Nat} (h : o.Overtaken j A) {session session' : Session}
    (hi : o.sessions[i]? = some session) (hgeneration : session'.generation = session.generation)
    (hends : session.generation < o.generation →
      ∀ answer, session'.answer = some answer → A answer) :
    (o.setSession i session').Overtaken j A := by
  obtain ⟨before, hj, hlt, hanswers⟩ := h
  by_cases hne : i = j
  · subst j
    obtain rfl := Option.some.inj (hi.symm.trans hj)
    refine ⟨session', List.getElem?_set_self (List.getElem?_eq_some_iff.1 hi).1, ?_, hends hlt⟩
    rw [hgeneration]
    exact hlt
  · exact ⟨before, (List.getElem?_set_ne hne).trans hj, hlt, hanswers⟩

theorem Overtaken.answers {j : Nat} (h : o.Overtaken j A) : o.Answers j A := by
  obtain ⟨session, hj, _, hanswers⟩ := h
  exact ⟨session, hj, hanswers⟩

end ListenerOwner
end TheokitGateways.Gateway
