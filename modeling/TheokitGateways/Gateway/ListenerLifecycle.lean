import TheokitGateways.Transition

/-!
# Starting and stopping a webhook listener

`start` binds a listener and waits for the outcome of the bind, `stop` closes
the listener that is recorded. A bind succeeds or fails at any moment, and what
a call does after waiting is a step of its own. Two starts, or a stop during a
bind, share the one record: a listener that is no longer recorded stays open,
and a lifecycle may count itself started without a listener. `Undisturbed` says
that a step does not come upon a record that another call has changed.
-/

namespace TheokitGateways.Gateway
open Transition

/-- Where a call of `start` that listens is. -/
inductive BindPhase where
  | binding
  /-- The bind succeeded, and the call has not gone on. -/
  | bound
  /-- The bind failed, and the call has not gone on. -/
  | refused
  | settled
  deriving DecidableEq

/-- A call of `start` that listens, and its listener. -/
structure Bind where
  phase : BindPhase
  isOpen : Bool := false
  deriving DecidableEq

structure ListenerLifecycle where
  started : Bool := false
  stopped : Bool := false
  /-- The recorded listener, by its place in `binds`. -/
  listener : Option Nat := none
  binds : List Bind := []
  /-- The listeners that calls of `stop` wait for. -/
  closing : List Nat := []
  deriving DecidableEq

inductive LifecycleAction where
  /-- `start()`, with whether `listen` returns a listener or throws. -/
  | start (listens : Bool)
  | stop
  | bound (k : Nat)
  | failed (k : Nat)
  /-- The call goes on after its bind succeeded. -/
  | resumed (k : Nat)
  /-- The call goes on after its bind failed. -/
  | caught (k : Nat)
  /-- A listener reports that it has closed. -/
  | closed (k : Nat)

namespace ListenerLifecycle

def isOpen (l : ListenerLifecycle) (k : Nat) : Bool := l.binds[k]?.any (·.isOpen)

def inPhase (l : ListenerLifecycle) (k : Nat) (phase : BindPhase) : Bool :=
  l.binds[k]?.any (·.phase = phase)

def setPhase (l : ListenerLifecycle) (k : Nat) (phase : BindPhase) : ListenerLifecycle :=
  { l with binds := l.binds.modify k fun b => { b with phase := phase } }

def setOpen (l : ListenerLifecycle) (k : Nat) (isOpen : Bool) : ListenerLifecycle :=
  { l with binds := l.binds.modify k fun b => { b with isOpen := isOpen } }

/-- `start()` up to the outcome of its bind. -/
def start (l : ListenerLifecycle) (injected listens : Bool) : ListenerLifecycle :=
  if l.started || injected then { l with started := true }
  else if listens then
    { l with
      stopped := false, listener := some l.binds.length, binds := l.binds ++ [⟨.binding, false⟩] }
  else { l with stopped := false, binds := l.binds ++ [⟨.refused, false⟩] }

/-- `stop()` up to the close of the recorded listener. -/
def stop (l : ListenerLifecycle) : ListenerLifecycle :=
  if l.stopped then l
  else
    match l.listener with
    | none => { l with stopped := true, started := false }
    | some k =>
      { l.setOpen k false with
        stopped := true, started := false, listener := none, closing := k :: l.closing }

def step (injected : Bool) (l : ListenerLifecycle) : LifecycleAction → Option ListenerLifecycle
  | .start listens => some (l.start injected listens)
  | .stop => some l.stop
  | .bound k => if l.inPhase k .binding then some ((l.setPhase k .bound).setOpen k true) else none
  | .failed k => if l.inPhase k .binding then some (l.setPhase k .refused) else none
  | .resumed k =>
    if l.inPhase k .bound then some { l.setPhase k .settled with started := true } else none
  | .caught k =>
    if l.inPhase k .refused then some { l.setPhase k .settled with listener := none } else none
  | .closed k => if k ∈ l.closing then some { l with closing := l.closing.erase k } else none

/-- No call is pending. -/
def Idle (l : ListenerLifecycle) : Prop := (∀ b ∈ l.binds, b.phase = .settled) ∧ l.closing = []

/-- A start listens anew. -/
def Binds (l : ListenerLifecycle) : Prop :=
  ∀ listens, (l.start false listens).binds.length = l.binds.length + 1

/-- The lifecycle knows which listener is open. -/
structure Tracked (l : ListenerLifecycle) : Prop where
  one : ∀ j k, l.isOpen j = true → l.isOpen k = true → j = k
  closable : ∀ k, l.isOpen k = true → l.stop.isOpen k = false
  counted : l.started = true ↔ ∃ k, l.isOpen k = true
  restarts : l.stop.Binds
  retries : (∀ k, l.isOpen k = false) → l.Binds

/-- The recorded listener is open. -/
def Serving (l : ListenerLifecycle) : Prop := ∃ k, l.listener = some k ∧ l.isOpen k = true

/-- The recorded listener is open, or its start has still to learn how the bind went. -/
def Engaged (l : ListenerLifecycle) : Prop :=
  ∃ k, l.listener = some k ∧
    (l.isOpen k = true ∨ l.inPhase k .binding = true ∨ l.inPhase k .refused = true)

/-- The record is as the call that takes the step left it, or stands for nothing. -/
def Undisturbed (l : ListenerLifecycle) : LifecycleAction → Prop
  | .start listens => l.started = false → listens = true → ¬l.Serving
  | .bound k => l.listener = some k
  | .resumed _ => l.Engaged
  | .caught _ => l.started = false ∧ ¬l.Serving
  | _ => True

/-- What every undisturbed step keeps. -/
structure Sound (l : ListenerLifecycle) : Prop where
  recorded : ∀ k, l.isOpen k = true → l.listener = some k
  engaged : l.started = true → l.Engaged
  counted : ∀ k, l.isOpen k = true → l.started = true ∨ l.inPhase k .bound = true
  stopped : l.stopped = true → l.listener = none

variable {l l' : ListenerLifecycle}

@[simp] theorem isOpen_setPhase (k j : Nat) (phase : BindPhase) :
    (l.setPhase k phase).isOpen j = l.isOpen j := by
  simp only [isOpen, setPhase, List.getElem?_modify]
  cases l.binds[j]? with
  | none => rfl
  | some b => by_cases h : k = j <;> simp [h]

@[simp] theorem inPhase_setOpen (k j : Nat) (isOpen : Bool) (phase : BindPhase) :
    (l.setOpen k isOpen).inPhase j phase = l.inPhase j phase := by
  simp only [inPhase, setOpen, List.getElem?_modify]
  cases l.binds[j]? with
  | none => rfl
  | some b => by_cases h : k = j <;> simp [h]

theorem isOpen_setOpen {k j : Nat} (isOpen : Bool) (h : (l.setOpen k isOpen).isOpen j = true) :
    k = j ∧ isOpen = true ∨ k ≠ j ∧ l.isOpen j = true := by
  simp only [ListenerLifecycle.isOpen, setOpen, List.getElem?_modify] at h ⊢
  cases hj : l.binds[j]? with
  | none => simp [hj] at h
  | some b => by_cases hkj : k = j <;> simp_all

theorem isOpen_setOpen_true {k : Nat} {phase : BindPhase} (h : l.inPhase k phase = true) :
    (l.setOpen k true).isOpen k = true := by
  simp only [inPhase] at h
  simp only [isOpen, setOpen, List.getElem?_modify]
  cases hk : l.binds[k]? with
  | none => simp [hk] at h
  | some b => simp

theorem inPhase_setPhase {k j : Nat} {phase phase' : BindPhase} :
    (l.setPhase k phase).inPhase j phase' =
      if k = j then l.binds[j]?.isSome && phase = phase' else l.inPhase j phase' := by
  simp only [inPhase, setPhase, List.getElem?_modify]
  cases l.binds[j]? with
  | none => by_cases h : k = j <;> simp [h]
  | some b => by_cases h : k = j <;> simp [h]

theorem inPhase_unique {k : Nat} {phase phase' : BindPhase} (h : l.inPhase k phase = true)
    (h' : l.inPhase k phase' = true) : phase = phase' := by
  simp only [inPhase] at h h'
  cases hk : l.binds[k]? with
  | none => simp [hk] at h
  | some b =>
    simp only [hk, Option.any_some, decide_eq_true_eq] at h h'
    exact h.symm.trans h'

theorem isSome_of_inPhase {k : Nat} {phase : BindPhase} (h : l.inPhase k phase = true) :
    l.binds[k]?.isSome = true := by
  simp only [inPhase] at h
  cases hk : l.binds[k]? with
  | none => simp [hk] at h
  | some b => rfl

/-- A bind begun is not open, and changes nothing of the others. -/
theorem any_append {p : Bind → Bool} {b : Bind} (hb : p b = false) (k : Nat) :
    (l.binds ++ [b])[k]?.any p = l.binds[k]?.any p := by
  rcases Nat.lt_trichotomy k l.binds.length with h | h | h
  · rw [List.getElem?_append_left h]
  · subst h
    simp [hb]
  · have hle : l.binds.length ≤ k := Nat.le_of_lt h
    rw [List.getElem?_append_right hle, List.getElem?_eq_none hle, List.getElem?_eq_none]
    simp only [List.length_singleton]
    omega

theorem not_open_of_not_serving (h : l.Sound) (hserving : ¬l.Serving) (k : Nat) :
    l.isOpen k = false := by
  cases hk : l.isOpen k with
  | false => rfl
  | true => exact absurd ⟨k, h.recorded k hk, hk⟩ hserving

theorem sound_start (h : l.Sound) {listens : Bool} (hC : l.Undisturbed (.start listens)) :
    (l.start false listens).Sound := by
  cases hstarted : l.started with
  | true =>
    have hsame : l.start false listens = l := by
      cases l
      simp_all [start]
    rw [hsame]
    exact h
  | false =>
    simp only [start, hstarted, Bool.or_self, Bool.false_eq_true, if_false]
    have hopen (b : BindPhase) (k : Nat) :
        (l.binds ++ [⟨b, false⟩])[k]?.any (·.isOpen) = l.isOpen k := any_append rfl k
    cases listens with
    | true =>
      have hdark := not_open_of_not_serving h (hC hstarted rfl)
      have hdark' (k : Nat) : (l.binds ++ [⟨.binding, false⟩])[k]?.any (·.isOpen) = false :=
        (hopen _ k).trans (hdark k)
      simp only [if_true]
      constructor
      · intro k hk
        exact absurd hk (Bool.eq_false_iff.1 (hdark' k))
      · intro hs
        contradiction
      · intro k hk
        exact absurd hk (Bool.eq_false_iff.1 (hdark' k))
      · intro hs
        contradiction
    | false =>
      simp only [Bool.false_eq_true, if_false]
      constructor
      · intro k hk
        exact h.recorded k ((hopen _ k).symm.trans hk)
      · intro hs
        contradiction
      · intro k hk
        obtain hs | hbound := h.counted k ((hopen _ k).symm.trans hk)
        · simp [hstarted] at hs
        · exact .inr ((any_append (by decide) k).trans hbound)
      · intro hs
        contradiction

/-- A stop leaves nothing open, as the recorded listener alone was. -/
theorem not_open_stop (h : l.Sound) (k : Nat) : l.stop.isOpen k = false := by
  rw [Bool.eq_false_iff]
  intro hk
  unfold stop at hk
  split at hk
  · rename_i hstopped
    cases (h.stopped hstopped).symm.trans (h.recorded k hk)
  · cases hl : l.listener with
    | none =>
      rw [hl] at hk
      cases hl.symm.trans (h.recorded k hk)
    | some j =>
      rw [hl] at hk
      obtain ⟨_, hfalse⟩ | ⟨hjk, hopen⟩ := isOpen_setOpen false hk
      · cases hfalse
      · exact hjk (Option.some.inj (hl.symm.trans (h.recorded k hopen)))

theorem stopped_stop : l.stop.stopped = true := by
  cases hstopped : l.stopped <;> cases hl : l.listener <;> simp [stop, hstopped, hl]

theorem sound_stop (h : l.Sound) : l.stop.Sound := by
  have hdark := not_open_stop h
  cases hstopped : l.stopped with
  | true =>
    have hsame : l.stop = l := by simp [stop, hstopped]
    rw [hsame]
    exact h
  | false =>
    obtain ⟨hstarted, hlistener⟩ : l.stop.started = false ∧ l.stop.listener = none := by
      cases hl : l.listener <;> simp [stop, hstopped, hl]
    constructor
    · intro k hk
      simp [hdark] at hk
    · intro hs
      simp [hstarted] at hs
    · intro k hk
      simp [hdark] at hk
    · intro _
      exact hlistener

theorem sound_bound (h : l.Sound) {k : Nat} (hk : l.inPhase k .binding = true)
    (hC : l.listener = some k) : ((l.setPhase k .bound).setOpen k true).Sound := by
  have hphase : (l.setPhase k .bound).inPhase k .bound = true := by
    simp [inPhase_setPhase, isSome_of_inPhase hk]
  constructor
  · intro j hj
    obtain ⟨rfl, _⟩ | ⟨_, hopen⟩ := isOpen_setOpen true hj
    · exact hC
    · exact h.recorded j (by simpa using hopen)
  · intro _
    exact ⟨k, hC, .inl (isOpen_setOpen_true hphase)⟩
  · intro j hj
    obtain ⟨rfl, _⟩ | ⟨hkj, hopen⟩ := isOpen_setOpen true hj
    · exact .inr (by simpa using hphase)
    · have hjk := hC.symm.trans (h.recorded j (by simpa using hopen))
      exact absurd (Option.some.inj hjk) hkj
  · exact h.stopped

theorem sound_failed (h : l.Sound) {k : Nat} (hk : l.inPhase k .binding = true) :
    (l.setPhase k .refused).Sound := by
  constructor
  · intro j hj
    exact h.recorded j (by simpa using hj)
  · intro hs
    obtain ⟨j, hl, hj⟩ := h.engaged hs
    refine ⟨j, hl, ?_⟩
    by_cases hkj : k = j
    · subst hkj
      exact .inr (.inr (by simp [inPhase_setPhase, isSome_of_inPhase hk]))
    · simpa [inPhase_setPhase, hkj] using hj
  · intro j hj
    rw [isOpen_setPhase] at hj
    refine (h.counted j hj).imp_right fun hbound => ?_
    have hkj : k ≠ j := by
      rintro rfl
      cases inPhase_unique hk hbound
    simpa [inPhase_setPhase, hkj] using hbound
  · exact h.stopped

theorem sound_resumed (h : l.Sound) {k : Nat} (hk : l.inPhase k .bound = true)
    (hC : l.Engaged) : Sound { l.setPhase k .settled with started := true } := by
  constructor
  · intro j hj
    exact h.recorded j ((isOpen_setPhase k j .settled).symm.trans hj)
  · intro _
    obtain ⟨j, hl, hj⟩ := hC
    refine ⟨j, hl, ?_⟩
    by_cases hkj : k = j
    · subst hkj
      obtain hopen | hbinding | hrefused := hj
      · exact .inl ((isOpen_setPhase k k .settled).trans hopen)
      · cases inPhase_unique hk hbinding
      · cases inPhase_unique hk hrefused
    · have hphase (p : BindPhase) : (l.setPhase k .settled).inPhase j p = l.inPhase j p := by
        rw [inPhase_setPhase, if_neg hkj]
      refine hj.imp ((isOpen_setPhase k j .settled).trans ·) fun hj => ?_
      exact hj.imp ((hphase _).trans ·) ((hphase _).trans ·)
  · intro j hj
    exact .inl rfl
  · exact h.stopped

theorem sound_caught (h : l.Sound) {k : Nat} (hC : l.Undisturbed (.caught k)) :
    Sound { l.setPhase k .settled with listener := none } := by
  obtain ⟨hstarted, hserving⟩ := hC
  have hdark := not_open_of_not_serving h hserving
  have hdark' (j : Nat) : (l.setPhase k .settled).isOpen j = false :=
    (isOpen_setPhase k j .settled).trans (hdark j)
  constructor
  · intro j hj
    exact absurd hj (Bool.eq_false_iff.1 (hdark' j))
  · intro hs
    exact absurd hs (Bool.eq_false_iff.1 hstarted)
  · intro j hj
    exact absurd hj (Bool.eq_false_iff.1 (hdark' j))
  · intro _
    rfl

theorem sound_step {action : LifecycleAction} (h : l.Sound) (hC : l.Undisturbed action)
    (hstep : l.step false action = some l') : l'.Sound := by
  cases action with
  | start listens =>
    obtain rfl := Option.some.inj hstep
    exact sound_start h hC
  | stop =>
    obtain rfl := Option.some.inj hstep
    exact sound_stop h
  | bound k =>
    simp only [step, Option.ite_none_right_eq_some, Option.some.injEq] at hstep
    obtain ⟨hk, rfl⟩ := hstep
    exact sound_bound h hk hC
  | failed k =>
    simp only [step, Option.ite_none_right_eq_some, Option.some.injEq] at hstep
    obtain ⟨hk, rfl⟩ := hstep
    exact sound_failed h hk
  | resumed k =>
    simp only [step, Option.ite_none_right_eq_some, Option.some.injEq] at hstep
    obtain ⟨hk, rfl⟩ := hstep
    exact sound_resumed h hk hC
  | caught k =>
    simp only [step, Option.ite_none_right_eq_some, Option.some.injEq] at hstep
    obtain ⟨_, rfl⟩ := hstep
    exact sound_caught h hC
  | closed k =>
    simp only [step, Option.ite_none_right_eq_some, Option.some.injEq] at hstep
    obtain ⟨_, rfl⟩ := hstep
    exact ⟨h.recorded, h.engaged, h.counted, h.stopped⟩

theorem not_inPhase_of_idle (hidle : l.Idle) {phase : BindPhase} (hphase : phase ≠ .settled)
    (k : Nat) : l.inPhase k phase = false := by
  rw [Bool.eq_false_iff]
  intro hk
  simp only [inPhase] at hk
  cases hb : l.binds[k]? with
  | none => simp [hb] at hk
  | some b =>
    have hsettled := hidle.1 b (List.mem_of_getElem? hb)
    simp only [hb, Option.any_some, decide_eq_true_eq] at hk
    exact hphase (hk.symm.trans hsettled)

theorem binds_of_not_started (h : l.started = false) : l.Binds := by
  intro listens
  cases listens <;> simp [start, h]

theorem tracked_of_sound (h : l.Sound) (hidle : l.Idle) : l.Tracked := by
  have hsettled (phase : BindPhase) (hphase : phase ≠ .settled) (k : Nat) :
      ¬l.inPhase k phase = true := Bool.eq_false_iff.1 (not_inPhase_of_idle hidle hphase k)
  have hcounted : l.started = true ↔ ∃ k, l.isOpen k = true := by
    constructor
    · intro hs
      obtain ⟨k, _, hopen | hbinding | hrefused⟩ := h.engaged hs
      · exact ⟨k, hopen⟩
      · exact absurd hbinding (hsettled _ (by decide) k)
      · exact absurd hrefused (hsettled _ (by decide) k)
    · rintro ⟨k, hk⟩
      obtain hs | hbound := h.counted k hk
      · exact hs
      · exact absurd hbound (hsettled _ (by decide) k)
  constructor
  · intro j k hj hk
    exact Option.some.inj ((h.recorded j hj).symm.trans (h.recorded k hk))
  · intro k _
    exact not_open_stop h k
  · exact hcounted
  · refine binds_of_not_started (Bool.eq_false_iff.2 fun hs => ?_)
    obtain ⟨k, hlistener, _⟩ := (sound_stop h).engaged hs
    cases ((sound_stop h).stopped stopped_stop).symm.trans hlistener
  · intro hdark
    refine binds_of_not_started (Bool.eq_false_iff.2 fun hs => ?_)
    obtain ⟨k, hk⟩ := hcounted.1 hs
    simp [hdark k] at hk

/-- After an undisturbed run, whenever no call is pending, the lifecycle knows which listener is
open. -/
theorem tracked_of_undisturbed (as : List LifecycleAction) (l : ListenerLifecycle)
    (hrun : run (step false) {} as = some l) (hmeets : Meets (step false) Undisturbed {} as)
    (hidle : l.Idle) : l.Tracked := by
  have hnew : Sound {} := ⟨by simp [isOpen], by simp, by simp [isOpen], by simp⟩
  have hsound := invariant_of_meets (fun _ _ _ h hC hstep => sound_step h hC hstep) hnew hmeets hrun
  exact tracked_of_sound hsound hidle

/-- A start, a stop, and a start whose bind fails. -/
def restart : List LifecycleAction :=
  [.start true, .bound 0, .resumed 0, .stop, .closed 0, .start true, .failed 1, .caught 1]

theorem undisturbed_restart : Meets (step false) Undisturbed {} restart := by
  refine meets_cons (fun _ _ ⟨_, hk, _⟩ => nomatch hk) rfl ?_
  refine meets_cons rfl rfl ?_
  refine meets_cons ⟨0, rfl, .inl rfl⟩ rfl ?_
  refine meets_cons trivial rfl ?_
  refine meets_cons trivial rfl ?_
  refine meets_cons (fun _ _ ⟨_, hk, _⟩ => nomatch hk) rfl ?_
  refine meets_cons trivial rfl ?_
  refine meets_cons ⟨rfl, ?_⟩ rfl trivial
  rintro ⟨k, hk, hopen⟩
  obtain rfl := Option.some.inj hk
  contradiction

theorem tracked_of_undisturbed_restart :
    ∃ l, run (step false) {} restart = some l ∧ l.Tracked :=
  ⟨_, rfl, tracked_of_undisturbed restart _ rfl undisturbed_restart ⟨by decide, rfl⟩⟩

/-- Of two starts the second finds the port taken, and its clean-up drops the first one's
listener. -/
theorem listener_leaks :
    ¬ ∀ (as : List LifecycleAction) (l : ListenerLifecycle), run (step false) {} as = some l →
      l.Idle → l.Tracked := by
  intro h
  have htracked := h [.start true, .start true, .bound 0, .failed 1, .resumed 0, .caught 1] _ rfl
    ⟨by decide, rfl⟩
  have hopen := htracked.closable 0 rfl
  contradiction

end ListenerLifecycle

end TheokitGateways.Gateway
