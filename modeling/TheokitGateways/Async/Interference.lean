import TheokitGateways.Async.Prog
import TheokitGateways.Transition

/-!
# Programs among others

Several programs act on one world, and the world changes by itself between their
calls. A `Setting` is what a program relies on and what it promises: `Keeps` says
that its own changes are within the guarantee, that the world is as promised
before every call it makes, and as promised at its end. `threads_keep` is for
programs side by side that each guarantee what the others rely on, `alone_keep` for
programs that run one after another and may be stopped on the way.
-/

namespace TheokitGateways.Async
open Transition

variable {Call : Type} {Answer : Call → Type} {ε ω α β W D B E : Type}

/-- What a program relies on and promises, in a world that answers calls by decisions of its
own. -/
structure Setting (exec : W → (c : Call) → D → Except ε (Answer c) × W) where
  /-- The decisions that are taken. -/
  may : Call → D → Prop
  rely : W → W → Prop
  guar : W → W → Prop
  /-- What holds when a program is about to make a call. -/
  before : Call → W → Prop
  refl : ∀ w, rely w w
  trans : ∀ {u v w}, rely u v → rely v w → rely u w

variable {exec : W → (c : Call) → D → Except ε (Answer c) × W}

/-- What the others do does not break `P`. -/
def Setting.Stable (σ : Setting exec) (P : W → Prop) : Prop := ∀ w v, σ.rely w v → P w → P v

namespace Prog

def Keeps (σ : Setting exec) :
    Prog Call Answer ε ω α → (Except ε α → W → Prop) → W → Prop
  | .ret a, Q, w => ∀ v, σ.rely w v → Q (.ok a) v
  | .throw e, Q, w => ∀ v, σ.rely w v → Q (.error e) v
  | .call c k, Q, w => ∀ v, σ.rely w v → σ.before c v ∧ ∀ d, σ.may c d →
      σ.guar v (exec v c d).2 ∧ Keeps σ (k (exec v c d).1) Q (exec v c d).2
  | .emit _ k, Q, w => Keeps σ k Q w

variable {σ : Setting exec} {Q R : Except ε α → W → Prop} {P : W → Prop} {w v : W}
  {p : Prog Call Answer ε ω α}

theorem Keeps.rely (h : p.Keeps σ Q w) (hrely : σ.rely w v) : p.Keeps σ Q v := by
  induction p with
  | ret a => exact fun u hu => h u (σ.trans hrely hu)
  | throw e => exact fun u hu => h u (σ.trans hrely hu)
  | call c k ih => exact fun u hu => h u (σ.trans hrely hu)
  | emit o k ih => exact ih h

theorem Keeps.mono (h : p.Keeps σ Q w) (hQ : ∀ r v, Q r v → R r v) : p.Keeps σ R w := by
  induction p generalizing w with
  | ret a => exact fun u hu => hQ _ u (h u hu)
  | throw e => exact fun u hu => hQ _ u (h u hu)
  | call c k ih =>
    intro u hu
    obtain ⟨hbefore, hnext⟩ := h u hu
    refine ⟨hbefore, fun d hd => ?_⟩
    obtain ⟨hguar, hk⟩ := hnext d hd
    exact ⟨hguar, ih _ hk⟩
  | emit o k ih => exact ih h

theorem Keeps.bind {f : α → Prog Call Answer ε ω β} {R : Except ε β → W → Prop}
    (h : p.Keeps σ Q w) (hok : ∀ a v, Q (.ok a) v → (f a).Keeps σ R v)
    (herror : ∀ e v, Q (.error e) v → R (.error e) v) : (p >>= f).Keeps σ R w := by
  induction p generalizing w with
  | ret a => exact hok a w (h w (σ.refl w))
  | throw e => exact fun u hu => herror e u (h u hu)
  | call c k ih =>
    intro u hu
    obtain ⟨hbefore, hnext⟩ := h u hu
    refine ⟨hbefore, fun d hd => ?_⟩
    obtain ⟨hguar, hk⟩ := hnext d hd
    exact ⟨hguar, ih _ hk⟩
  | emit o k ih => exact ih h

theorem keeps_ret {a : α} (hstable : σ.Stable (Q (.ok a))) (hQ : Q (.ok a) w) :
    (Prog.ret a : Prog Call Answer ε ω α).Keeps σ Q w :=
  fun v hv => hstable w v hv hQ

/-- A call in a world of which something stable is known. -/
theorem keeps_call {c : Call} {k : Except ε (Answer c) → Prog Call Answer ε ω α}
    (hstable : σ.Stable P) (hP : P w) (hk : ∀ v, P v → σ.before c v ∧ ∀ d, σ.may c d →
      σ.guar v (exec v c d).2 ∧ (k (exec v c d).1).Keeps σ Q (exec v c d).2) :
    (Prog.call c k).Keeps σ Q w :=
  fun v hv => hk v (hstable w v hv hP)

theorem keeps_settle {c : Call} {Q : Except ε (Except ε (Answer c)) → W → Prop}
    (hstable : σ.Stable P) (hQ : ∀ r, σ.Stable (Q (.ok r))) (hP : P w)
    (hc : ∀ v, P v → σ.before c v ∧ ∀ d, σ.may c d →
      σ.guar v (exec v c d).2 ∧ Q (.ok (exec v c d).1) (exec v c d).2) :
    (settle c : Prog Call Answer ε ω _).Keeps σ Q w := by
  refine keeps_call hstable hP fun v hv => ?_
  obtain ⟨hbefore, hnext⟩ := hc v hv
  exact ⟨hbefore, fun d hd => ⟨(hnext d hd).1, keeps_ret (hQ _) (hnext d hd).2⟩⟩

/-- A program whose calls all keep something stable keeps it. -/
theorem keeps_of_callsIn {C : Call → Prop} (hstable : σ.Stable P)
    (hcall : ∀ c v, C c → P v → σ.before c v ∧ ∀ d, σ.may c d →
      σ.guar v (exec v c d).2 ∧ P (exec v c d).2)
    (hp : p.CallsIn C) (hw : P w) : p.Keeps σ (fun _ => P) w := by
  induction p generalizing w with
  | ret a => exact fun v hv => hstable w v hv hw
  | throw e => exact fun v hv => hstable w v hv hw
  | call c k ih =>
    intro v hv
    obtain ⟨hbefore, hnext⟩ := hcall c v hp.1 (hstable w v hv hw)
    refine ⟨hbefore, fun d hd => ?_⟩
    obtain ⟨hguar, hP⟩ := hnext d hd
    exact ⟨hguar, ih _ (hp.2 _) hP⟩
  | emit o k ih => exact ih hp hw

end Prog

/-! ### Threads -/

/-- A world with the programs that act on it, without the ones that were stopped. -/
structure Threads (Call : Type) (Answer : Call → Type) (ε ω α W : Type) where
  world : W
  threads : List (Option (Prog Call Answer ε ω α)) := []

inductive Move (D B E : Type) where
  | start (b : B)
  | advance (i : Nat) (d : D)
  | stop (i : Nat)
  /-- The world changes by itself. -/
  | other (e : E)

namespace Threads

def setThread (s : Threads Call Answer ε ω α W) (i : Nat) (p : Option (Prog Call Answer ε ω α)) :
    Threads Call Answer ε ω α W :=
  { s with threads := s.threads.set i p }

def thread (s : Threads Call Answer ε ω α W) (i : Nat) : Option (Prog Call Answer ε ω α) :=
  s.threads[i]?.join

section
variable (exec : W → (c : Call) → D → Except ε (Answer c) × W)
  (program : B → Prog Call Answer ε ω α) (admits : W → B → Bool) (alone : W → E → Option W)

def step (s : Threads Call Answer ε ω α W) :
    Move D B E → Option (Threads Call Answer ε ω α W)
  | .start b =>
    if admits s.world b then some { s with threads := s.threads ++ [some (program b)] } else none
  | .advance i d =>
    match s.thread i with
    | some (.call c k) =>
      let (r, world) := exec s.world c d
      some { s.setThread i (some (k r)) with world }
    | some (.emit _ k) => some (s.setThread i (some k))
    | _ => none
  | .stop i => (s.thread i).map fun _ => s.setThread i none
  | .other e => (alone s.world e).map fun world => { s with world }

end

/-- No program is under way. -/
def Idle (s : Threads Call Answer ε ω α W) : Prop :=
  ∀ i p, s.thread i = some p → p.finished = true

/-- The world answers by a decision that is taken. -/
def Decided (σ : Setting exec) (s : Threads Call Answer ε ω α W) : Move D B E → Prop
  | .advance i d => ∀ c k, s.thread i = some (.call c k) → σ.may c d
  | _ => True

/-- One program at a time, which is started where it `fits` and stopped at certain calls only. -/
def Alone (σ : Setting exec) (fits : W → B → Prop) (stops : Call → Prop)
    (s : Threads Call Answer ε ω α W) : Move D B E → Prop
  | .start b => s.Idle ∧ fits s.world b
  | .advance i d => ∀ c k, s.thread i = some (.call c k) → σ.may c d
  | .stop i => ∀ p, s.thread i = some p → p.finished = true ∨ ∃ c, p.pending = some c ∧ stops c
  | .other _ => True

variable {σ : Setting exec} {s t : Threads Call Answer ε ω α W} {i j : Nat}
  {p q : Prog Call Answer ε ω α} {program : B → Prog Call Answer ε ω α} {admits : W → B → Bool}
  {alone : W → E → Option W} {move : Move D B E}

theorem thread_setThread {p' : Option (Prog Call Answer ε ω α)} (hi : s.thread i = some p) :
    (s.setThread i p').thread j = if i = j then p' else s.thread j := by
  have hlt : i < s.threads.length := by
    refine Nat.lt_of_not_le fun hle => ?_
    rw [thread, List.getElem?_eq_none hle] at hi
    cases hi
  unfold setThread thread
  rw [List.getElem?_set]
  split
  · rfl
  · rfl

/-- A thread of more is one of before, or the new one. -/
theorem thread_append {w : W} (hj : ({ s with world := w, threads := s.threads ++ [some p] } :
    Threads Call Answer ε ω α W).thread j = some q) :
    s.thread j = some q ∨ j = s.threads.length ∧ q = p := by
  unfold thread at hj ⊢
  rw [List.getElem?_append] at hj
  split at hj
  · exact .inl hj
  · right
    obtain hsub | ⟨n, hsub⟩ : j - s.threads.length = 0 ∨ ∃ n, j - s.threads.length = n + 1 := by
      cases j - s.threads.length <;> simp
    · rw [hsub] at hj
      cases hj
      exact ⟨by omega, rfl⟩
    · rw [hsub] at hj
      cases hj

/-- What a move does. -/
inductive Moves (exec : W → (c : Call) → D → Except ε (Answer c) × W)
    (program : B → Prog Call Answer ε ω α) (admits : W → B → Bool) (alone : W → E → Option W)
    (s : Threads Call Answer ε ω α W) : Move D B E → Threads Call Answer ε ω α W → Prop
  | start {b : B} (hadmits : admits s.world b = true) :
    Moves exec program admits alone s (.start b)
      { s with threads := s.threads ++ [some (program b)] }
  | call {i : Nat} {c : Call} {k : Except ε (Answer c) → Prog Call Answer ε ω α}
    (hi : s.thread i = some (.call c k)) (d : D) :
    Moves exec program admits alone s (.advance i d)
      { s.setThread i (some (k (exec s.world c d).1)) with world := (exec s.world c d).2 }
  | emit {i : Nat} {o : ω} {k : Prog Call Answer ε ω α} (hi : s.thread i = some (.emit o k))
    (d : D) : Moves exec program admits alone s (.advance i d) (s.setThread i (some k))
  | stop {i : Nat} {p : Prog Call Answer ε ω α} (hi : s.thread i = some p) :
    Moves exec program admits alone s (.stop i) (s.setThread i none)
  | other {e : E} {w : W} (he : alone s.world e = some w) :
    Moves exec program admits alone s (.other e) { s with world := w }

theorem moves_of_step (h : step exec program admits alone s move = some t) :
    Moves exec program admits alone s move t := by
  cases move with
  | start b =>
    obtain ⟨hadmits, h⟩ := Option.ite_none_right_eq_some.1 h
    cases h
    exact .start hadmits
  | advance i d =>
    simp only [step] at h
    split at h
    · cases h
      exact .call ‹_› d
    · cases h
      exact .emit ‹_› d
    · cases h
  | stop i =>
    obtain ⟨p, hi, rfl⟩ := Option.map_eq_some_iff.1 h
    exact .stop hi
  | other e =>
    obtain ⟨w, he, rfl⟩ := Option.map_eq_some_iff.1 h
    exact .other he

/-! ### Side by side -/

/-- The world is as it should be, and every thread keeps its promise from here on. -/
structure Sound (σ : Setting exec) (I : W → Prop) (s : Threads Call Answer ε ω α W) : Prop where
  world : I s.world
  keeps : ∀ i p, s.thread i = some p → p.Keeps σ (fun _ _ => True) s.world

section
variable {I : W → Prop}
  (hstart : ∀ b w, I w → admits w b = true → (program b).Keeps σ (fun _ _ => True) w)
  (hguar : ∀ w v, I w → σ.guar w v → I v ∧ σ.rely w v)
  (hother : ∀ e w v, I w → alone w e = some v → I v ∧ σ.rely w v)
include hstart hguar hother

theorem sound_step (h : s.Sound σ I) (hdecided : s.Decided σ move)
    (hstep : step exec program admits alone s move = some t) : t.Sound σ I := by
  cases moves_of_step hstep with
  | start hadmits =>
    refine ⟨h.world, fun j q hj => ?_⟩
    obtain hj | ⟨_, rfl⟩ := thread_append (w := s.world) hj
    · exact h.keeps j q hj
    · exact hstart _ _ h.world hadmits
  | @call i c k hi d =>
    obtain ⟨_, hnext⟩ := h.keeps i _ hi s.world (σ.refl _)
    obtain ⟨hown, hk⟩ := hnext d (hdecided c k hi)
    obtain ⟨hI, hrely⟩ := hguar _ _ h.world hown
    refine ⟨hI, fun j q hj => ?_⟩
    have hj := (thread_setThread hi).symm.trans hj
    split at hj
    · cases hj
      exact hk
    · exact (h.keeps j q hj).rely hrely
  | @emit i o k hi d =>
    refine ⟨h.world, fun j q hj => ?_⟩
    rw [thread_setThread hi] at hj
    split at hj
    · cases hj
      exact (h.keeps i _ hi : (Prog.emit o k).Keeps σ _ s.world)
    · exact h.keeps j q hj
  | stop hi =>
    refine ⟨h.world, fun j q hj => ?_⟩
    rw [thread_setThread hi] at hj
    split at hj
    · cases hj
    · exact h.keeps j q hj
  | other he =>
    obtain ⟨hI, hrely⟩ := hother _ _ _ h.world he
    exact ⟨hI, fun j q hj => (h.keeps j q hj).rely hrely⟩

/-- Programs that guarantee each other what they rely on keep their promises side by side. -/
theorem threads_keep {moves : List (Move D B E)} {w : W} (hw : I w)
    (hmeets : Meets (step exec program admits alone) (Decided σ) { world := w } moves)
    (hrun : run (step exec program admits alone) { world := w } moves = some s) : s.Sound σ I := by
  refine invariant_of_meets (fun _ _ _ h hdecided hstep => ?_) ⟨hw, fun i p hi => ?_⟩ hmeets hrun
  · exact sound_step hstart hguar hother h hdecided hstep
  · simp [thread] at hi

end

/-! ### One after another -/

/-- No two programs are under way; the one that is keeps its promise, and without one the world is
as it should be. -/
structure Sole (σ : Setting exec) (J : W → Prop) (s : Threads Call Answer ε ω α W) : Prop where
  only : ∀ i j p q, s.thread i = some p → s.thread j = some q → p.finished = false →
    q.finished = false → i = j
  keeps : ∀ i p, s.thread i = some p → p.finished = false → p.Keeps σ (fun _ => J) s.world
  idle : s.Idle → J s.world

/-- A finished program has kept its promise. -/
theorem holds_of_finished {J : W → Prop} {w : W} (h : p.Keeps σ (fun _ => J) w)
    (hp : p.finished = true) : J w := by
  cases p with
  | ret a => exact h w (σ.refl w)
  | throw e => exact h w (σ.refl w)
  | call c k => cases hp
  | emit o k => cases hp

/-- The only program under way goes on. -/
theorem sole_advance {w : W} (hi : s.thread i = some p) (hlive : p.finished = false)
    {J : W → Prop} (h : s.Sole σ J) {p' : Prog Call Answer ε ω α}
    (hp' : p'.Keeps σ (fun _ => J) w) :
    ({ s.setThread i (some p') with world := w } : Threads Call Answer ε ω α W).Sole σ J := by
  have hthread (j : Nat) :
      ({ s.setThread i (some p') with world := w } : Threads Call Answer ε ω α W).thread j =
        if i = j then some p' else s.thread j := thread_setThread hi
  have hself : ∀ j q, (if i = j then some p' else s.thread j) = some q → q.finished = false →
      i = j ∧ q = p' := by
    intro j q hj hq
    split at hj
    · cases hj
      exact ⟨‹_›, rfl⟩
    · exact absurd (h.only i j p q hi hj hlive hq) ‹_›
  refine ⟨fun j k q r hj hk hq hr => ?_, fun j q hj hq => ?_, fun hidle => ?_⟩
  · rw [hthread] at hj hk
    exact (hself j q hj hq).1.symm.trans (hself k r hk hr).1
  · rw [hthread] at hj
    obtain ⟨_, rfl⟩ := hself j q hj hq
    exact hp'
  · refine holds_of_finished hp' (hidle i p' ?_)
    rw [hthread, if_pos rfl]

section
variable {J : W → Prop} {fits : W → B → Prop} {stops : Call → Prop}
  (hstart : ∀ b w, J w → admits w b = true → fits w b → (program b).Keeps σ (fun _ => J) w)
  (hstop : ∀ c w, stops c → σ.before c w → J w) (hstable : σ.Stable J)
  (hother : ∀ e w v, alone w e = some v → σ.rely w v)
include hstart hstop hstable hother

theorem sole_step (h : s.Sole σ J) (halone : s.Alone σ fits stops move)
    (hstep : step exec program admits alone s move = some t) : t.Sole σ J := by
  cases moves_of_step hstep with
  | @start b hadmits =>
    obtain ⟨halone, hfits⟩ := halone
    have hkeeps := hstart b s.world (h.idle halone) hadmits hfits
    have hlast : ∀ j q, ({ s with threads := s.threads ++ [some (program b)] } :
        Threads Call Answer ε ω α W).thread j = some q → q.finished = false →
        j = s.threads.length ∧ q = program b := by
      intro j q hj hq
      obtain hj | hnew := thread_append (w := s.world) hj
      · rw [halone j q hj] at hq
        cases hq
      · exact hnew
    refine ⟨fun j k q r hj hk hq hr => ?_, fun j q hj hq => ?_, fun hidle => ?_⟩
    · exact (hlast j q hj hq).1.trans (hlast k r hk hr).1.symm
    · obtain ⟨_, rfl⟩ := hlast j q hj hq
      exact hkeeps
    · exact h.idle halone
  | @call i c k hi d =>
    obtain ⟨_, hnext⟩ := h.keeps i _ hi rfl s.world (σ.refl _)
    exact sole_advance hi rfl h (hnext d (halone c k hi)).2
  | @emit i o k hi d =>
    have hk : (Prog.emit o k).Keeps σ (fun _ => J) s.world := h.keeps i _ hi rfl
    exact sole_advance hi rfl h hk
  | @stop i p hi =>
    have hthread (j : Nat) (q : Prog Call Answer ε ω α)
        (hj : (s.setThread i none).thread j = some q) : i ≠ j ∧ s.thread j = some q := by
      rw [thread_setThread hi] at hj
      split at hj
      · cases hj
      · exact ⟨‹_›, hj⟩
    refine ⟨fun j k q r hj hk hq hr => ?_, fun j q hj hq => ?_, fun hidle => ?_⟩
    · exact h.only j k q r (hthread j q hj).2 (hthread k r hk).2 hq hr
    · exact h.keeps j q (hthread j q hj).2 hq
    · obtain hp | ⟨c, hc, hstops⟩ := halone p hi
      · refine h.idle fun j q hj => ?_
        by_cases hij : i = j
        · subst hij
          cases hi.symm.trans hj
          exact hp
        · exact hidle j q (by rw [thread_setThread hi, if_neg hij, hj])
      · cases p with
        | call c' k =>
          cases hc
          exact hstop c s.world hstops (h.keeps i _ hi rfl s.world (σ.refl _)).1
        | ret a => cases hc
        | throw e => cases hc
        | emit o k => cases hc
  | other he =>
    have hrely := hother _ _ _ he
    exact ⟨h.only, fun j q hj hq => (h.keeps j q hj hq).rely hrely,
      fun hidle => hstable _ _ hrely (h.idle hidle)⟩

/-- Programs that run one after another, and are stopped only where the world is as it should be,
leave it so. -/
theorem alone_keep {moves : List (Move D B E)} {w : W} (hw : J w)
    (hmeets : Meets (step exec program admits alone) (Alone σ fits stops) { world := w } moves)
    (hrun : run (step exec program admits alone) { world := w } moves = some s) : s.Sole σ J := by
  have hnone : ∀ i p, ({ world := w } : Threads Call Answer ε ω α W).thread i ≠ some p := by
    simp [thread]
  refine invariant_of_meets (fun _ _ _ h halone hstep => ?_)
    ⟨fun i _ p _ hi => absurd hi (hnone i p), fun i p hi => absurd hi (hnone i p), fun _ => hw⟩
    hmeets hrun
  exact sole_step hstart hstop hstable hother h halone hstep

end
end Threads
end TheokitGateways.Async
