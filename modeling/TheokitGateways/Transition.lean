/-!
# Runs of a transition system

A step is a partial function: `none` means that the action is not enabled. A run
is a list of actions taken one after another, and a run `Meets` a condition when
every action of it does so in the state it is taken in.

The rules are the ones a proof about runs needs: an invariant that every step
keeps holds after every run; one that steps keep under a condition holds after
every run that meets it; and a property that a step keeps exactly under a
condition holds exactly after the runs that meet it.
-/

namespace TheokitGateways.Transition

variable {σ α : Type} (step : σ → α → Option σ)

def run : σ → List α → Option σ
  | s, [] => some s
  | s, a :: as => (step s a).bind fun t => run t as

def Meets (C : σ → α → Prop) : σ → List α → Prop
  | _, [] => True
  | s, a :: as => C s a ∧ ∀ t, step s a = some t → Meets C t as

/-- `P` holds of every state that a run goes through. -/
def Always (P : σ → Prop) (s : σ) (as : List α) : Prop :=
  ∀ bs t, bs <+: as → run step s bs = some t → P t

variable {step}

@[simp] theorem run_nil (s : σ) : run step s [] = some s := rfl

theorem run_cons (s : σ) (a : α) (as : List α) :
    run step s (a :: as) = (step s a).bind fun t => run step t as := rfl

theorem run_append (s : σ) (as bs : List α) :
    run step s (as ++ bs) = (run step s as).bind fun t => run step t bs := by
  induction as generalizing s with
  | nil => rfl
  | cons a as ih =>
    rw [List.cons_append, run_cons, run_cons, Option.bind_assoc]
    exact Option.bind_congr fun t _ => ih t

theorem run_cons_eq_some {s u : σ} {a : α} {as : List α} :
    run step s (a :: as) = some u ↔ ∃ t, step s a = some t ∧ run step t as = some u := by
  rw [run_cons, Option.bind_eq_some_iff]

variable {I P : σ → Prop} {C : σ → α → Prop}

theorem meets_cons {s t : σ} {a : α} {as : List α} (hC : C s a) (hstep : step s a = some t)
    (hmeets : Meets step C t as) : Meets step C s (a :: as) := by
  refine ⟨hC, fun u hu => ?_⟩
  cases hstep.symm.trans hu
  exact hmeets

theorem meets_of_forall {s : σ} {as : List α} (h : ∀ a ∈ as, ∀ t, C t a) : Meets step C s as := by
  induction as generalizing s with
  | nil => trivial
  | cons a as ih =>
    obtain ⟨ha, has⟩ := List.forall_mem_cons.1 h
    exact ⟨ha s, fun t _ => ih has⟩

instance [∀ s a, Decidable (C s a)] : ∀ (s : σ) (as : List α), Decidable (Meets step C s as)
  | _, [] => inferInstanceAs (Decidable True)
  | s, a :: as =>
    have := fun t => instDecidableMeets t as
    inferInstanceAs (Decidable (C s a ∧ ∀ t ∈ step s a, Meets step C t as))

theorem Meets.mono {D : σ → α → Prop} {s : σ} {as : List α} (hC : Meets step C s as)
    (hD : ∀ t a, C t a → D t a) : Meets step D s as := by
  induction as generalizing s with
  | nil => trivial
  | cons a as ih => exact ⟨hD s a hC.1, fun t ht => ih (hC.2 t ht)⟩

theorem Meets.and {D : σ → α → Prop} {s : σ} {as : List α} (hC : Meets step C s as)
    (hD : Meets step D s as) : Meets step (fun s a => C s a ∧ D s a) s as := by
  induction as generalizing s with
  | nil => trivial
  | cons a as ih => exact ⟨⟨hC.1, hD.1⟩, fun t ht => ih (hC.2 t ht) (hD.2 t ht)⟩

theorem invariant_of_meets (hstep : ∀ s a t, I s → C s a → step s a = some t → I t) {s t : σ}
    {as : List α} (hs : I s) (hmeets : Meets step C s as) (hrun : run step s as = some t) :
    I t := by
  induction as generalizing s with
  | nil =>
    obtain ⟨⟩ := hrun
    exact hs
  | cons a as ih =>
    obtain ⟨u, hu, hrun⟩ := run_cons_eq_some.1 hrun
    exact ih (hstep s a u hs hmeets.1 hu) (hmeets.2 u hu) hrun

theorem invariant (hstep : ∀ s a t, I s → step s a = some t → I t) {s t : σ} {as : List α}
    (hs : I s) (hrun : run step s as = some t) : I t :=
  invariant_of_meets (C := fun _ _ => True) (fun s a t hI _ => hstep s a t hI) hs
    (meets_of_forall fun _ _ _ => trivial) hrun

/-- When a step keeps `P` exactly if it meets `C`, so does a run. -/
theorem holds_iff_meets (hinv : ∀ s a t, I s → step s a = some t → I t)
    (hstep : ∀ s a t, I s → step s a = some t → (P t ↔ P s ∧ C s a)) {s t : σ} {as : List α}
    (hs : I s) (hrun : run step s as = some t) : P t ↔ P s ∧ Meets step C s as := by
  induction as generalizing s with
  | nil =>
    obtain ⟨⟩ := hrun
    simp [Meets]
  | cons a as ih =>
    obtain ⟨u, hu, hrun⟩ := run_cons_eq_some.1 hrun
    rw [ih (hinv s a u hs hu) hrun, hstep s a u hs hu, Meets, and_assoc]
    simp [hu]

theorem always_nil {s : σ} : Always step P s [] ↔ P s := by
  constructor
  · exact fun h => h [] s List.prefix_rfl rfl
  · rintro hs bs t hbs hrun
    obtain rfl := List.prefix_nil.1 hbs
    obtain ⟨⟩ := hrun
    exact hs

theorem always_cons {s t : σ} {a : α} {as : List α} (hstep : step s a = some t) :
    Always step P s (a :: as) ↔ P s ∧ Always step P t as := by
  constructor
  · refine fun h => ⟨h [] s List.nil_prefix rfl, fun bs u hbs hrun => ?_⟩
    exact h (a :: bs) u (List.prefix_cons_inj a |>.2 hbs) (run_cons_eq_some.2 ⟨t, hstep, hrun⟩)
  · rintro ⟨hs, hrest⟩ bs u hbs hrun
    cases bs with
    | nil =>
      obtain ⟨⟩ := hrun
      exact hs
    | cons b bs =>
      obtain ⟨rfl, htail⟩ := List.cons_prefix_cons.1 hbs
      obtain ⟨t', ht', hrun⟩ := run_cons_eq_some.1 hrun
      cases hstep.symm.trans ht'
      exact hrest bs u htail hrun

/-- A run stays in `P` exactly if it meets `C`, when a step that does not meet it leads out of `P`,
and one that does keeps what implies `P`. -/
theorem always_iff_meets_of (hholds : ∀ s, I s → P s)
    (hstep : ∀ s a t, I s → step s a = some t → (P t → C s a) ∧ (C s a → I t)) {s t : σ}
    {as : List α} (hs : I s) (hrun : run step s as = some t) :
    Always step P s as ↔ Meets step C s as := by
  induction as generalizing s with
  | nil => simp [always_nil, hholds s hs, Meets]
  | cons a as ih =>
    obtain ⟨u, hu, hrun⟩ := run_cons_eq_some.1 hrun
    obtain ⟨hleaves, hkeeps⟩ := hstep s a u hs hu
    rw [always_cons hu, Meets]
    constructor
    · rintro ⟨_, hrest⟩
      have hC := hleaves (hrest [] u List.nil_prefix rfl)
      refine ⟨hC, fun v hv => ?_⟩
      cases hu.symm.trans hv
      exact (ih (hkeeps hC) hrun).1 hrest
    · rintro ⟨hC, hrest⟩
      exact ⟨hholds s hs, (ih (hkeeps hC) hrun).2 (hrest u hu)⟩

/-- When a step from a state of `P` leads to one exactly if it meets `C`, a run stays in `P`
exactly if it meets `C`. -/
theorem always_iff_meets (hinv : ∀ s a t, I s → step s a = some t → I t)
    (hstep : ∀ s a t, I s → P s → step s a = some t → (P t ↔ C s a)) {s t : σ} {as : List α}
    (hs : I s) (hP : P s) (hrun : run step s as = some t) :
    Always step P s as ↔ Meets step C s as := by
  refine always_iff_meets_of (I := fun s => I s ∧ P s) (fun _ h => h.2) (fun s a t h ht => ?_)
    ⟨hs, hP⟩ hrun
  have hiff : P t ↔ C s a := hstep s a t h.1 h.2 ht
  exact ⟨hiff.1, fun hC => ⟨hinv s a t h.1 ht, hiff.2 hC⟩⟩

end TheokitGateways.Transition
