import TheokitGateways.Async.Prog

/-!
# Sending parts in turn

A loop that awaits one send after another and ends at the first refusal. `takes`
tells from an event which part the other side has taken with it, and under which
name. When every send has its part taken once if it succeeds and not at all if it
does not (`Takes`), the parts taken in any run of the loop are the first of the
list, in order, and the loop succeeds exactly when they are all of it
(`runs_inTurn`).
-/

namespace TheokitGateways.Async
namespace Prog

variable {Call : Type} {Answer : Call → Type} {ε ω α β A R Part I : Type}

/-- A program that goes on has neither returned nor thrown. -/
theorem ne_of_not_finished {p : Prog Call Answer ε ω α} (h : p.finished = false) :
    (∀ a, p ≠ .ret a) ∧ ∀ e, p ≠ .throw e := by
  cases p with
  | ret a => cases h
  | throw e => cases h
  | call c k => exact ⟨fun _ heq => (nomatch heq), fun _ heq => (nomatch heq)⟩
  | emit o k => exact ⟨fun _ heq => (nomatch heq), fun _ heq => (nomatch heq)⟩

/-- Whatever the calls answer, the program does not throw, and what it returns is in `P`. -/
def Returns (P : α → Prop) : Prog Call Answer ε ω α → Prop
  | .ret a => P a
  | .throw _ => False
  | .call _ k => ∀ r, Returns P (k r)
  | .emit _ k => Returns P k

/-- As long as its calls answer as `H` says, the program does not throw, and what it returns is in
`P`. -/
def ReturnsUnder (H : ∀ c, Except ε (Answer c) → Prop) (P : α → Prop) :
    Prog Call Answer ε ω α → Prop
  | .ret a => P a
  | .throw _ => False
  | .call c k => ∀ r, H c r → ReturnsUnder H P (k r)
  | .emit _ k => ReturnsUnder H P k

section
variable {H : ∀ c, Except ε (Answer c) → Prop} {P : α → Prop} {p : Prog Call Answer ε ω α}

theorem ReturnsUnder.bind {Q : β → Prop} {f : α → Prog Call Answer ε ω β}
    (hp : p.ReturnsUnder H P) (hf : ∀ a, P a → (f a).ReturnsUnder H Q) :
    (p >>= f).ReturnsUnder H Q := by
  induction p with
  | ret a => exact hf a hp
  | throw e => exact hp.elim
  | call c k ih => exact fun r hr => ih r (hp r hr)
  | emit o k ih => exact ih hp

/-- What a run returns in which every call was answered as `H` says. -/
theorem ReturnsUnder.of_runs (hp : p.ReturnsUnder H P) {t : List (Event Call Answer ε ω)}
    {q : Prog Call Answer ε ω α} (h : Runs p t q) (ht : ∀ c r, .answered c r ∈ t → H c r) :
    q.ReturnsUnder H P := by
  induction h with
  | nil => exact hp
  | answered r _ ih =>
    exact ih (hp r (ht _ _ List.mem_cons_self)) fun c r hr => ht c r (List.mem_cons_of_mem _ hr)
  | emitted _ ih => exact ih hp fun c r hr => ht c r (List.mem_cons_of_mem _ hr)

/-- In an environment that answers as `H` says, the program comes to its end. -/
theorem ReturnsUnder.exists_run (hp : p.ReturnsUnder H P) {env : ∀ c, Except ε (Answer c)}
    (henv : ∀ c, H c (env c)) :
    ∃ t a, Runs p t (.ret a) ∧ P a ∧ ∀ c r, .answered c r ∈ t → r = env c := by
  induction p with
  | ret a => exact ⟨[], a, .nil _, hp, fun _ _ hr => nomatch hr⟩
  | throw e => exact hp.elim
  | call c k ih =>
    obtain ⟨t, a, hrun, ha, ht⟩ := ih (env c) (hp _ (henv c))
    refine ⟨_, a, .answered _ hrun, ha, fun c' r hr => ?_⟩
    obtain hhead | hr := List.mem_cons.1 hr
    · cases hhead
      rfl
    · exact ht c' r hr
  | emit o k ih =>
    obtain ⟨t, a, hrun, ha, ht⟩ := ih hp
    refine ⟨_, a, .emitted hrun, ha, fun c r hr => ht c r ?_⟩
    exact (List.mem_cons.1 hr).resolve_left nofun

end

/-- One send after another, each from what the sends before came to. -/
def inTurn (send : A → Part → Prog Call Answer ε ω (Except R A)) (a : A) :
    List Part → Prog Call Answer ε ω (Except R A)
  | [] => .ret (.ok a)
  | part :: parts => do
    match ← send a part with
    | .ok a' => inTurn send a' parts
    | .error refusal => .ret (.error refusal)

/-- What is left of a send whose part was taken under the name `i`: nothing more is taken, and it
succeeds and notes the name. -/
def TakenAs (takes : Event Call Answer ε ω → Option (Part × I)) (note : A → I → A) (a : A) (i : I) :
    Prog Call Answer ε ω (Except R A) → Prop
  | .ret (.ok a') => a' = note a i
  | .ret (.error _) | .throw _ => False
  | .call c k => ∀ r, takes (.answered c r) = none ∧ TakenAs takes note a i (k r)
  | .emit o k => takes (.emitted o) = none ∧ TakenAs takes note a i k

/-- A send of a part, by what it may refuse with: it succeeds when the part has been taken, once,
and refuses otherwise. -/
def Takes (takes : Event Call Answer ε ω → Option (Part × I)) (note : A → I → A) (a : A)
    (part : Part) (refuses : R → Prop) : Prog Call Answer ε ω (Except R A) → Prop
  | .ret (.ok _) => False
  | .ret (.error refusal) => refuses refusal
  | .throw _ => False
  | .call c k => ∀ r,
    (takes (.answered c r) = none ∧ Takes takes note a part refuses (k r)) ∨
      ∃ i, takes (.answered c r) = some (part, i) ∧ TakenAs takes note a i (k r)
  | .emit o k => takes (.emitted o) = none ∧ Takes takes note a part refuses k

section
variable {takes : Event Call Answer ε ω → Option (Part × I)} {note : A → I → A}
  {send : A → Part → Prog Call Answer ε ω (Except R A)} {a : A} {i : I} {part : Part}
  {parts : List Part} {refuses : R → Prop} {t : List (Event Call Answer ε ω)}
  {p q : Prog Call Answer ε ω (Except R A)}

theorem TakenAs.runs (hp : TakenAs takes note a i p) (h : Runs p t q) :
    t.filterMap takes = [] ∧ TakenAs takes note a i q := by
  induction h with
  | nil => exact ⟨rfl, hp⟩
  | answered r _ ih =>
    obtain ⟨hnone, hrest⟩ := hp r
    rw [List.filterMap_cons_none hnone]
    exact ih hrest
  | emitted _ ih =>
    obtain ⟨hnone, hrest⟩ := hp
    rw [List.filterMap_cons_none hnone]
    exact ih hrest

/-- In every run the part has not been taken, or has been once. -/
theorem Takes.runs (hp : Takes takes note a part refuses p) (h : Runs p t q) :
    (t.filterMap takes = [] ∧ Takes takes note a part refuses q) ∨
      ∃ i, t.filterMap takes = [(part, i)] ∧ TakenAs takes note a i q := by
  induction h with
  | nil => exact .inl ⟨rfl, hp⟩
  | answered r hrun ih =>
    obtain ⟨hnone, hrest⟩ | ⟨i, hsome, hrest⟩ := hp r
    · rw [List.filterMap_cons_none hnone]
      exact ih hrest
    · obtain ⟨hno, hq⟩ := hrest.runs hrun
      rw [List.filterMap_cons_some hsome, hno]
      exact .inr ⟨i, rfl, hq⟩
  | emitted _ ih =>
    obtain ⟨hnone, hrest⟩ := hp
    rw [List.filterMap_cons_none hnone]
    exact ih hrest

/-- What has come of a loop over the parts: those taken are the first of them, and if it has ended,
they are all, or the next one was refused, from what the ones before came to. -/
structure InTurn (takes : Event Call Answer ε ω → Option (Part × I)) (note : A → I → A) (a : A)
    (refuses : A → Part → R → Prop) (parts : List Part) (t : List (Event Call Answer ε ω))
    (q : Prog Call Answer ε ω (Except R A)) : Prop where
  first : (t.filterMap takes).map Prod.fst <+: parts
  answers : ∀ e, q ≠ .throw e
  succeeded : ∀ a', q = .ret (.ok a') → (t.filterMap takes).map Prod.fst = parts ∧
    a' = ((t.filterMap takes).map Prod.snd).foldl note a
  refused : ∀ refusal, q = .ret (.error refusal) →
    ∃ part rest, parts = (t.filterMap takes).map Prod.fst ++ part :: rest ∧
      refuses (((t.filterMap takes).map Prod.snd).foldl note a) part refusal

variable {refuses : A → Part → R → Prop}

/-- The loop is at its first part, which has been taken or not. -/
theorem inTurn_at_first (hq : q.finished = false)
    (ht : t.filterMap takes = [] ∨ ∃ i, t.filterMap takes = [(part, i)]) :
    InTurn takes note a refuses (part :: parts) t q where
  first := by
    obtain hnone | ⟨i, hone⟩ := ht
    · rw [hnone]
      exact List.nil_prefix
    · rw [hone]
      exact List.prefix_append [part] parts
  answers := (ne_of_not_finished hq).2
  succeeded a' ha' := ((ne_of_not_finished hq).1 _ ha').elim
  refused refusal hrefusal := ((ne_of_not_finished hq).1 _ hrefusal).elim

/-- The first send is refused. -/
theorem inTurn_refused {refusal : R} (ht : t.filterMap takes = [])
    (hrefused : refuses a part refusal) :
    InTurn takes note a refuses (part :: parts) t (.ret (.error refusal)) where
  first := by
    rw [ht]
    exact List.nil_prefix
  answers _ heq := nomatch heq
  succeeded _ heq := nomatch heq
  refused _ heq := by
    cases heq
    rw [ht]
    exact ⟨part, parts, rfl, hrefused⟩

/-- The first part is taken, and the loop goes on from it. -/
theorem InTurn.cons {t' : List (Event Call Answer ε ω)} (ht : t.filterMap takes = [(part, i)])
    (h : InTurn takes note (note a i) refuses parts t' q) :
    InTurn takes note a refuses (part :: parts) (t ++ t') q := by
  have htaken : (t ++ t').filterMap takes = (part, i) :: t'.filterMap takes := by
    rw [List.filterMap_append, ht]
    rfl
  constructor
  · rw [htaken]
    exact List.cons_prefix_cons.2 ⟨rfl, h.first⟩
  · exact h.answers
  · intro a' ha'
    obtain ⟨hall, hnote⟩ := h.succeeded a' ha'
    rw [htaken, List.map_cons, hall]
    exact ⟨rfl, hnote⟩
  · intro refusal hrefusal
    obtain ⟨next, rest, hparts, hrefused⟩ := h.refused refusal hrefusal
    rw [htaken, hparts]
    exact ⟨next, rest, rfl, hrefused⟩

theorem runs_inTurn (hsend : ∀ a part, Takes takes note a part (refuses a part) (send a part))
    (h : Runs (inTurn send a parts) t q) : InTurn takes note a refuses parts t q := by
  induction parts generalizing a t with
  | nil =>
    obtain ⟨rfl, rfl⟩ := runs_ret.1 h
    refine ⟨List.prefix_rfl, fun _ heq => (nomatch heq), fun a' ha' => ?_,
      fun _ heq => (nomatch heq)⟩
    cases ha'
    exact ⟨rfl, rfl⟩
  | cons part parts ih =>
    obtain ⟨p', hp, hlive, rfl⟩ | ⟨e, hp, rfl⟩ | ⟨t₁, t₂, r, rfl, hp, hrest⟩ := Runs.of_bind h
    · refine inTurn_at_first (finished_bind hlive) ?_
      exact ((hsend a part).runs hp).imp And.left fun ⟨i, hone, _⟩ => ⟨i, hone⟩
    · obtain ⟨_, hthrown⟩ | ⟨i, _, hthrown⟩ := (hsend a part).runs hp
      · exact hthrown.elim
      · exact hthrown.elim
    · cases r with
      | error refusal =>
        obtain ⟨rfl, rfl⟩ := runs_ret.1 hrest
        rw [List.append_nil]
        obtain ⟨hnone, hrefused⟩ | ⟨i, _, hreturned⟩ := (hsend a part).runs hp
        · exact inTurn_refused hnone hrefused
        · exact hreturned.elim
      | ok a' =>
        obtain ⟨_, hreturned⟩ | ⟨i, hone, hnote⟩ := (hsend a part).runs hp
        · exact hreturned.elim
        · cases hnote
          exact (ih hrest).cons hone

theorem CallsIn.mono {P Q : Call → Prop} {p : Prog Call Answer ε ω α} (hp : p.CallsIn P)
    (h : ∀ c, P c → Q c) : p.CallsIn Q := by
  induction p with
  | ret a => trivial
  | throw e => trivial
  | call c k ih => exact ⟨h c hp.1, fun r => ih r (hp.2 r)⟩
  | emit o k ih => exact ih hp

/-- A loop succeeds when its sends do. -/
theorem returnsUnder_inTurn {H : ∀ c, Except ε (Answer c) → Prop}
    (hsend : ∀ a part, (send a part).ReturnsUnder H fun r => ∃ a', r = .ok a') (a : A)
    (parts : List Part) : (inTurn send a parts).ReturnsUnder H fun r => ∃ a', r = .ok a' := by
  induction parts generalizing a with
  | nil => exact ⟨a, rfl⟩
  | cons part parts ih =>
    refine (hsend a part).bind fun r hr => ?_
    obtain ⟨a', rfl⟩ := hr
    exact ih a'

/-- A loop makes the calls of its sends. -/
theorem callsIn_inTurn {P : Call → Prop} (hsend : ∀ a part, (send a part).CallsIn P) (a : A)
    (parts : List Part) : (inTurn send a parts).CallsIn P := by
  induction parts generalizing a with
  | nil => trivial
  | cons part parts ih =>
    refine (hsend a part).bind fun r => ?_
    cases r with
    | error refusal => trivial
    | ok a' => exact ih a'

end

end Prog

end TheokitGateways.Async
