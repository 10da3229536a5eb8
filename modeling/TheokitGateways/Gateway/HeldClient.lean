import TheokitGateways.Transition

/-!
# A client that is held

`connect` stores a client before it knows whether the platform accepts it, and a
send looks at what is stored. `HeldClient` is what both depend on: how far the
latest call has come, and whether a client is held. The two agree as long as no
`connect` fails that has stored a client. `Realizes` says that a transition system
moves as `HeldClient` does; `always_iff_meets` carries the result over.
-/

namespace TheokitGateways.Gateway
open Transition

/-- How far the latest call of `connect` or `disconnect` has come. -/
inductive Phase where
  /-- No call was made, or the latest was a `disconnect` or a `connect` that failed. -/
  | down
  /-- A `connect` is pending that has stored no client, or one that has. -/
  | loading | trying
  /-- The latest call was a `connect` that succeeded. -/
  | up
  deriving DecidableEq

structure HeldClient where
  phase : Phase
  held : Bool

inductive HeldEvent where
  | idle
  | loads
  | creates
  | fails
  | opens
  /-- A `disconnect` that lets go of the client, or leaves what is held alone. -/
  | closes (drops : Bool)

namespace HeldClient

/-- Every call has settled before the next one is made. -/
def Enables (c : HeldClient) : HeldEvent → Prop
  | .idle => True
  | .loads => c.phase = .down
  | .creates => c.phase = .down ∨ c.phase = .loading
  | .fails => c.phase = .loading ∨ c.phase = .trying
  | .opens => c.phase = .trying
  | .closes drops => c.phase = .down ∨ c.phase = .up ∧ drops = true

def apply (c : HeldClient) : HeldEvent → HeldClient
  | .idle => c
  | .loads => { c with phase := .loading }
  | .creates => ⟨.trying, true⟩
  | .fails => { c with phase := .down }
  | .opens => { c with phase := .up }
  | .closes drops => ⟨.down, c.held && !drops⟩

/-- No client is held while there is no connection. -/
def Gated (c : HeldClient) : Prop := c.phase = .down → c.held = false

/-- A `connect` that fails has stored no client. -/
def Clean (c : HeldClient) : HeldEvent → Prop
  | .fails => c.phase ≠ .trying
  | _ => True

/-- A client is held exactly while there is a connection, or one is being tried. -/
def Sound (c : HeldClient) : Prop := c.held = true ↔ c.phase = .trying ∨ c.phase = .up

theorem Sound.gated {c : HeldClient} (h : c.Sound) : c.Gated := by
  intro hdown
  refine Bool.eq_false_iff.2 fun hheld => ?_
  have hphase := h.1 hheld
  rw [hdown] at hphase
  simp at hphase

/-- A step from a sound state leaves the gate shut exactly if it is clean, and is sound then. -/
theorem Sound.apply {c : HeldClient} (h : c.Sound) {e : HeldEvent} (he : c.Enables e) :
    ((c.apply e).Gated → c.Clean e) ∧ (c.Clean e → (c.apply e).Sound) := by
  obtain ⟨phase, held⟩ := c
  cases e with
  | idle => exact ⟨fun _ => trivial, fun _ => h⟩
  | loads =>
    obtain rfl : phase = .down := he
    exact ⟨fun _ => trivial, fun _ => by simpa [Sound, HeldClient.apply] using h⟩
  | creates => exact ⟨fun _ => trivial, fun _ => by simp [Sound, HeldClient.apply]⟩
  | fails =>
    obtain hphase | hphase := he
    · obtain rfl : phase = .loading := hphase
      exact ⟨fun _ => by simp [Clean], fun _ => by simpa [Sound, HeldClient.apply] using h⟩
    · obtain rfl : phase = .trying := hphase
      refine ⟨fun hgated => ?_, fun hclean => absurd rfl hclean⟩
      have hheld : held = true := h.2 (.inl rfl)
      cases hheld.symm.trans (hgated rfl)
  | opens =>
    obtain rfl : phase = .trying := he
    exact ⟨fun _ => trivial, fun _ => by simpa [Sound, HeldClient.apply] using h⟩
  | closes drops =>
    refine ⟨fun _ => trivial, fun _ => ?_⟩
    obtain hphase | ⟨hphase, rfl⟩ := he
    · obtain rfl : phase = .down := hphase
      have hheld : held = false := h.gated rfl
      simp [Sound, HeldClient.apply, hheld]
    · simp [Sound, HeldClient.apply]

end HeldClient

section Realizes

variable {σ α : Type}

/-- A transition system whose steps are those of the client it holds. -/
structure Realizes (step : σ → α → Option σ) (Inv : σ → Prop) (view : σ → HeldClient)
    (event : σ → α → HeldEvent) : Prop where
  inv : ∀ s a t, Inv s → step s a = some t → Inv t
  enabled : ∀ s a t, Inv s → step s a = some t → (view s).Enables (event s a)
  moves : ∀ s a t, Inv s → step s a = some t → view t = (view s).apply (event s a)

variable {step : σ → α → Option σ} {Inv : σ → Prop} {view : σ → HeldClient}
  {event : σ → α → HeldEvent} {P : σ → Prop} {C : σ → α → Prop}

/-- A property that holds where the gate is shut holds all through the runs whose steps are clean,
and all through no others. -/
theorem Realizes.always_iff_meets (h : Realizes step Inv view event)
    (hP : ∀ s, Inv s → (P s ↔ (view s).Gated))
    (hC : ∀ s a t, Inv s → step s a = some t → (C s a ↔ (view s).Clean (event s a)))
    {s t : σ} {as : List α} (hs : Inv s) (hsound : (view s).Sound)
    (hrun : run step s as = some t) : Always step P s as ↔ Meets step C s as := by
  refine always_iff_meets_of (I := fun s => Inv s ∧ (view s).Sound)
    (fun s hI => (hP s hI.1).2 hI.2.gated) (fun s a t hI hstep => ?_) ⟨hs, hsound⟩ hrun
  obtain ⟨hopen, hkept⟩ := hI.2.apply (h.enabled s a t hI.1 hstep)
  rw [← h.moves s a t hI.1 hstep] at hopen hkept
  have hclean := hC s a t hI.1 hstep
  have hinv := h.inv s a t hI.1 hstep
  exact ⟨fun ht => hclean.2 (hopen ((hP t hinv).1 ht)), fun ha => ⟨hinv, hkept (hclean.1 ha)⟩⟩

end Realizes

end TheokitGateways.Gateway
