/-!
# Stretches taken from the left

A global search takes stretches of a text from the left, each that overlaps none it
has taken. `Taken` says from which places it takes one, of whatever relation holds
between the two ends of a stretch; `Settled` is what a search that goes from place
to place keeps.
-/

namespace TheokitGateways.Js

section
variable (R : Nat → Nat → Prop)

/-- A stretch is taken from a place at which none that was taken before goes on. -/
def Taken (i : Nat) : Prop :=
  (∃ j, R i j) ∧ ∀ i', i' < i → Taken i' → ∀ j, R i' j → j ≤ i
termination_by i

/-- Every stretch that is taken from before a place ends before it. -/
def Settled (n : Nat) : Prop := ∀ i, i < n → Taken R i → ∀ j, R i j → j ≤ n

theorem settled_zero : Settled R 0 := fun _ h => absurd h (Nat.not_lt_zero _)

end

namespace Settled
variable {R : Nat → Nat → Prop} {n m i j : Nat}

theorem taken (h : Settled R n) (hstretch : R n j) : Taken R n := by
  rw [Taken]
  exact ⟨⟨j, hstretch⟩, h⟩

/-- No stretch begins on the way to a place. -/
theorem of_none (h : Settled R n) (hle : n ≤ m) (hnone : ∀ i, n ≤ i → i < m → ∀ j, ¬R i j) :
    Settled R m := by
  intro i hi htaken j hstretch
  obtain hlt | hge := Nat.lt_or_ge i n
  · exact Nat.le_trans (h i hlt htaken j hstretch) hle
  · exact (hnone i hge hi j hstretch).elim

/-- Nothing is taken from inside a stretch that is taken. -/
theorem not_taken (h : Settled R n) (hstretch : R n m) (hi : n < i) (him : i < m) :
    ¬Taken R i := by
  intro htaken
  rw [Taken] at htaken
  exact Nat.not_le_of_lt him (htaken.2 n hi (h.taken hstretch) m hstretch)

/-- A stretch whose beginning settles its end is taken as a whole. -/
theorem of_stretch (h : Settled R n) (hstretch : R n m) (hle : n ≤ m)
    (heq : ∀ j, R n j → j = m) : Settled R m := by
  intro i hi htaken j hstretch'
  obtain hlt | rfl | hgt := Nat.lt_trichotomy i n
  · exact Nat.le_trans (h i hlt htaken j hstretch') hle
  · exact Nat.le_of_eq (heq j hstretch')
  · exact (h.not_taken hstretch hgt hi htaken).elim

end Settled

end TheokitGateways.Js
