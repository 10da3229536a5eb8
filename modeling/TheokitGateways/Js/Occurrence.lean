/-!
# Where a word stands in a text

A word stands in a text between what is before it and what follows, and a
`Boundary` says what both may be. `search` looks for such a place from the front
of the text, and finds one whenever there is one (`search_iff`). The items of a
text are any.
-/

namespace TheokitGateways.Js

/-- What may be before a word, told by its last item, and what may follow the word. -/
structure Boundary (α : Type) where
  behind : Option α → Bool
  ahead : List α → Bool

namespace Boundary

variable {α : Type}

/-- The word stands in the text, with what the boundary allows on both sides. -/
def Stands (p : Boundary α) (w s : List α) : Prop :=
  ∃ before after, s = before ++ (w ++ after) ∧ p.behind before.getLast? = true ∧
    p.ahead after = true

/-- A word stands where either of two boundaries lets it. -/
theorem stands_iff_or {p q r : Boundary α} {w s : List α} (hq : q.behind = p.behind)
    (hr : r.behind = p.behind)
    (h : ∀ after, p.ahead after = true ↔ q.ahead after = true ∨ r.ahead after = true) :
    p.Stands w s ↔ q.Stands w s ∨ r.Stands w s := by
  constructor
  · rintro ⟨before, after, hs, hbehind, hahead⟩
    obtain hahead | hahead := (h after).1 hahead
    · exact .inl ⟨before, after, hs, hq ▸ hbehind, hahead⟩
    · exact .inr ⟨before, after, hs, hr ▸ hbehind, hahead⟩
  · rintro (⟨before, after, hs, hbehind, hahead⟩ | ⟨before, after, hs, hbehind, hahead⟩)
    · exact ⟨before, after, hs, hq ▸ hbehind, (h after).2 (.inl hahead)⟩
    · exact ⟨before, after, hs, hr ▸ hbehind, (h after).2 (.inr hahead)⟩

variable [DecidableEq α]

/-- The word stands at the front of a text that follows `prev`. -/
def standsAt (p : Boundary α) (w : List α) (prev : Option α) (s : List α) : Bool :=
  p.behind prev && (w.isPrefixOf s && p.ahead (s.drop w.length))

def searchFrom (p : Boundary α) (w : List α) : Option α → List α → Bool
  | prev, [] => p.standsAt w prev []
  | prev, c :: s => p.standsAt w prev (c :: s) || p.searchFrom w (some c) s

def search (p : Boundary α) (w s : List α) : Bool := p.searchFrom w none s

variable {p : Boundary α} {w s : List α}

theorem standsAt_iff {prev : Option α} :
    p.standsAt w prev s = true ↔
      p.behind prev = true ∧ ∃ after, s = w ++ after ∧ p.ahead after = true := by
  rw [standsAt, Bool.and_eq_true, Bool.and_eq_true, List.isPrefixOf_iff_prefix]
  constructor
  · rintro ⟨hbehind, ⟨after, rfl⟩, hahead⟩
    rw [List.drop_left] at hahead
    exact ⟨hbehind, after, rfl, hahead⟩
  · rintro ⟨hbehind, after, rfl, hahead⟩
    rw [List.drop_left]
    exact ⟨hbehind, List.prefix_append w after, hahead⟩

/-- The search goes on to every place that is left. -/
theorem searchFrom_iff {prev : Option α} :
    p.searchFrom w prev s = true ↔ ∃ before after, s = before ++ (w ++ after) ∧
      p.behind (before.getLast?.or prev) = true ∧ p.ahead after = true := by
  induction s generalizing prev with
  | nil =>
    rw [searchFrom, standsAt_iff]
    constructor
    · rintro ⟨hbehind, after, hs, hahead⟩
      exact ⟨[], after, hs, hbehind, hahead⟩
    · rintro ⟨before, after, hs, hbehind, hahead⟩
      obtain ⟨rfl, hnil⟩ := List.append_eq_nil_iff.1 hs.symm
      exact ⟨hbehind, after, hnil.symm, hahead⟩
  | cons c s ih =>
    rw [searchFrom, Bool.or_eq_true, standsAt_iff, ih]
    have hlast (before : List α) :
        (c :: before).getLast?.or prev = before.getLast?.or (some c) := by
      rw [List.getLast?_cons]
      cases before.getLast? <;> rfl
    constructor
    · rintro (⟨hbehind, after, hs, hahead⟩ | ⟨before, after, rfl, hbehind, hahead⟩)
      · exact ⟨[], after, hs, hbehind, hahead⟩
      · exact ⟨c :: before, after, rfl, hlast before ▸ hbehind, hahead⟩
    · rintro ⟨before, after, hs, hbehind, hahead⟩
      cases before with
      | nil => exact .inl ⟨hbehind, after, hs, hahead⟩
      | cons d before =>
        obtain ⟨rfl, rfl⟩ := List.cons.inj hs
        exact .inr ⟨before, after, rfl, hlast before ▸ hbehind, hahead⟩

theorem search_iff : p.search w s = true ↔ p.Stands w s := by
  rw [search, searchFrom_iff]
  simp only [Option.or_none]
  rfl

instance : Decidable (p.Stands w s) := decidable_of_iff _ search_iff

end Boundary

end TheokitGateways.Js
