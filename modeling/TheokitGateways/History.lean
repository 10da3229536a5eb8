/-!
# Histories

A history is a list of events, the newest first. `Each` says something of every
event and what came before it, and so states a safety property: it holds of a
longer history when it does of the shorter one and of the event added. `Open`
says that something was begun and not ended since.
-/

namespace TheokitGateways.History

variable {α : Type}

/-- Every event is `P` after what came before it. -/
def Each (P : α → List α → Prop) : List α → Prop
  | [] => True
  | e :: past => P e past ∧ Each P past

/-- An event opened something that none has closed since. -/
def Open (opens closes : α → Bool) : List α → Prop
  | [] => False
  | e :: past => opens e = true ∨ closes e = false ∧ Open opens closes past

variable {P : α → List α → Prop} {opens closes : α → Bool}

@[simp] theorem each_nil : Each P [] := trivial

@[simp] theorem each_cons {e : α} {past : List α} :
    Each P (e :: past) ↔ P e past ∧ Each P past := Iff.rfl

@[simp] theorem not_open_nil : ¬Open opens closes [] := id

@[simp] theorem open_cons {e : α} {past : List α} :
    Open opens closes (e :: past) ↔ opens e = true ∨ closes e = false ∧ Open opens closes past :=
  Iff.rfl

instance decidableOpen (opens closes : α → Bool) :
    (h : List α) → Decidable (Open opens closes h)
  | [] => .isFalse id
  | _ :: past =>
    have := decidableOpen opens closes past
    decidable_of_iff' _ open_cons

/-- Events that are `P` after any past. -/
theorem Each.append {es past : List α} (hes : ∀ e ∈ es, ∀ h, P e h) (h : Each P past) :
    Each P (es ++ past) := by
  induction es with
  | nil => exact h
  | cons e es ih =>
    exact ⟨hes e List.mem_cons_self _, ih fun e' he' => hes e' (List.mem_cons_of_mem _ he')⟩

theorem open_append {es past : List α} :
    Open opens closes (es ++ past) ↔
      Open opens closes es ∨ (∀ e ∈ es, closes e = false) ∧ Open opens closes past := by
  induction es with
  | nil => simp
  | cons e es ih =>
    rw [List.cons_append, open_cons, open_cons, ih, List.forall_mem_cons]
    grind

theorem not_open_of_forall {es : List α} (h : ∀ e ∈ es, opens e = false) :
    ¬Open opens closes es := by
  induction es with
  | nil => exact id
  | cons e es ih =>
    obtain ⟨he, hes⟩ := List.forall_mem_cons.1 h
    simp [he, ih hes]

/-- Events that open nothing leave open what was, unless they close it. -/
theorem open_of_append {es past : List α} (h : ∀ e ∈ es, opens e = false)
    (hopen : Open opens closes (es ++ past)) :
    (∀ e ∈ es, closes e = false) ∧ Open opens closes past := by
  obtain hes | hpast := open_append.1 hopen
  · exact absurd hes (not_open_of_forall h)
  · exact hpast

end TheokitGateways.History
