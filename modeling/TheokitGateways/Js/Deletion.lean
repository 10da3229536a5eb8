import TheokitGateways.Js.Text

/-!
# Deleting units of a text

A text from which units are deleted is its units, each with whether it stays.
-/

namespace TheokitGateways.Js

/-- A text unit by unit, each with whether it stays. -/
abbrev Units := List (UInt16 × Bool)

/-- The units that stay. -/
def kept (units : Units) : JsString := (units.filter Prod.snd).map Prod.fst

/-- The units of a text that goes. -/
def dropped (marker : JsString) : Units := marker.map fun c => (c, false)

/-- The units of a text that stays. -/
def copied (text : JsString) : Units := text.map fun c => (c, true)

@[simp] theorem kept_nil : kept [] = [] := rfl

@[simp] theorem kept_append (a b : Units) : kept (a ++ b) = kept a ++ kept b := by
  simp [kept]

@[simp] theorem kept_cons_true (c : UInt16) (a : Units) : kept ((c, true) :: a) = c :: kept a := by
  simp [kept]

@[simp] theorem kept_cons_false (c : UInt16) (a : Units) : kept ((c, false) :: a) = kept a := by
  simp [kept]

@[simp] theorem kept_dropped (marker : JsString) : kept (dropped marker) = [] := by
  simp [kept, dropped]

@[simp] theorem kept_copied (text : JsString) : kept (copied text) = text := by
  induction text with
  | nil => rfl
  | cons c text ih => exact (kept_cons_true c _).trans (congrArg (c :: ·) ih)

@[simp] theorem map_fst_dropped (marker : JsString) : (dropped marker).map Prod.fst = marker := by
  simp [dropped, Function.comp_def]

@[simp] theorem map_fst_copied (text : JsString) : (copied text).map Prod.fst = text := by
  simp [copied, Function.comp_def]

@[simp] theorem length_dropped (marker : JsString) : (dropped marker).length = marker.length :=
  List.length_map _

@[simp] theorem length_copied (text : JsString) : (copied text).length = text.length :=
  List.length_map _

theorem mem_dropped_append {p : UInt16 × Bool → Prop} {marker : JsString} {rest : Units}
    (hmarker : ∀ c ∈ marker, p (c, false)) (hrest : ∀ u ∈ rest, p u) :
    ∀ u ∈ dropped marker ++ rest, p u := by
  intro u hu
  obtain hu | hu := List.mem_append.1 hu
  · obtain ⟨c, hc, rfl⟩ := List.mem_map.1 hu
    exact hmarker c hc
  · exact hrest u hu

/-- A text is another from which only units of `marks` are deleted. -/
def DeletesOnly (marks text out : JsString) : Prop :=
  ∃ units : Units, units.map Prod.fst = text ∧ kept units = out ∧
    ∀ u ∈ units, u.2 = false → u.1 ∈ marks

theorem deletesOnly_nil (marks : JsString) : DeletesOnly marks [] [] := ⟨[], rfl, rfl, by simp⟩

theorem DeletesOnly.append {marks a a' b b' : JsString} (ha : DeletesOnly marks a a')
    (hb : DeletesOnly marks b b') : DeletesOnly marks (a ++ b) (a' ++ b') := by
  obtain ⟨us, rfl, rfl, hus⟩ := ha
  obtain ⟨vs, rfl, rfl, hvs⟩ := hb
  refine ⟨us ++ vs, List.map_append, kept_append us vs, fun u hu => ?_⟩
  exact (List.mem_append.1 hu).elim (hus u) (hvs u)

theorem deletesOnly_refl (marks text : JsString) : DeletesOnly marks text text := by
  refine ⟨copied text, map_fst_copied text, kept_copied text, fun u hu hfalse => ?_⟩
  obtain ⟨c, _, rfl⟩ := List.mem_map.1 hu
  cases hfalse

theorem deletesOnly_marker {marks marker : JsString} (h : ∀ c ∈ marker, c ∈ marks) :
    DeletesOnly marks marker [] := by
  refine ⟨dropped marker, map_fst_dropped marker, kept_dropped marker, fun u hu _ => ?_⟩
  obtain ⟨c, hc, rfl⟩ := List.mem_map.1 hu
  exact h c hc

end TheokitGateways.Js
