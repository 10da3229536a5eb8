import TheokitGateways.Js.Text

/-!
# Lines of a stream

A reader of lines is given a stream in chunks, and keeps what has not ended yet for
the next one. `ends` are the units that end a line to it. Records that were written
one a line are read as they were, however far the reader has come
(`filterMap_cutLinesBy_mono`).
-/

namespace TheokitGateways.Js

/-- The lines of a text that have ended, and what comes after them, for a reader to which
`ends` end a line. -/
def cutLinesBy (ends : UInt16 → Bool) : JsString → List JsString × JsString
  | [] => ([], [])
  | c :: s =>
    if ends c then ([] :: (cutLinesBy ends s).1, (cutLinesBy ends s).2)
    else
      match cutLinesBy ends s with
      | ([], rest) => ([], c :: rest)
      | (line :: lines, rest) => ((c :: line) :: lines, rest)

variable {ends : UInt16 → Bool}

/-- What has not ended yet is read again with what follows it. -/
theorem cutLinesBy_append (s t : JsString) : cutLinesBy ends (s ++ t) =
    ((cutLinesBy ends s).1 ++ (cutLinesBy ends ((cutLinesBy ends s).2 ++ t)).1,
      (cutLinesBy ends ((cutLinesBy ends s).2 ++ t)).2) := by
  induction s with
  | nil => rfl
  | cons c s ih =>
    rw [List.cons_append]
    by_cases hc : ends c = true
    · grind [cutLinesBy]
    · cases hlines : (cutLinesBy ends s).1 with
      | nil => grind [cutLinesBy]
      | cons line lines => grind [cutLinesBy]

theorem cutLinesBy_line {line : JsString} (h : ∀ c ∈ line, ends c = false) {e : UInt16}
    (he : ends e = true) (rest : JsString) : cutLinesBy ends (line ++ e :: rest) =
      (line :: (cutLinesBy ends rest).1, (cutLinesBy ends rest).2) := by
  induction line with
  | nil => rw [List.nil_append, cutLinesBy, if_pos he]
  | cons c line ih =>
    obtain ⟨hc, hline⟩ := List.forall_mem_cons.1 h
    rw [List.cons_append, cutLinesBy, hc, ih hline]
    rfl

/-- Lines that have ended stay what they are. -/
theorem cutLinesBy_mono {s t : JsString} (h : s <+: t) :
    (cutLinesBy ends s).1 <+: (cutLinesBy ends t).1 := by
  obtain ⟨u, rfl⟩ := h
  rw [cutLinesBy_append]
  exact List.prefix_append _ _

section
variable {α β : Type} {text : α → JsString} {e : UInt16} {xs : List α}

/-- The lines of whole lines. -/
theorem cutLinesBy_flatMap (he : ends e = true) (h : ∀ x ∈ xs, ∀ c ∈ text x, ends c = false) :
    cutLinesBy ends (xs.flatMap fun x => text x ++ [e]) = (xs.map text, []) := by
  induction xs with
  | nil => rfl
  | cons x xs ih =>
    obtain ⟨hx, hxs⟩ := List.forall_mem_cons.1 h
    rw [List.flatMap_cons, List.append_assoc, List.singleton_append, cutLinesBy_line hx he, ih hxs]
    rfl

/-- Whole lines are read one by one. -/
theorem filterMap_cutLinesBy_flatMap (he : ends e = true)
    (h : ∀ x ∈ xs, ∀ c ∈ text x, ends c = false) {read : JsString → Option β} {f : α → β}
    (hread : ∀ x ∈ xs, read (text x) = some (f x)) :
    (cutLinesBy ends (xs.flatMap fun x => text x ++ [e])).1.filterMap read = xs.map f := by
  rw [cutLinesBy_flatMap he h, List.filterMap_map]
  clear h
  induction xs with
  | nil => rfl
  | cons x xs ih =>
    obtain ⟨hx, hxs⟩ := List.forall_mem_cons.1 hread
    have hstep : (read ∘ text) x = some (f x) := hx
    rw [List.filterMap_cons_some hstep, ih hxs, List.map_cons]

/-- However far the reader has come, what it has read is the first of what was written. -/
theorem filterMap_cutLinesBy_mono (he : ends e = true)
    (h : ∀ x ∈ xs, ∀ c ∈ text x, ends c = false) {read : JsString → Option β} {f : α → β}
    (hread : ∀ x ∈ xs, read (text x) = some (f x)) {input : JsString}
    (hinput : input <+: xs.flatMap fun x => text x ++ [e]) :
    (cutLinesBy ends input).1.filterMap read <+: xs.map f := by
  rw [← filterMap_cutLinesBy_flatMap he h hread]
  exact (cutLinesBy_mono hinput).filterMap _

end

end TheokitGateways.Js
