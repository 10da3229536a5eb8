import TheokitGateways.Js.Convert
import TheokitGateways.Js.Deletion

/-!
# Markdown markers as Signal text styles

Signal takes the bare text and style ranges over it. The scan removes a marker
and its closing partner and reads the text between them on its own; the ranges
found in there are shifted to where it stands. `Reading` is what the scan makes
of a text, and the message and the ranges are read off it
(`toTextStyle_eq_scan`), so what holds of them is proved by induction on a
reading (`toTextStyle_spec`).
-/

namespace TheokitGateways.Signal

open Js

inductive Style where
  | bold
  | italic
  | strikethrough
  | monospace
deriving DecidableEq

def Style.text : Style → JsString
  | .bold => js "BOLD"
  | .italic => js "ITALIC"
  | .strikethrough => js "STRIKETHROUGH"
  | .monospace => js "MONOSPACE"

/-- Longest marker first, so `**` is never read as two italic markers. -/
def markers : List (JsString × Style) :=
  [(js "**", .bold), (js "~~", .strikethrough), (js "`", .monospace), (js "*", .italic),
    (js "_", .italic)]

/-- The styled run at a place of a text, and what stands after its closing marker. -/
structure Run where
  style : Style
  marker : JsString
  inner : JsString
  after : JsString

/-- What Signal is sent. -/
structure StyledText where
  message : JsString
  textStyle : List JsString
deriving DecidableEq

/-- A `start:length:STYLE` entry. -/
def entryText (start length : Nat) (style : JsString) : JsString :=
  natText start ++ unit ':' :: (natText length ++ unit ':' :: style)

/-- An entry of a text that stands further right. -/
def shift (entry : JsString) (offset : Nat) : JsString :=
  match entry.splitOn (unit ':') with
  | start :: length :: style :: _ =>
    natText (JsonParser.digitsValue start + offset) ++ unit ':' :: (length ++ unit ':' :: style)
  | _ => entry

/-- `/[\p{L}\p{N}]/u` on one unit of an ASCII text. -/
def asciiWord (c : UInt16) : Bool :=
  (unit '0' ≤ c && c ≤ unit '9') || (unit 'A' ≤ c && c ≤ unit 'Z') ||
    (unit 'a' ≤ c && c ≤ unit 'z')

section Scan

variable (word : UInt16 → Bool)

/-- An underscore with a letter or digit on the outer side of either marker is part of a word. -/
def insideWord (before after : Option UInt16) : Bool := before.any word || after.any word

/-- The styled run opening at `rest`, `before` being the unit before it. -/
def runAt (before : Option UInt16) (rest : JsString) : Option Run :=
  match markers.find? fun (marker, _) => marker.isPrefixOf rest with
  | none => none
  | some (marker, style) =>
    match cutAtText marker (rest.drop marker.length) with
    | none => none
    | some (inner, after) =>
      if inner = [] then none
      else if trim inner ≠ inner then none
      else if marker = js "_" ∧ insideWord word before after.head? = true then none
      else some ⟨style, marker, inner, after⟩

theorem find_backtick (tail : JsString) :
    (markers.find? fun (marker, _) => marker.isPrefixOf (unit '`' :: tail)) =
      some (js "`", .monospace) := rfl

theorem runAt_eq_some {before : Option UInt16} {rest : JsString} {run : Run}
    (h : runAt word before rest = some run) :
    rest = run.marker ++ (run.inner ++ (run.marker ++ run.after)) ∧ run.inner ≠ [] ∧
      trim run.inner = run.inner ∧ (run.marker, run.style) ∈ markers := by
  unfold runAt at h
  split at h
  · cases h
  · rename_i marker style hfind
    have hmem := List.mem_of_find?_eq_some hfind
    have hprefix : marker.isPrefixOf rest = true := by simpa using List.find?_some hfind
    obtain ⟨t, rfl⟩ := List.isPrefixOf_iff_prefix.1 hprefix
    rw [List.drop_left] at h
    split at h
    · cases h
    · rename_i inner after hcut
      split at h
      · cases h
      · split at h
        · cases h
        · split at h
          · cases h
          · cases h
            rw [eq_of_cutAtText hcut]
            exact ⟨rfl, ‹_›, Decidable.of_not_not ‹_›, hmem⟩

theorem marker_ne_nil {marker : JsString} {style : Style} (h : (marker, style) ∈ markers) :
    0 < marker.length := by
  have hall : markers.all (fun (marker, _) => decide (0 < marker.length)) = true := by decide
  simpa using List.all_eq_true.1 hall _ h

theorem runAt_length {before : Option UInt16} {rest : JsString} {run : Run}
    (h : runAt word before rest = some run) :
    run.inner.length + run.after.length < rest.length := by
  obtain ⟨heq, _, _, hmarker⟩ := runAt_eq_some word h
  have hpos := marker_ne_nil hmarker
  rw [heq]
  simp only [List.length_append]
  omega

/-- The rest of the scan, once `styled` is what the text before gave. -/
def styleFrom (before : Option UInt16) (rest : JsString) (styled : StyledText) : StyledText :=
  match rest with
  | [] => styled
  | c :: tail =>
    match hrun : runAt word before (c :: tail) with
    | none => styleFrom (some c) tail ⟨styled.message ++ [c], styled.textStyle⟩
    | some run =>
      have := runAt_length word hrun
      let start := styled.message.length
      if run.style = .monospace then
        styleFrom run.marker.getLast? run.after
          ⟨styled.message ++ run.inner,
            styled.textStyle ++ [entryText start run.inner.length Style.monospace.text]⟩
      else
        let nested := styleFrom none run.inner ⟨[], []⟩
        styleFrom run.marker.getLast? run.after
          ⟨styled.message ++ nested.message,
            styled.textStyle ++ entryText start nested.message.length run.style.text ::
              nested.textStyle.map fun entry => shift entry start⟩
termination_by rest.length
decreasing_by
  · exact Nat.lt_succ_self _
  · exact Nat.lt_of_le_of_lt (Nat.le_add_left _ _) this
  · exact Nat.lt_of_le_of_lt (Nat.le_add_right _ _) this
  · exact Nat.lt_of_le_of_lt (Nat.le_add_left _ _) this

/-- Remove the markers of a text and return their ranges. -/
def toTextStyle (text : JsString) : StyledText := styleFrom word none text ⟨[], []⟩

end Scan

theorem splitOn_entryText (start length : Nat) (style : Style) :
    (entryText start length style.text).splitOn (unit ':') =
      [natText start, natText length, style.text] := by
  have hjoin : entryText start length style.text =
      [unit ':'].intercalate [natText start, natText length, style.text] := by
    simp [entryText, List.intercalate]
  have hcolon (n : Nat) : unit ':' ∉ natText n := notMem_natText (by decide) n
  have hstyle : unit ':' ∉ style.text := by cases style <;> decide
  rw [hjoin]
  refine List.splitOn_intercalate (unit ':') ?_ (by simp)
  simp [hcolon, hstyle]

/-- A shifted entry is the entry of the shifted run. -/
theorem shift_entryText (start length : Nat) (style : Style) (offset : Nat) :
    shift (entryText start length style.text) offset =
      entryText (start + offset) length style.text := by
  unfold shift
  rw [splitOn_entryText]
  simp only [digitsValue_natText]
  rfl

/-! ### Readings -/

/-- A styled run: the places of its markers in the text and its range in the message. -/
structure Span where
  opens : Nat
  closes : Nat
  start : Nat
  length : Nat
  style : Style

def Span.stop (s : Span) : Nat := s.start + s.length

def Span.entry (s : Span) : JsString := entryText s.start s.length s.style.text

def Span.Encloses (a b : Span) : Prop := a.start ≤ b.start ∧ b.stop ≤ a.stop

/-- What the scan makes of a text. -/
inductive Reading where
  | nil
  | unit (c : UInt16) (rest : Reading)
  | code (inner : JsString) (rest : Reading)
  | styled (style : Style) (marker : JsString) (inside rest : Reading)

namespace Reading

def units : Reading → Units
  | nil => []
  | unit c rest => (c, true) :: rest.units
  | code inner rest =>
    dropped (js "`") ++ (copied inner ++ (dropped (js "`") ++ rest.units))
  | styled _ marker inside rest =>
    dropped marker ++ (inside.units ++ (dropped marker ++ rest.units))

def message (r : Reading) : JsString := kept r.units

/-- The runs of a reading that stands at `place` in a text and at `start` in the message. -/
def spans : Reading → (place start : Nat) → List Span
  | nil, _, _ => []
  | unit _ rest, place, start => rest.spans (place + 1) (start + 1)
  | code inner rest, place, start =>
    ⟨place, place + 1 + inner.length, start, inner.length, .monospace⟩ ::
      rest.spans (place + 1 + inner.length + 1) (start + inner.length)
  | styled style marker inside rest, place, start =>
    let closes := place + marker.length + inside.units.length
    ⟨place, closes, start, inside.message.length, style⟩ ::
      (inside.spans (place + marker.length) start ++
        rest.spans (closes + marker.length) (start + inside.message.length))

/-- What `runAt` grants of every run. -/
def Sound : Reading → Prop
  | nil => True
  | unit _ rest => rest.Sound
  | code inner rest => inner ≠ [] ∧ rest.Sound
  | styled style marker inside rest =>
    (marker, style) ∈ markers ∧ style ≠ .monospace ∧ inside.units ≠ [] ∧ inside.Sound ∧ rest.Sound

@[simp] theorem message_nil : nil.message = [] := rfl

@[simp] theorem message_unit (c : UInt16) (rest : Reading) :
    (unit c rest).message = c :: rest.message := kept_cons_true _ _

@[simp] theorem message_code (inner : JsString) (rest : Reading) :
    (code inner rest).message = inner ++ rest.message := by
  simp [message, units]

@[simp] theorem message_styled (style : Style) (marker : JsString) (inside rest : Reading) :
    (styled style marker inside rest).message = inside.message ++ rest.message := by
  simp [message, units]

theorem message_ne_nil {r : Reading} (hr : r.Sound) (hne : r.units ≠ []) : r.message ≠ [] := by
  induction r with
  | nil => exact absurd rfl hne
  | unit c rest => simp
  | code inner rest => simp [hr.1]
  | styled style marker inside rest ihInside ihRest =>
    obtain ⟨_, _, hinside, hsound, _⟩ := hr
    simp [ihInside hsound hinside]

end Reading

section Scan

variable (word : UInt16 → Bool)

/-- The scan of a text that stands after the unit `before`. -/
def scan (before : Option UInt16) (rest : JsString) : Reading :=
  match rest with
  | [] => .nil
  | c :: tail =>
    match hrun : runAt word before (c :: tail) with
    | none => .unit c (scan (some c) tail)
    | some run =>
      have := runAt_length word hrun
      if run.style = .monospace then .code run.inner (scan run.marker.getLast? run.after)
      else
        .styled run.style run.marker (scan none run.inner) (scan run.marker.getLast? run.after)
termination_by rest.length
decreasing_by
  · exact Nat.lt_succ_self _
  · exact Nat.lt_of_le_of_lt (Nat.le_add_left _ _) this
  · exact Nat.lt_of_le_of_lt (Nat.le_add_right _ _) this
  · exact Nat.lt_of_le_of_lt (Nat.le_add_left _ _) this

theorem marker_of_monospace {marker : JsString} (h : (marker, Style.monospace) ∈ markers) :
    marker = js "`" := by
  have hall : markers.all (fun (marker, style) =>
      style ≠ .monospace || marker = js "`") = true := by decide
  simpa using List.all_eq_true.1 hall _ h

/-- The scan reads the whole text. -/
theorem units_scan (before : Option UInt16) (rest : JsString) :
    (scan word before rest).units.map Prod.fst = rest := by
  fun_induction scan word before rest with
  | case1 => rfl
  | case2 before c tail hrun ih => exact congrArg (c :: ·) ih
  | case3 before c tail run hrun _ hstyle ih =>
    obtain ⟨heq, _, _, hmarker⟩ := runAt_eq_some word hrun
    rw [hstyle] at hmarker
    rw [heq, marker_of_monospace hmarker]
    rw [marker_of_monospace hmarker] at ih
    simp [Reading.units, ih]
  | case4 before c tail run hrun _ hstyle ihInside ihRest =>
    obtain ⟨heq, _, _, _⟩ := runAt_eq_some word hrun
    rw [heq]
    simp [Reading.units, ihInside, ihRest]

theorem sound_scan (before : Option UInt16) (rest : JsString) :
    (scan word before rest).Sound := by
  fun_induction scan word before rest with
  | case1 => trivial
  | case2 before c tail hrun ih => exact ih
  | case3 before c tail run hrun _ hstyle ih =>
    obtain ⟨_, hne, _, _⟩ := runAt_eq_some word hrun
    exact ⟨hne, ih⟩
  | case4 before c tail run hrun _ hstyle ihInside ihRest =>
    obtain ⟨_, hne, _, hmarker⟩ := runAt_eq_some word hrun
    refine ⟨hmarker, hstyle, fun hnil => hne ?_, ihInside, ihRest⟩
    rw [← units_scan word none run.inner, hnil]
    rfl

/-- A run shifted with the text around it. -/
theorem shift_spans (r : Reading) (place start place' offset : Nat) :
    (r.spans place start).map (fun s => shift s.entry offset) =
      (r.spans place' (start + offset)).map Span.entry := by
  induction r generalizing place start place' with
  | nil => rfl
  | unit c rest ih =>
    rw [Reading.spans, Reading.spans, ih _ _ (place' + 1), Nat.add_right_comm]
  | code inner rest ih =>
    rw [Reading.spans, Reading.spans, List.map_cons, List.map_cons,
      ih _ _ (place' + 1 + inner.length + 1), Nat.add_right_comm start]
    exact congrArg (· :: _) (shift_entryText _ _ _ _)
  | styled style marker inside rest ihInside ihRest =>
    simp only [Reading.spans, List.map_cons, List.map_append]
    rw [ihInside _ _ (place' + marker.length),
      ihRest _ _ (place' + marker.length + inside.units.length + marker.length),
      Nat.add_right_comm start]
    exact congrArg (· :: _) (shift_entryText _ _ _ _)

theorem scan_unit {before : Option UInt16} {c : UInt16} {tail : JsString}
    (h : runAt word before (c :: tail) = none) :
    scan word before (c :: tail) = .unit c (scan word (some c) tail) := by
  rw [scan]
  split
  · rfl
  · simp_all

theorem scan_run {before : Option UInt16} {c : UInt16} {tail : JsString} {run : Run}
    (h : runAt word before (c :: tail) = some run) :
    scan word before (c :: tail) =
      if run.style = .monospace then
        .code run.inner (scan word run.marker.getLast? run.after)
      else
        .styled run.style run.marker (scan word none run.inner)
          (scan word run.marker.getLast? run.after) := by
  rw [scan]
  split
  · simp_all
  · rename_i run' hrun'
    cases h.symm.trans hrun'
    rfl

/-- The scan adds the reading of the rest to what the text before gave. -/
theorem styleFrom_eq_scan (before : Option UInt16) (rest : JsString) (styled : StyledText)
    (place : Nat) :
    styleFrom word before rest styled =
      ⟨styled.message ++ (scan word before rest).message,
        styled.textStyle ++
          ((scan word before rest).spans place styled.message.length).map Span.entry⟩ := by
  fun_induction styleFrom word before rest styled generalizing place with
  | case1 before styled => simp [scan, Reading.spans]
  | case2 before styled c tail hrun ih =>
    rw [ih (place + 1), scan_unit word hrun]
    simp [Reading.spans]
  | case3 before styled c tail run hrun _ start hstyle ih =>
    rw [ih (place + 1 + run.inner.length + 1), scan_run word hrun, if_pos hstyle]
    simp [Reading.spans, start, Span.entry]
  | case4 before styled c tail run hrun _ start hstyle nested ihInside ihRest =>
    have hnested : nested = _ := ihInside (place + run.marker.length)
    have hshift := shift_spans (scan word none run.inner) (place + run.marker.length) 0
      (place + run.marker.length) start
    rw [Nat.zero_add] at hshift
    rw [ihRest (place + run.marker.length + (scan word none run.inner).units.length +
      run.marker.length), scan_run word hrun, if_neg hstyle, hnested]
    simp only [List.map_map, Function.comp_def, hshift, List.nil_append, List.length_nil]
    simp [Reading.spans, start, Span.entry]

/-- The message and the ranges of a text are those of its reading. -/
theorem toTextStyle_eq_scan (text : JsString) :
    toTextStyle word text =
      ⟨(scan word none text).message, ((scan word none text).spans 0 0).map Span.entry⟩ := by
  rw [toTextStyle, styleFrom_eq_scan word none text ⟨[], []⟩ 0]
  rfl

end Scan

/-! ### Ranges -/

/-- A run of units that stand at `place` in a text and at `start` in the message: its markers are
removed, and its range is what the message has of the units between them. -/
def Span.InPlace (units : Units) (place start : Nat) (s : Span) : Prop :=
  ∃ before opener between closer after,
    units = before ++ (opener, false) :: (between ++ (closer, false) :: after) ∧
    s.opens = place + before.length ∧ s.closes = s.opens + 1 + between.length ∧
    s.start = start + (kept before).length ∧ s.length = (kept between).length

namespace Span.InPlace

variable {a b : Units} {place start : Nat} {s : Span}

theorem append_right (h : s.InPlace a place start) (b : Units) :
    s.InPlace (a ++ b) place start := by
  obtain ⟨before, opener, between, closer, after, rfl, h⟩ := h
  exact ⟨before, opener, between, closer, after ++ b, by simp, h⟩

theorem append_left {place' start' : Nat} (h : s.InPlace b place' start')
    (hplace : place' = place + a.length) (hstart' : start' = start + (kept a).length) :
    s.InPlace (a ++ b) place start := by
  subst hplace hstart'
  obtain ⟨before, opener, between, closer, after, rfl, hopens, hcloses, hstart, hlength⟩ := h
  refine ⟨a ++ before, opener, between, closer, after, by simp, ?_, hcloses, ?_, hlength⟩
  · rw [hopens, List.length_append]
    omega
  · rw [hstart, kept_append, List.length_append]
    omega

theorem bounds (h : s.InPlace a place start) :
    place ≤ s.opens ∧ s.opens < s.closes ∧ s.closes < place + a.length ∧ start ≤ s.start ∧
      s.stop ≤ start + (kept a).length := by
  obtain ⟨before, opener, between, closer, after, rfl, hopens, hcloses, hstart, hlength⟩ := h
  simp only [Span.stop, kept_append, kept_cons_false, List.length_append, List.length_cons]
  omega

end Span.InPlace

/-- A marker around units that stand in place. -/
theorem inPlace_around {marker : JsString} (hne : marker ≠ []) (between : Units)
    (place start : Nat) (style : Style) :
    Span.InPlace (dropped marker ++ (between ++ dropped marker)) place start
      ⟨place, place + marker.length + between.length, start, (kept between).length, style⟩ := by
  obtain ⟨c, marker, rfl⟩ := List.exists_cons_of_ne_nil hne
  refine ⟨[], c, dropped marker ++ between, c, dropped marker, by simp [dropped], rfl, ?_, rfl, ?_⟩
  · simp only [List.length_append, length_dropped, List.length_cons]
    omega
  · simp

theorem Reading.units_code (inner : JsString) (rest : Reading) :
    (code inner rest).units =
      dropped (js "`") ++ (copied inner ++ dropped (js "`")) ++ rest.units := by
  simp [units]

theorem Reading.units_styled (style : Style) (marker : JsString) (inside rest : Reading) :
    (styled style marker inside rest).units =
      dropped marker ++ (inside.units ++ dropped marker) ++ rest.units := by
  simp [units]

/-- Every run of a reading is in place and has something in it. -/
theorem inPlace_of_mem_spans {r : Reading} (hr : r.Sound) (place start : Nat) {s : Span}
    (hs : s ∈ r.spans place start) :
    s.InPlace r.units place start ∧ 1 ≤ s.length := by
  induction r generalizing place start with
  | nil => cases hs
  | unit c rest ih =>
    obtain ⟨hplace, hlength⟩ := ih hr _ _ hs
    exact ⟨Span.InPlace.append_left (a := [(c, true)]) hplace rfl rfl, hlength⟩
  | code inner rest ih =>
    obtain ⟨hne, hrest⟩ := hr
    rw [Reading.units_code]
    obtain rfl | hs := List.mem_cons.1 hs
    · have hmarker : js "`" ≠ [] := by decide
      have hplace := inPlace_around hmarker (copied inner) place start .monospace
      rw [kept_copied, length_copied] at hplace
      exact ⟨hplace.append_right _, List.length_pos_iff.2 hne⟩
    · obtain ⟨hplace, hlength⟩ := ih hrest _ _ hs
      have hbacktick : (js "`").length = 1 := rfl
      refine ⟨hplace.append_left ?_ ?_, hlength⟩
      · simp [Nat.add_assoc, hbacktick]
      · simp
  | styled style marker inside rest ihInside ihRest =>
    obtain ⟨hmarker, _, hne, hinside, hrest⟩ := hr
    rw [Reading.units_styled]
    obtain rfl | hs := List.mem_cons.1 hs
    · have hplace := inPlace_around (List.length_pos_iff.1 (marker_ne_nil hmarker)) inside.units
        place start style
      exact ⟨hplace.append_right _, List.length_pos_iff.2 (Reading.message_ne_nil hinside hne)⟩
    · obtain hs | hs := List.mem_append.1 hs
      · obtain ⟨hplace, hlength⟩ := ihInside hinside _ _ hs
        have hleft :
            s.InPlace (dropped marker ++ (inside.units ++ dropped marker)) place start :=
          (hplace.append_right (dropped marker)).append_left (by simp) (by simp)
        exact ⟨hleft.append_right _, hlength⟩
      · obtain ⟨hplace, hlength⟩ := ihRest hrest _ _ hs
        refine ⟨hplace.append_left ?_ ?_, hlength⟩
        · simp [Nat.add_assoc]
        · simp [Reading.message]

/-- Runs are listed as they open, and one that opens inside another is closed inside it. No run
opens inside code. -/
theorem pairwise_spans {r : Reading} (hr : r.Sound) (place start : Nat) :
    (r.spans place start).Pairwise fun a b =>
      a.opens < b.opens ∧ ((a.style ≠ .monospace ∧ a.Encloses b) ∨ a.stop ≤ b.start) := by
  induction r generalizing place start with
  | nil => exact List.Pairwise.nil
  | unit c rest ih => exact ih hr _ _
  | code inner rest ih =>
    refine List.pairwise_cons.2 ⟨fun s hs => ?_, ih hr.2 _ _⟩
    have hbounds := (inPlace_of_mem_spans hr.2 _ _ hs).1.bounds
    have hopens : place < s.opens := by omega
    refine ⟨hopens, .inr ?_⟩
    simp only [Span.stop]
    omega
  | styled style marker inside rest ihInside ihRest =>
    obtain ⟨hmarker, hstyle, _, hinside, hrest⟩ := hr
    have hpos := marker_ne_nil hmarker
    refine List.pairwise_cons.2 ⟨fun s hs => ?_,
      List.pairwise_append.2 ⟨ihInside hinside _ _, ihRest hrest _ _, fun a ha b hb => ?_⟩⟩
    · obtain hs | hs := List.mem_append.1 hs
      · have hbounds := (inPlace_of_mem_spans hinside _ _ hs).1.bounds
        have hopens : place < s.opens := by omega
        refine ⟨hopens, .inl ⟨hstyle, ?_⟩⟩
        simp only [Span.Encloses, Span.stop, Reading.message] at hbounds ⊢
        omega
      · have hbounds := (inPlace_of_mem_spans hrest _ _ hs).1.bounds
        have hopens : place < s.opens := by omega
        refine ⟨hopens, .inr ?_⟩
        simp only [Span.stop] at hbounds ⊢
        omega
    · have hleft := (inPlace_of_mem_spans hinside _ _ ha).1.bounds
      have hright := (inPlace_of_mem_spans hrest _ _ hb).1.bounds
      refine ⟨by omega, .inr ?_⟩
      simp only [Reading.message] at hleft hright
      omega

/-- The units of a reading that are removed are markers. -/
theorem marker_of_dropped {r : Reading} (hr : r.Sound) :
    ∀ u ∈ r.units, u.2 = false → u.1 ∈ js "*~`_" := by
  have hall : markers.all (fun m => m.1.all (· ∈ js "*~`_")) = true := by decide
  simp only [List.all_eq_true, decide_eq_true_eq] at hall
  induction r with
  | nil => simp [Reading.units]
  | unit c rest ih =>
    rw [Reading.units, List.forall_mem_cons]
    exact ⟨nofun, ih hr⟩
  | code inner rest ih =>
    have hbacktick : ∀ c ∈ js "`", c ∈ js "*~`_" := forall_mem_of_all rfl
    refine mem_dropped_append (fun c hc _ => hbacktick c hc) fun u hu hdropped => ?_
    obtain hu | hu := List.mem_append.1 hu
    · obtain ⟨c, _, rfl⟩ := List.mem_map.1 hu
      cases hdropped
    · exact mem_dropped_append (fun c hc _ => hbacktick c hc) (ih hr.2) u hu hdropped
  | styled style marker inside rest ihInside ihRest =>
    obtain ⟨hmarker, _, _, hinside, hrest⟩ := hr
    have hunits : ∀ c ∈ marker, c ∈ js "*~`_" := hall _ hmarker
    refine mem_dropped_append (fun c hc _ => hunits c hc) fun u hu => ?_
    obtain hu | hu := List.mem_append.1 hu
    · exact ihInside hinside u hu
    · exact mem_dropped_append (fun c hc _ => hunits c hc) (ihRest hrest) u hu

/-- The spans of a text and the units its message keeps, as Signal is sent them. -/
structure StyledAs (text : JsString) (styled : StyledText) (units : Units) (spans : List Span) :
    Prop where
  reads : units.map Prod.fst = text
  keeps : kept units = styled.message
  drops : ∀ u ∈ units, u.2 = false → u.1 ∈ js "*~`_"
  sends : styled.textStyle = spans.map Span.entry
  inPlace : ∀ s ∈ spans, s.InPlace units 0 0
  within : ∀ s ∈ spans, 1 ≤ s.length ∧ s.stop ≤ styled.message.length
  opening : spans.Pairwise fun a b => a.opens < b.opens
  nested : spans.Pairwise fun a b => a.Encloses b ∨ a.stop ≤ b.start

theorem toTextStyle_styledAs (word : UInt16 → Bool) (text : JsString) :
    StyledAs text (toTextStyle word text) (scan word none text).units
      ((scan word none text).spans 0 0) := by
  have hsound := sound_scan word none text
  rw [toTextStyle_eq_scan]
  have hpairwise := pairwise_spans hsound 0 0
  exact {
    reads := units_scan word none text
    keeps := rfl
    drops := marker_of_dropped hsound
    sends := rfl
    inPlace := fun s hs => (inPlace_of_mem_spans hsound 0 0 hs).1
    within := fun s hs => by
      obtain ⟨hplace, hlength⟩ := inPlace_of_mem_spans hsound 0 0 hs
      have hstop := hplace.bounds.2.2.2.2
      rw [Nat.zero_add] at hstop
      exact ⟨hlength, hstop⟩
    opening := hpairwise.imp And.left
    nested := hpairwise.imp fun h => h.2.imp_left And.right }

/-- Every text has units and runs that its message and its ranges are. -/
theorem toTextStyle_spec (word : UInt16 → Bool) (text : JsString) :
    ∃ units spans, StyledAs text (toTextStyle word text) units spans :=
  ⟨_, _, toTextStyle_styledAs word text⟩

example : toTextStyle asciiWord (js "**a _b_ c**") =
    ⟨js "a b c", [js "0:5:BOLD", js "2:1:ITALIC"]⟩ := by
  decide +kernel

end TheokitGateways.Signal
