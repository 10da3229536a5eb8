import TheokitGateways.Gateway.Chunk
import TheokitGateways.Js.Bytes

/-!
# Splitting a text at preferred boundaries

`chunkText` cuts a text into parts that fit a window: at the last boundary in the
window's second half, or by a last resort. What is stripped between two parts is
all that is lost, and the parts fit their limit (`chunkText_spec`).
-/

namespace TheokitGateways.Gateway
open Js

inductive LastResort where
  | lastBoundary | window
  deriving DecidableEq

/-- `s.replace(pattern, "")` for a pattern and its `lastIndex`, which a sticky pattern moves. -/
structure StripLeading where
  replace : Nat → JsString → JsString × Nat
  length_le : ∀ i s, (replace i s).1.length ≤ s.length

namespace StripLeading

/-- The pattern `/^[admits]+/`. -/
def run (admits : UInt16 → Bool) : StripLeading where
  replace i s := (s.dropWhile admits, i)
  length_le _ _ := (List.dropWhile_suffix _).length_le

/-- `/^\n+/`. -/
def newlines : StripLeading := run (· == unit '\n')

/-- `/^\s+/`. -/
def spaces : StripLeading := run isSpace

/-- The pattern removes nothing but white space, and that from the front. -/
def OnlySpace (strip : StripLeading) : Prop :=
  ∀ i s, ∃ w : JsString, s = w ++ (strip.replace i s).1 ∧ w.all isSpace = true

theorem run_onlySpace {admits : UInt16 → Bool} (h : ∀ c, admits c = true → isSpace c = true) :
    (run admits).OnlySpace := by
  intro i s
  refine ⟨s.takeWhile admits, List.takeWhile_append_dropWhile.symm, ?_⟩
  refine List.all_eq_true.2 fun c hc => h c ?_
  exact List.all_eq_true.1 List.all_takeWhile c hc

theorem newlines_onlySpace : newlines.OnlySpace :=
  run_onlySpace fun c hc => by
    cases eq_of_beq hc
    rfl

theorem spaces_onlySpace : spaces.OnlySpace := run_onlySpace fun _ hc => hc

end StripLeading

structure ChunkTextOptions where
  limit : Nat
  /-- `limit` when it is not given. -/
  safeLimit : Option Nat := none
  boundaries : List JsString := [js "\n\n", js "\n", js " "]
  lastResort : LastResort := .window
  surrogateGuard : Bool := false
  stripLeading : StripLeading := .newlines
  trimParts : Bool := false

/-- The soft window each cut is searched in. -/
def ChunkTextOptions.window (o : ChunkTextOptions) : Nat := o.safeLimit.getD o.limit

/-- Most-preferred boundary at `>= window*0.5`, else the last boundary tried. -/
def searchBoundary (remaining : JsString) (window : Nat) (cut : Int) : List JsString → Int
  | [] => cut
  | b :: boundaries =>
    let cut := lastIndexOf b remaining window
    if window ≤ 2 * cut then cut else searchBoundary remaining window cut boundaries

/-- Step back one code unit if `cut` would sever a surrogate pair. -/
def guardSurrogate (text : JsString) (cut : Int) : Int :=
  if text.length ≤ cut then cut
  else if (text[cut.toNat]?).any isLowSurrogate then cut - 1
  else cut

/-- The cut a window's search comes to: `findCut` before its guard. -/
def resortCut (lastResort : LastResort) (window : Nat) (cut : Int) : Int :=
  if 2 * cut < window then
    if lastResort = .lastBoundary ∧ 0 < cut then cut else window
  else cut

/-- The last steps of `findCut`. -/
def settleCut (o : ChunkTextOptions) (remaining : JsString) (cut : Int) : Int :=
  if o.surrogateGuard then guardSurrogate remaining cut else cut

def findCut (o : ChunkTextOptions) (remaining : JsString) : Nat :=
  let cut := searchBoundary remaining o.window o.window o.boundaries
  let cut := settleCut o remaining (resortCut o.lastResort o.window cut)
  if cut ≤ 0 then o.window else cut.toNat

theorem searchBoundary_le {remaining : JsString} {window : Nat} {cut : Int}
    (hcut : cut ≤ window) (boundaries : List JsString) :
    searchBoundary remaining window cut boundaries ≤ window := by
  induction boundaries generalizing cut with
  | nil => exact hcut
  | cons b boundaries ih =>
    rw [searchBoundary]
    split
    · exact lastIndexOf_le ..
    · exact ih (lastIndexOf_le ..)

theorem resortCut_le {window : Nat} {cut : Int} (lastResort : LastResort) (h : cut ≤ window) :
    resortCut lastResort window cut ≤ window := by
  unfold resortCut
  split
  · split <;> omega
  · exact h

theorem guardSurrogate_le (text : JsString) (cut : Int) : guardSurrogate text cut ≤ cut := by
  unfold guardSurrogate
  split
  · omega
  · split <;> omega

theorem settleCut_le (o : ChunkTextOptions) (remaining : JsString) (cut : Int) :
    settleCut o remaining cut ≤ cut := by
  unfold settleCut
  split
  · exact guardSurrogate_le ..
  · omega

theorem findCut_le (o : ChunkTextOptions) (remaining : JsString) :
    findCut o remaining ≤ o.window := by
  have hsearch : searchBoundary remaining o.window o.window o.boundaries ≤ o.window :=
    searchBoundary_le (Int.le_refl _) _
  have hresort := resortCut_le o.lastResort hsearch
  have hsettle := settleCut_le o remaining
    (resortCut o.lastResort o.window (searchBoundary remaining o.window o.window o.boundaries))
  simp only [findCut]
  split <;> omega

theorem findCut_pos {o : ChunkTextOptions} (hwindow : 0 < o.window) (remaining : JsString) :
    0 < findCut o remaining := by
  simp only [findCut]
  split <;> omega

/-- The loop over what remains, for the `lastIndex` of the pattern. Every pass takes a unit or
more, so that it ends. -/
def chunkLoop (o : ChunkTextOptions) (hwindow : 0 < o.window) (lastIndex : Nat)
    (remaining : JsString) : List JsString :=
  if o.window < remaining.length then
    let cut := findCut o remaining
    let stripped := o.stripLeading.replace lastIndex (remaining.drop cut)
    remaining.take cut :: chunkLoop o hwindow stripped.2 stripped.1
  else if remaining = [] then []
  else [remaining]
termination_by remaining.length
decreasing_by
  have hpos := findCut_pos hwindow remaining
  have hlen := o.stripLeading.length_le lastIndex (remaining.drop (findCut o remaining))
  rw [List.length_drop] at hlen
  omega

/-- The last step: parts are trimmed, and the empty ones dropped, where the options say so. -/
def finalize (o : ChunkTextOptions) (parts : List JsString) : List JsString :=
  if o.trimParts then (parts.map trim).filter (· ≠ []) else parts

/-- The message of the `RangeError` for a window past the limit. -/
def windowPastLimit (window limit : Nat) : JsString :=
  js "chunkText: safeLimit (" ++ natText window ++ js ") must be <= limit (" ++ natText limit ++
    js ")"

/-- `chunkText` with a pattern whose `lastIndex` is `lastIndex`; an error is the message of the
`RangeError`. -/
def chunkText (text : JsString) (o : ChunkTextOptions) (lastIndex : Nat := 0) :
    Except JsString (List JsString) := do
  assertPositiveInt (js "chunkText: limit") o.limit
  if hwindow : 0 < o.window then
    if o.limit < o.window then .error (windowPastLimit o.window o.limit)
    else if text.length ≤ o.limit then return finalize o [text]
    else return finalize o (chunkLoop o hwindow lastIndex text)
  else
    -- it throws
    assertPositiveInt (js "chunkText: safeLimit") o.window
    return []

/-- The options `chunkText` accepts. -/
def ChunkTextOptions.Accepted (o : ChunkTextOptions) : Prop := 0 < o.window ∧ o.window ≤ o.limit

theorem chunkText_eq_ok {text : JsString} {o : ChunkTextOptions} {lastIndex : Nat}
    {parts : List JsString} :
    chunkText text o lastIndex = .ok parts ↔
      ∃ h : o.Accepted, parts = finalize o
        (if text.length ≤ o.limit then [text] else chunkLoop o h.1 lastIndex text) := by
  unfold chunkText assertPositiveInt ChunkTextOptions.Accepted
  constructor
  · intro h
    split at h
    · split at h
      · split at h
        · cases h
        · split at h
          all_goals
            obtain rfl := Except.ok.inj h
            exact ⟨⟨‹_›, by omega⟩, by simp [*]⟩
      · cases h
    · cases h
  · rintro ⟨⟨hwindow, hlimit⟩, rfl⟩
    rw [if_pos (show 0 < o.limit by omega), dif_pos hwindow, if_neg (by omega)]
    split <;> rfl

/-- A text is its parts in order, each followed by white space. -/
def SplitsAtSpace (text : JsString) (parts : List JsString) : Prop :=
  ∃ stripped : List JsString, stripped.length = parts.length ∧
    (∀ s ∈ stripped, s.all isSpace = true) ∧
    text = (List.zipWith (· ++ ·) parts stripped).flatten

theorem splitsAtSpace_nil : SplitsAtSpace [] [] := ⟨[], rfl, by simp, rfl⟩

theorem SplitsAtSpace.cons {text part s : JsString} {parts : List JsString}
    (hs : s.all isSpace = true) (h : SplitsAtSpace text parts) :
    SplitsAtSpace (part ++ (s ++ text)) (part :: parts) :=
  followed_cons hs h

theorem splitsAtSpace_singleton (text : JsString) : SplitsAtSpace text [text] := by
  have h : SplitsAtSpace (text ++ ([] ++ [])) [text] := splitsAtSpace_nil.cons rfl
  rwa [List.append_nil, List.append_nil] at h

theorem SplitsAtSpace.uncons {text part : JsString} {parts : List JsString}
    (h : SplitsAtSpace text (part :: parts)) :
    ∃ s rest, s.all isSpace = true ∧ text = part ++ (s ++ rest) ∧ SplitsAtSpace rest parts := by
  obtain ⟨stripped, hlen, hall, rfl⟩ := h
  cases stripped with
  | nil => cases hlen
  | cons s stripped =>
    obtain ⟨hs, hall⟩ := List.forall_mem_cons.1 hall
    refine ⟨s, (List.zipWith (· ++ ·) parts stripped).flatten, hs, by simp, ?_⟩
    exact ⟨stripped, Nat.succ.inj hlen, hall, rfl⟩

/-- A text that is split, white space, and another text that is split. -/
theorem SplitsAtSpace.append {a b s : JsString} {as bs : List JsString} (hne : as ≠ [])
    (ha : SplitsAtSpace a as) (hs : s.all isSpace = true) (hb : SplitsAtSpace b bs) :
    SplitsAtSpace (a ++ (s ++ b)) (as ++ bs) := by
  induction as generalizing a with
  | nil => contradiction
  | cons x as ih =>
    obtain ⟨t, rest, ht, rfl, hrest⟩ := ha.uncons
    cases as with
    | nil =>
      obtain ⟨stripped, hlen, _, rfl⟩ := hrest
      cases List.length_eq_zero_iff.1 hlen
      have hspace : (t ++ s).all isSpace = true := by simp [ht, hs]
      simpa using @SplitsAtSpace.cons _ x _ _ hspace hb
    | cons y as =>
      have hmore := @SplitsAtSpace.cons _ x _ _ ht (ih (by simp) hrest)
      simpa using hmore

/-- A text with more units than a part has, not counting white space, takes several parts. -/
theorem SplitsAtSpace.one_lt_length {text : JsString} {parts : List JsString} {limit : Nat}
    (h : SplitsAtSpace text parts) (hfits : ∀ part ∈ parts, part.length ≤ limit)
    (hlong : limit < text.countP (!isSpace ·)) : 1 < parts.length := by
  obtain _ | ⟨part, _ | ⟨other, rest⟩⟩ := parts
  · obtain ⟨stripped, _, _, rfl⟩ := h
    simp at hlong
  · obtain ⟨s, rest, hs, rfl, stripped, _, _, rfl⟩ := h.uncons
    have hspace : s.countP (!isSpace ·) = 0 := by
      simpa [List.countP_eq_zero] using hs
    have hpart := hfits part List.mem_cons_self
    have hcount := List.countP_le_length (p := (!isSpace ·)) (l := part)
    simp [hspace] at hlong
    omega
  · simp

/-- What the loop makes of a text: parts that fit the window, and the text again. -/
theorem chunkLoop_spec {o : ChunkTextOptions} (hwindow : 0 < o.window)
    (hstrip : o.stripLeading.OnlySpace) (lastIndex : Nat) (remaining : JsString) :
    (∀ part ∈ chunkLoop o hwindow lastIndex remaining, part ≠ [] ∧ part.length ≤ o.window) ∧
      SplitsAtSpace remaining (chunkLoop o hwindow lastIndex remaining) := by
  fun_induction chunkLoop o hwindow lastIndex remaining with
  | case1 lastIndex remaining hlong cut stripped ih =>
    obtain ⟨hparts, hsplits⟩ := ih
    have hpos : 0 < cut := findCut_pos hwindow remaining
    have hle : cut ≤ o.window := findCut_le o remaining
    constructor
    · intro part hpart
      obtain rfl | hpart := List.mem_cons.1 hpart
      · rw [← List.length_pos_iff, List.length_take]
        omega
      · exact hparts part hpart
    · obtain ⟨s, hdrop, hs⟩ := hstrip lastIndex (remaining.drop cut)
      have hwhole : remaining = remaining.take cut ++ (s ++ stripped.1) := by
        rw [← hdrop, List.take_append_drop]
      have hcons : SplitsAtSpace (remaining.take cut ++ (s ++ stripped.1)) _ := hsplits.cons hs
      rwa [← hwhole] at hcons
  | case2 lastIndex hshort =>
    exact ⟨by simp, splitsAtSpace_nil⟩
  | case3 lastIndex remaining hshort hne =>
    refine ⟨fun part hpart => ?_, splitsAtSpace_singleton remaining⟩
    cases List.mem_singleton.1 hpart
    exact ⟨hne, by omega⟩

/-- A text that is not trimmed is split into parts that fit the limit, and nothing but white space
is lost between them. -/
theorem chunkText_spec {text : JsString} {o : ChunkTextOptions} {lastIndex : Nat}
    (haccepted : o.Accepted) (htrim : o.trimParts = false) (hstrip : o.stripLeading.OnlySpace) :
    ∃ parts, chunkText text o lastIndex = .ok parts ∧ (text = [] → parts = [[]]) ∧
      (text ≠ [] → ∀ part ∈ parts, part ≠ [] ∧ part.length ≤ o.limit) ∧
      SplitsAtSpace text parts := by
  obtain ⟨hwindow, hlimit⟩ := haccepted
  refine ⟨_, chunkText_eq_ok.2 ⟨⟨hwindow, hlimit⟩, rfl⟩, ?_⟩
  rw [finalize, htrim, if_neg (by simp)]
  split
  · refine ⟨by simp +contextual, fun hne part hpart => ?_, splitsAtSpace_singleton text⟩
    cases List.mem_singleton.1 hpart
    exact ⟨hne, ‹_›⟩
  · obtain ⟨hparts, hsplits⟩ := chunkLoop_spec hwindow hstrip lastIndex text
    refine ⟨?_, fun _ part hpart => ?_, hsplits⟩
    · rintro rfl
      simp at *
    · obtain ⟨hne, hle⟩ := hparts part hpart
      exact ⟨hne, by omega⟩

/-- A window of five units over text and spaces. -/
def fiveUnits : ChunkTextOptions where
  limit := 5
  lastResort := .lastBoundary
  surrogateGuard := true
  stripLeading := .spaces

theorem chunkText_spec_fiveUnits :
    ∃ parts, chunkText (js "hello  world") fiveUnits = .ok parts ∧
      (js "hello  world" = [] → parts = [[]]) ∧
      (js "hello  world" ≠ [] → ∀ part ∈ parts, part ≠ [] ∧ part.length ≤ fiveUnits.limit) ∧
      SplitsAtSpace (js "hello  world") parts :=
  chunkText_spec ⟨by decide, by decide⟩ rfl StripLeading.spaces_onlySpace

end TheokitGateways.Gateway
