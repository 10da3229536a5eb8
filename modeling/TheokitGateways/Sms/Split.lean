import Mathlib.Algebra.Group.Nat.Defs
import TheokitGateways.Gateway.ChunkGraphemes

/-!
# Splitting a text into SMS parts

Every part carries its place, `(i/N) `, and the room this takes depends on how
many parts there are. `splitForSMS` widens the room until it is enough; it is
enough after eight passes at most, since a pass that does not return needs a
digit more (`splitForSMS_spec`).
-/

namespace TheokitGateways.Sms
open Js Gateway

/-- Width of `"(i/total) "` when `i` has as many digits as `total`. -/
def prefixWidthFor (total : Nat) : Nat := 2 * (natText total).length + 4

/-- The place of a part. -/
def place (i total : Nat) : JsString :=
  js "(" ++ natText i ++ js "/" ++ natText total ++ js ") "

/-- The parts with their places before them. -/
def numbered (parts : List JsString) : List JsString :=
  parts.mapIdx fun i p => place (i + 1) parts.length ++ p

/-- The message of the `RangeError` for a limit that leaves no room for a part. -/
def limitTooSmall (limit reserved : Nat) : JsString :=
  js "limit " ++ natText limit ++ js " is too small to carry an SMS part: the \"(i/N) \" prefix " ++
    js "alone needs " ++ natText reserved ++ js " chars"

/-- The message of the backstop's `RangeError`. -/
def notSettled (length limit : Nat) : JsString :=
  js "could not settle the \"(i/N) \" prefix width for a " ++ natText length ++
    js "-char message at limit " ++ natText limit

/-- The passes that are left, for the room they reserve. -/
def smsPasses (segment : JsString → List JsString) (text : JsString) (limit : Nat) :
    (passes reserved : Nat) → Except JsString (List JsString)
  | 0, _ => .error (notSettled text.length limit)
  | passes + 1, reserved =>
    if limit ≤ reserved then .error (limitTooSmall limit reserved)
    else do
      let parts ← chunkByGrapheme segment text limit (limit - reserved)
      let needed := prefixWidthFor parts.length
      if parts.length ≤ 1 then return parts
      else if needed ≤ reserved then return numbered parts
      else smsPasses segment text limit passes needed

def splitForSMS (segment : JsString → List JsString) (text : JsString) (limit : Nat := 1600) :
    Except JsString (List JsString) :=
  smsPasses segment text limit 8 (prefixWidthFor 1)

theorem length_natText_le_iff {n k : Nat} (hk : 0 < k) : (natText n).length ≤ k ↔ n < 10 ^ k := by
  rw [natText, List.length_map]
  exact Nat.length_toDigits_le_iff (by decide) hk

theorem length_natText_pos (n : Nat) : 0 < (natText n).length := by
  rw [natText, List.length_map]
  exact Nat.length_toDigits_pos

/-- A number has no more digits than a greater one. -/
theorem length_natText_mono {i n : Nat} (h : i ≤ n) : (natText i).length ≤ (natText n).length := by
  have hpos := length_natText_pos n
  have hn : n < 10 ^ (natText n).length := (length_natText_le_iff hpos).1 (Nat.le_refl _)
  exact (length_natText_le_iff hpos).2 (by omega)

/-- No place is wider than what is reserved for the last one. -/
theorem length_place_le {i total : Nat} (h : i ≤ total) :
    (place i total).length ≤ prefixWidthFor total := by
  have hmono := length_natText_mono h
  have hopen : (js "(").length = 1 := rfl
  have hslash : (js "/").length = 1 := rfl
  have hclose : (js ") ").length = 2 := rfl
  simp only [place, prefixWidthFor, List.length_append]
  omega

/-- Nonempty parts are no more than the units of their text. -/
theorem length_le_of_ne_nil {parts : List JsString} (h : ∀ part ∈ parts, part ≠ []) :
    parts.length ≤ parts.flatten.length := by
  induction parts with
  | nil => exact Nat.zero_le _
  | cons part parts ih =>
    obtain ⟨hpart, hparts⟩ := List.forall_mem_cons.1 h
    have hpos := List.length_pos_iff.2 hpart
    have hrest := ih hparts
    simp only [List.flatten_cons, List.length_cons, List.length_append]
    omega

variable {segment : JsString → List JsString} {text : JsString} {limit : Nat}

/-- Parts that give the text and leave room for their places. -/
structure Settled (text : JsString) (limit : Nat) (bodies : List JsString) : Prop where
  whole : bodies.flatten = text
  room : ∀ body ∈ bodies, body.length + prefixWidthFor bodies.length ≤ limit

/-- The parts of a pass: a text within the limit is one, and a longer one is several, no more than
its units, that leave the room that is reserved. -/
theorem parts_of_pass (hsegment : Partitions segment)
    (hclusters : ∀ s ∈ segment text, s.length ≤ limit - 20) (hlimit : 20 < limit) {reserved : Nat}
    (hreserved : reserved ≤ 20) :
    ∃ parts, chunkByGrapheme segment text limit (limit - reserved) = .ok parts ∧
      parts.flatten = text ∧ (text.length ≤ limit → parts = [text]) ∧
      (limit < text.length → 1 < parts.length ∧ parts.length ≤ text.length ∧
        ∀ part ∈ parts, part.length + reserved ≤ limit) := by
  have hpositive : 0 < limit := by omega
  have hwhole := flatten_graphemeParts hsegment text limit (limit - reserved)
  refine ⟨_, chunkByGrapheme_of_pos hpositive (by omega), hwhole,
    fun hfits => graphemeParts_of_short segment hfits _, fun hlong => ?_⟩
  have hparts := graphemeParts_of_long hsegment hlong (limit - reserved)
  have hroom : ∀ part ∈ graphemeParts segment text limit (limit - reserved),
      part.length + reserved ≤ limit := by
    intro part hpart
    obtain hfit | hcluster := (hparts part hpart).2
    · omega
    · have := hclusters part hcluster
      omega
  have hcount := length_le_of_ne_nil fun part hpart => (hparts part hpart).1
  rw [hwhole] at hcount
  refine ⟨?_, hcount, hroom⟩
  generalize graphemeParts segment text limit (limit - reserved) = parts at hwhole hroom
  obtain _ | ⟨part, _ | ⟨other, rest⟩⟩ := parts
  · subst hwhole
    cases hlong
  · have hpart := hroom part List.mem_cons_self
    rw [List.flatten_singleton] at hwhole
    subst hwhole
    omega
  · simp

/-- What the splitter returns: a text within the limit as it is, and a longer one in numbered
parts. -/
def Returned (text : JsString) (limit : Nat) (parts : List JsString) : Prop :=
  text.length ≤ limit ∧ parts = [text] ∨
    limit < text.length ∧
      ∃ bodies, 1 < bodies.length ∧ parts = numbered bodies ∧ Settled text limit bodies

/-- A pass returns, or needs more room than it reserved: a digit more, and eight at most. -/
theorem smsPasses_step (hsegment : Partitions segment)
    (hclusters : ∀ s ∈ segment text, s.length ≤ limit - 20) (hlimit : 20 < limit)
    (hshort : text.length < 10 ^ 8) {digits : Nat} (hdigits : digits ≤ 8) :
    (∃ parts, Returned text limit parts ∧
        ∀ passes, smsPasses segment text limit (passes + 1) (2 * digits + 4) = .ok parts) ∨
      ∃ more, digits < more ∧ more ≤ 8 ∧ ∀ passes,
        smsPasses segment text limit (passes + 1) (2 * digits + 4) =
          smsPasses segment text limit passes (2 * more + 4) := by
  obtain ⟨parts, hok, hwhole, hone, hmany⟩ :=
    parts_of_pass hsegment hclusters hlimit (show 2 * digits + 4 ≤ 20 by omega)
  have hpass (passes : Nat) : smsPasses segment text limit (passes + 1) (2 * digits + 4) =
      if parts.length ≤ 1 then .ok parts
      else if prefixWidthFor parts.length ≤ 2 * digits + 4 then .ok (numbered parts)
      else smsPasses segment text limit passes (prefixWidthFor parts.length) := by
    rw [smsPasses, if_neg (by omega), hok]
    rfl
  by_cases hfits : text.length ≤ limit
  · refine .inl ⟨parts, .inl ⟨hfits, hone hfits⟩, fun passes => ?_⟩
    rw [hpass, if_pos (by simp [hone hfits])]
  · obtain ⟨hseveral, hcount, hroom⟩ := hmany (by omega)
    have hnotOne : ¬parts.length ≤ 1 := by omega
    by_cases henough : prefixWidthFor parts.length ≤ 2 * digits + 4
    · refine .inl ⟨numbered parts, .inr ⟨by omega, parts, hseveral, rfl, hwhole,
          fun part hpart => ?_⟩, fun passes => by rw [hpass, if_neg hnotOne, if_pos henough]⟩
      have := hroom part hpart
      omega
    · refine .inr ⟨(natText parts.length).length, ?_, ?_,
        fun passes => by rw [hpass, if_neg hnotOne, if_neg henough]; rfl⟩
      · rw [prefixWidthFor] at henough
        omega
      · exact (length_natText_le_iff (by decide)).2 (by omega)

/-- Passes enough to reach eight digits are enough. -/
theorem smsPasses_spec (hsegment : Partitions segment)
    (hclusters : ∀ s ∈ segment text, s.length ≤ limit - 20) (hlimit : 20 < limit)
    (hshort : text.length < 10 ^ 8) (passes : Nat) {digits : Nat} (hdigits : digits ≤ 8)
    (henough : 8 ≤ digits + passes) :
    ∃ parts, smsPasses segment text limit (passes + 1) (2 * digits + 4) = .ok parts ∧
      Returned text limit parts := by
  induction passes generalizing digits with
  | zero =>
    obtain ⟨parts, hparts, hpass⟩ | ⟨more, hless, hmore, _⟩ :=
      smsPasses_step hsegment hclusters hlimit hshort hdigits
    · exact ⟨parts, hpass 0, hparts⟩
    · omega
  | succ passes ih =>
    obtain ⟨parts, hparts, hpass⟩ | ⟨more, hless, hmore, hpass⟩ :=
      smsPasses_step hsegment hclusters hlimit hshort hdigits
    · exact ⟨parts, hpass _, hparts⟩
    · rw [hpass]
      exact ih hmore (by omega)

theorem length_numbered (bodies : List JsString) : (numbered bodies).length = bodies.length :=
  List.length_mapIdx

/-- Numbered parts fit the limit when their bodies leave the room. -/
theorem Settled.fits {bodies : List JsString} (h : Settled text limit bodies) :
    ∀ part ∈ numbered bodies, part.length ≤ limit := by
  intro part hpart
  obtain ⟨i, hi, rfl⟩ := List.mem_mapIdx.1 hpart
  have hplace := length_place_le (show i + 1 ≤ bodies.length from hi)
  have hroom := h.room bodies[i] (List.getElem_mem hi)
  rw [List.length_append]
  omega

/-- A text shorter than `10 ^ 8` whose clusters leave room for the widest place is split within the
passes: one within the limit is its own part, and a longer one takes several, which are numbered in
order, fit the limit and give the text again. -/
theorem splitForSMS_spec (hsegment : Partitions segment) (hshort : text.length < 10 ^ 8)
    (hlimit : 20 < limit) (hclusters : ∀ s ∈ segment text, s.length ≤ limit - 20) :
    ∃ parts, splitForSMS segment text limit = .ok parts ∧
      (text.length ≤ limit → parts = [text]) ∧ (limit < text.length → 1 < parts.length) ∧
      (1 < parts.length → (∀ part ∈ parts, part.length ≤ limit) ∧
        ∃ bodies : List JsString, bodies.flatten = text ∧
          parts = bodies.mapIdx fun i body => place (i + 1) bodies.length ++ body) := by
  obtain ⟨parts, hok, ⟨hfits, rfl⟩ | ⟨hlong, bodies, hmany, rfl, hsettled⟩⟩ :=
    smsPasses_spec hsegment hclusters hlimit hshort 7 (show 1 ≤ 8 by decide) (by omega)
  · exact ⟨_, hok, fun _ => rfl, fun hlong => by omega, fun hmany => by simp at hmany⟩
  · refine ⟨_, hok, fun hfits => by omega, fun _ => ?_, fun _ =>
      ⟨hsettled.fits, bodies, hsettled.whole, rfl⟩⟩
    rwa [length_numbered]

/-- A text of 45 units at a limit of 26, in three parts. -/
theorem splitForSMS_spec_threeParts :
    ∃ parts, splitForSMS accented (List.replicate 45 (unit 'x')) 26 = .ok parts ∧
      1 < parts.length ∧ (∀ part ∈ parts, part.length ≤ 26) ∧
        ∃ bodies : List JsString, bodies.flatten = List.replicate 45 (unit 'x') ∧
          parts = bodies.mapIdx fun i body => place (i + 1) bodies.length ++ body := by
  have hclusters : ∀ s ∈ accented (List.replicate 45 (unit 'x')), s.length ≤ 26 - 20 := by
    intro s hs
    have hunits : accented (List.replicate 45 (unit 'x')) =
        (List.replicate 45 (unit 'x')).map fun c => [c] := if_neg (by decide)
    rw [hunits] at hs
    obtain ⟨c, _, rfl⟩ := List.mem_map.1 hs
    exact Nat.succ_le_of_lt (by decide)
  obtain ⟨parts, hok, _, hlong, hmany⟩ :=
    splitForSMS_spec partitions_accented (by decide) (by decide) hclusters
  have hseveral := hlong (by decide)
  exact ⟨parts, hok, hseveral, hmany hseveral⟩

end TheokitGateways.Sms
