import TheokitGateways.Sms.Split

/-!
# Reading the parts of a text by their places

Carriers deliver the parts of a text out of sequence. A reader takes the body of each
from its place, `(i/N) `, and has the text again whatever the order the parts came in
(`reassemble_perm`).
-/

namespace TheokitGateways.Sms
open Js Gateway

/-- The number that a part carries. -/
def numberOf (part : JsString) : Nat :=
  JsonParser.digitsValue ((part.drop 1).takeWhile (· ≠ unit '/'))

/-- The body of the part with a number, among parts that were received. -/
def bodyAt (received : List JsString) (i : Nat) : JsString :=
  ((received.find? (numberOf · = i)).getD []).drop (place i received.length).length

/-- What a reader makes of the parts received: one is a text as it is. -/
def reassemble (received : List JsString) : JsString :=
  match received with
  | [part] => part
  | _ => ((List.range received.length).map fun i => bodyAt received (i + 1)).flatten

theorem numberOf_place (i total : Nat) (body : JsString) :
    numberOf (place i total ++ body) = i := by
  have hdigit : ∀ c ∈ natText i, decide (c ≠ unit '/') = true := by
    intro c hc
    refine decide_eq_true fun hslash => ?_
    rw [hslash] at hc
    exact notMem_natText (by decide) i hc
  have hshape : (place i total ++ body).drop 1 =
      natText i ++ unit '/' :: (natText total ++ (js ") " ++ body)) := by
    simp only [place, List.append_assoc]
    rfl
  rw [numberOf, hshape, List.takeWhile_append_of_pos hdigit, List.takeWhile_cons_of_neg (by simp),
    List.append_nil, digitsValue_natText]

theorem mem_numbered {bodies : List JsString} {part : JsString} : part ∈ numbered bodies ↔
    ∃ i, ∃ h : i < bodies.length, part = place (i + 1) bodies.length ++ bodies[i] := by
  rw [numbered, List.mem_mapIdx]
  exact exists_congr fun i => exists_congr fun h => eq_comm

/-- No part is sent twice. -/
theorem nodup_numbered (bodies : List JsString) : (numbered bodies).Nodup := by
  refine List.pairwise_iff_getElem.2 fun i j hi hj hlt heq => ?_
  simp only [numbered, List.getElem_mapIdx] at heq
  have hnumber := congrArg numberOf heq
  rw [numberOf_place, numberOf_place] at hnumber
  omega

/-- Whatever the order the parts came in, the one with a number is the one sent with it. -/
theorem bodyAt_of_perm {received bodies : List JsString} (hperm : received.Perm (numbered bodies))
    {i : Nat} (hi : i < bodies.length) : bodyAt received (i + 1) = bodies[i] := by
  have hlength : received.length = bodies.length :=
    hperm.length_eq.trans (length_numbered bodies)
  have hsent : place (i + 1) bodies.length ++ bodies[i] ∈ received :=
    hperm.mem_iff.2 (mem_numbered.2 ⟨i, hi, rfl⟩)
  cases hfind : received.find? (numberOf · = i + 1) with
  | none =>
    have hnone := List.find?_eq_none.1 hfind _ hsent
    rw [numberOf_place] at hnone
    simp at hnone
  | some part =>
    obtain ⟨j, hj, rfl⟩ := mem_numbered.1 (hperm.mem_iff.1 (List.mem_of_find?_eq_some hfind))
    have hnumber := List.find?_some hfind
    rw [numberOf_place, decide_eq_true_eq] at hnumber
    obtain rfl : j = i := by omega
    rw [bodyAt, hfind, hlength, Option.getD_some, List.drop_left]

variable {segment : JsString → List JsString} {text : JsString} {limit : Nat}
  {parts : List JsString}

/-- What the splitter comes to, when it does: the text itself, or numbered parts of it. -/
theorem smsPasses_parts (hsegment : Partitions segment) {passes reserved : Nat}
    (h : smsPasses segment text limit passes reserved = .ok parts) : parts = [text] ∨
      ∃ bodies, 1 < bodies.length ∧ bodies.flatten = text ∧ parts = numbered bodies := by
  induction passes generalizing reserved with
  | zero => cases h
  | succ passes ih =>
    unfold smsPasses at h
    split at h
    · cases h
    · rw [chunkByGrapheme_of_pos (by omega) (by omega)] at h
      have hwhole := flatten_graphemeParts hsegment text limit (limit - reserved)
      generalize hbodies : graphemeParts segment text limit (limit - reserved) = bodies at h hwhole
      dsimp only [bind, Except.bind, pure, Except.pure] at h
      split at h
      · cases h
        refine .inl ?_
        obtain hlong | hshort := Nat.lt_or_ge limit text.length
        · obtain _ | ⟨part, _ | ⟨part', rest⟩⟩ := parts
          · simp [← hwhole] at hlong
          · simpa using hwhole
          · simp at *
        · rw [← hbodies, graphemeParts_of_short segment hshort]
      · split at h
        · cases h
          exact .inr ⟨bodies, by omega, hwhole, rfl⟩
        · exact ih h

/-- However the parts of a text are delivered, a reader has the text again. -/
theorem reassemble_perm (hsegment : Partitions segment)
    (h : splitForSMS segment text limit = .ok parts) {received : List JsString}
    (hperm : received.Perm parts) : reassemble received = text := by
  obtain rfl | ⟨bodies, hmany, hwhole, rfl⟩ := smsPasses_parts hsegment h
  · rw [List.perm_singleton.1 hperm]
    rfl
  · have hlength : received.length = bodies.length :=
      hperm.length_eq.trans (length_numbered bodies)
    have hreads : (List.range received.length).map (fun i => bodyAt received (i + 1)) = bodies := by
      refine List.ext_getElem (by simp [hlength]) fun i hi hi' => ?_
      rw [List.getElem_map, List.getElem_range]
      exact bodyAt_of_perm hperm hi'
    unfold reassemble
    split
    · rw [List.length_singleton] at hlength
      omega
    · rw [hreads, hwhole]

/-- Three parts, the last one first. -/
theorem reassemble_perm_lastFirst : reassemble
    [js "(3/3) ack.", js "(1/3) please c", js "(2/3) all me b"] = js "please call me back." := by
  have hsplit : splitForSMS accented (js "please call me back.") 14 =
      .ok ([js "(1/3) please c", js "(2/3) all me b"] ++ [js "(3/3) ack."]) := by
    rfl
  exact reassemble_perm partitions_accented hsplit (List.perm_append_singleton _ _).symm

end TheokitGateways.Sms
