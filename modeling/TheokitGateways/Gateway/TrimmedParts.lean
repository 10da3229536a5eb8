import TheokitGateways.Gateway.ChunkText

/-!
# Parts that are trimmed

A platform that refuses an empty message gets parts without white space at their
ends, and none for a text that is all white space. What is lost is white space only,
before the first part and behind each (`chunkText_trimmed`).
-/

namespace TheokitGateways.Gateway
open Js

/-- Parts of a text that are trimmed, and lose nothing else. -/
structure TrimmedSplit (limit : Nat) (text : JsString) (parts : List JsString) : Prop where
  fits : ∀ part ∈ parts, part ≠ [] ∧ trim part = part ∧ part.length ≤ limit
  splits : ∃ lead rest : JsString, lead.all isSpace = true ∧ text = lead ++ rest ∧
    SplitsAtSpace rest parts

/-- Trimming the parts of a text moves white space to the cuts. -/
theorem SplitsAtSpace.trim {text : JsString} {parts : List JsString}
    (h : SplitsAtSpace text parts) :
    ∃ lead rest : JsString, lead.all isSpace = true ∧ text = lead ++ rest ∧
      SplitsAtSpace rest ((parts.map Js.trim).filter (· ≠ [])) := by
  induction parts generalizing text with
  | nil => exact ⟨[], text, rfl, rfl, h⟩
  | cons part parts ih =>
    obtain ⟨s, rest, hs, rfl, hrest⟩ := h.uncons
    obtain ⟨lead, rest', hlead, rfl, hsplits⟩ := ih hrest
    obtain ⟨before, after, hpart, hbefore, hafter⟩ := trim_between part
    rw [List.map_cons]
    by_cases hempty : Js.trim part = []
    · refine ⟨part ++ (s ++ lead), rest', ?_, by simp, ?_⟩
      · rw [hpart, hempty]
        simp [hbefore, hafter, hs, hlead]
      · rw [List.filter_cons_of_neg (by simp [hempty])]
        exact hsplits
    · refine ⟨before, Js.trim part ++ ((after ++ (s ++ lead)) ++ rest'), hbefore, ?_, ?_⟩
      · conv =>
          lhs
          rw [hpart]
        simp
      · rw [List.filter_cons_of_pos (by simp [hempty])]
        exact hsplits.cons (by simp [hafter, hs, hlead])

/-- A text whose parts are trimmed is split into parts that fit the limit, and nothing but white
space is lost. -/
theorem chunkText_trimmed {text : JsString} {o : ChunkTextOptions} {lastIndex : Nat}
    (haccepted : o.Accepted) (htrim : o.trimParts = true) (hstrip : o.stripLeading.OnlySpace) :
    ∃ parts, chunkText text o lastIndex = .ok parts ∧ TrimmedSplit o.limit text parts := by
  obtain ⟨hwindow, hlimit⟩ := haccepted
  have hraw : ∃ raw, chunkText text o lastIndex = .ok (finalize o raw) ∧
      (∀ part ∈ raw, part.length ≤ o.limit) ∧ SplitsAtSpace text raw := by
    refine ⟨_, chunkText_eq_ok.2 ⟨⟨hwindow, hlimit⟩, rfl⟩, ?_⟩
    split
    · refine ⟨fun part hpart => ?_, splitsAtSpace_singleton text⟩
      cases List.mem_singleton.1 hpart
      assumption
    · obtain ⟨hparts, hsplits⟩ := chunkLoop_spec hwindow hstrip lastIndex text
      exact ⟨fun part hpart => Nat.le_trans (hparts part hpart).2 hlimit, hsplits⟩
  obtain ⟨raw, hok, hlength, hsplits⟩ := hraw
  rw [finalize, if_pos htrim] at hok
  refine ⟨_, hok, fun part hpart => ?_, hsplits.trim⟩
  obtain ⟨hpart, hne⟩ := List.mem_filter.1 hpart
  obtain ⟨p, hp, rfl⟩ := List.mem_map.1 hpart
  refine ⟨of_decide_eq_true hne, trim_trim p, ?_⟩
  obtain ⟨before, after, hwhole, _⟩ := trim_between p
  have := congrArg List.length hwhole
  have := hlength p hp
  simp only [List.length_append] at *
  omega

/-- A text with more units than a part has, not counting white space, takes several parts. -/
theorem TrimmedSplit.one_lt_length {limit : Nat} {text : JsString} {parts : List JsString}
    (h : TrimmedSplit limit text parts) (hlong : limit < text.countP (!isSpace ·)) :
    1 < parts.length := by
  obtain ⟨lead, rest, hlead, rfl, hsplits⟩ := h.splits
  have hspace : lead.countP (!isSpace ·) = 0 := by
    simpa [List.countP_eq_zero] using hlead
  rw [List.countP_append, hspace, Nat.zero_add] at hlong
  exact hsplits.one_lt_length (fun part hpart => (h.fits part hpart).2.2) hlong

/-- No parts are left exactly of white space. -/
theorem TrimmedSplit.eq_nil_iff {limit : Nat} {text : JsString} {parts : List JsString}
    (h : TrimmedSplit limit text parts) : parts = [] ↔ text.all isSpace = true := by
  obtain ⟨lead, rest, hlead, rfl, hsplits⟩ := h.splits
  constructor
  · rintro rfl
    obtain ⟨stripped, hlen, _, rfl⟩ := hsplits
    simpa using hlead
  · intro hspace
    cases parts with
    | nil => rfl
    | cons part parts =>
      obtain ⟨s, rest', _, rfl, _⟩ := hsplits.uncons
      obtain ⟨hne, htrim, _⟩ := h.fits part List.mem_cons_self
      have hpart : part.all isSpace = true := by
        simp only [List.all_append, Bool.and_eq_true] at hspace
        exact hspace.2.1
      have hdrop : part.dropWhile isSpace = [] := by
        have h : (part ++ []).dropWhile isSpace = [] :=
          List.dropWhile_append_of_pos (List.all_eq_true.1 hpart)
        rwa [List.append_nil] at h
      rw [Js.trim, hdrop] at htrim
      exact (hne htrim.symm).elim

end TheokitGateways.Gateway
