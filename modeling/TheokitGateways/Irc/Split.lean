import TheokitGateways.Js.Unicode

/-!
# Outbound text as bodies of IRC commands

`splitForIrc` removes NUL, splits a text at its line breaks and cuts each line
into bodies whose command fits 512 bytes with the prefix the server adds. The
bodies of a line are its characters in order (`cutLine_bodies`), and the lines
are those of the text (`visibleLines_withoutNul`).
-/

namespace TheokitGateways.Irc
open Js

def nul : UInt16 := 0
def lf : UInt16 := 0x0A
def cr : UInt16 := 0x0D

/-- `text.replaceAll("\0", "")`. -/
def withoutNul (text : JsString) : JsString := text.filter (· ≠ nul)

/-- A line with one more unit at its front. -/
def consUnit (c : UInt16) : List JsString → List JsString
  | [] => [[c]]
  | line :: lines => (c :: line) :: lines

/-- `text.split(/\r\n|\n|\r/)`. -/
def splitLines : JsString → List JsString
  | [] => [[]]
  | [c] => if c = lf ∨ c = cr then [[], []] else [[c]]
  | c :: d :: text =>
    if c = cr ∧ d = lf then [] :: splitLines text
    else if c = lf ∨ c = cr then [] :: splitLines (d :: text)
    else consUnit c (splitLines (d :: text))

/-- One code point of the loop of `cutLine`: the pieces, the piece under way and its bytes. -/
def cutStep (budget : Nat) : List JsString × JsString × Nat → JsString →
    List JsString × JsString × Nat
  | (pieces, piece, pieceBytes), codePoint =>
    let bytes := byteLength codePoint
    if budget < pieceBytes + bytes then (pieces ++ [piece], codePoint, bytes)
    else (pieces, piece ++ codePoint, pieceBytes + bytes)

/-- Cut one line into pieces of at most `budget` UTF-8 bytes, at code-point boundaries. -/
def cutLine (line : JsString) (budget : Nat) : List JsString :=
  let (pieces, piece, _) := (characters line).foldl (cutStep budget) ([], [], 0)
  if piece ≠ [] then pieces ++ [piece] else pieces

def lineLimitBytes : Nat := 512
def crlfBytes : Nat := 2
def defaultPrefixReserveBytes : Nat := 100
def maxCodePointBytes : Nat := 4

/-- What a command says before its body. -/
def commandFront (target : JsString) : JsString := js "PRIVMSG " ++ target ++ js " :"

/-- The bytes a command leaves for its body. -/
def bodyBudget (target : JsString) (reserve : Nat) : Int :=
  lineLimitBytes - crlfBytes - byteLength (commandFront target) - reserve

/-- The decimal text of an integer. -/
def intText (n : Int) : JsString := if n < 0 then unit '-' :: natText n.natAbs else natText n.natAbs

/-- The bodies of the commands that carry a text; an error is the message of the `RangeError`. -/
def splitForIrc (text target : JsString) (reserve : Nat := defaultPrefixReserveBytes) :
    Except JsString (List JsString) :=
  let budget := bodyBudget target reserve
  if budget < maxCodePointBytes then
    .error (js "splitForIrc: target \"" ++ target ++ js "\" leaves " ++ intText budget ++
      js " bytes per command, under the " ++ natText maxCodePointBytes ++
      js " one code point may need")
  else
    .ok (((splitLines (withoutNul text)).filter (· ≠ [])).flatMap (cutLine · budget.toNat))

/-- What the loop of `cutLine` has made of the code points it has passed: the pieces are groups of
them, and the piece under way the last ones. -/
structure Cut (budget : Nat) (passed : List JsString) (groups : List (List JsString))
    (last : List JsString) (state : List JsString × JsString × Nat) : Prop where
  passed : passed = groups.flatten ++ last
  pieces : state.1 = groups.map List.flatten
  piece : state.2.1 = last.flatten
  bytes : state.2.2 = totalBytes last
  fits : state.2.2 ≤ budget
  groups_fit : ∀ g ∈ groups, g ≠ [] ∧ totalBytes g ≤ budget

/-- A code point joins the piece under way, or begins the next. -/
theorem Cut.step {budget : Nat} {passed : List JsString} {groups : List (List JsString)}
    {last : List JsString} {state : List JsString × JsString × Nat}
    (h : Cut budget passed groups last state) {codePoint : JsString}
    (hbytes : byteLength codePoint ≤ budget) :
    ∃ groups' last', Cut budget (passed ++ [codePoint]) groups' last'
      (cutStep budget state codePoint) := by
  obtain ⟨pieces, piece, pieceBytes⟩ := state
  simp only [cutStep]
  split
  · refine ⟨groups ++ [last], [codePoint], ?_, ?_, ?_, ?_, hbytes, ?_⟩
    · simp [h.passed]
    · rw [List.map_append, ← h.pieces, List.map_cons, ← h.piece, List.map_nil]
    · simp
    · exact (totalBytes_singleton codePoint).symm
    · intro g hg
      obtain hg | hg := List.mem_append.1 hg
      · exact h.groups_fit g hg
      · cases List.mem_singleton.1 hg
        refine ⟨fun hnil => ?_, h.bytes ▸ h.fits⟩
        have hzero : pieceBytes = 0 := by simpa [hnil] using h.bytes
        omega
  · refine ⟨groups, last ++ [codePoint], ?_, h.pieces, ?_, ?_, Nat.not_lt.1 ‹_›, h.groups_fit⟩
    · rw [h.passed, List.append_assoc]
    · have hpiece : piece = last.flatten := h.piece
      simp [hpiece]
    · have hsum : pieceBytes = totalBytes last := h.bytes
      rw [totalBytes_append, totalBytes_singleton, hsum]

theorem cut_foldl {budget : Nat} {codePoints : List JsString}
    (hbytes : ∀ ch ∈ codePoints, byteLength ch ≤ budget) {passed : List JsString}
    {groups : List (List JsString)} {last : List JsString} {state : List JsString × JsString × Nat}
    (h : Cut budget passed groups last state) :
    ∃ groups' last', Cut budget (passed ++ codePoints) groups' last'
      (codePoints.foldl (cutStep budget) state) := by
  induction codePoints generalizing passed groups last state with
  | nil => exact ⟨groups, last, by simpa using h⟩
  | cons ch codePoints ih =>
    obtain ⟨groups', last', h'⟩ := h.step (hbytes ch List.mem_cons_self)
    rw [List.append_cons]
    exact ih (fun c hc => hbytes c (List.mem_cons_of_mem _ hc)) h'

/-- The pieces of a line are groups of its characters, each within the budget. -/
theorem cutLine_groups {line : JsString} {budget : Nat} (hbudget : maxCodePointBytes ≤ budget) :
    ∃ groups : List (List JsString), groups.flatten = characters line ∧
      cutLine line budget = groups.map List.flatten ∧
      ∀ g ∈ groups, g ≠ [] ∧ totalBytes g ≤ budget := by
  have hbytes : ∀ ch ∈ characters line, byteLength ch ≤ budget := fun ch hch =>
    Nat.le_trans (byteLength_of_mem_characters hch).2 hbudget
  have hstart : Cut budget [] [] [] ([], [], 0) :=
    ⟨rfl, rfl, rfl, rfl, Nat.zero_le _, by simp⟩
  obtain ⟨groups, last, h⟩ := cut_foldl hbytes hstart
  rw [List.nil_append] at h
  simp only [cutLine]
  by_cases hlast : last = []
  · refine ⟨groups, by simp [h.passed, hlast], ?_, h.groups_fit⟩
    rw [if_neg (by simp [h.piece, hlast]), h.pieces]
  · have hne : last.flatten ≠ [] := by
      obtain ⟨ch, rest, rfl⟩ := List.exists_cons_of_ne_nil hlast
      have hmem : ch ∈ characters line := by
        rw [h.passed]
        exact List.mem_append_right _ List.mem_cons_self
      simp [ne_nil_of_mem_characters hmem]
    refine ⟨groups ++ [last], by simp [h.passed], ?_, ?_⟩
    · rw [if_pos (by rwa [h.piece]), h.pieces, h.piece, List.map_append]
      rfl
    · intro g hg
      obtain hg | hg := List.mem_append.1 hg
      · exact h.groups_fit g hg
      · cases List.mem_singleton.1 hg
        exact ⟨hlast, h.bytes ▸ h.fits⟩

theorem characters_of_group {s : JsString} {groups : List (List JsString)}
    (h : groups.flatten = characters s) {g : List JsString} (hg : g ∈ groups) :
    characters g.flatten = g := by
  obtain ⟨before, after, rfl⟩ := List.append_of_mem hg
  rw [List.flatten_append, List.flatten_cons] at h
  exact (characters_of_split (characters_of_split h.symm).2).1

/-- The bodies of a line: its characters in order, none cut, each body within the budget. -/
theorem cutLine_bodies {line : JsString} {budget : Nat} (hbudget : maxCodePointBytes ≤ budget) :
    (cutLine line budget).flatten = line ∧
      (cutLine line budget).flatMap characters = characters line ∧
      ∀ body ∈ cutLine line budget, body ≠ [] ∧ byteLength body ≤ budget := by
  obtain ⟨groups, hflat, hcut, hgroups⟩ := @cutLine_groups line budget hbudget
  rw [hcut]
  refine ⟨?_, ?_, fun body hbody => ?_⟩
  · rw [← List.flatten_flatten, hflat, characters_flatten]
  · have hmap : groups.map (fun g => characters g.flatten) = groups.map id :=
      List.map_congr_left fun g hg => characters_of_group hflat hg
    rw [List.flatMap_map, List.flatMap_def, hmap, List.map_id, hflat]
  · obtain ⟨g, hg, rfl⟩ := List.mem_map.1 hbody
    obtain ⟨hne, hsum⟩ := hgroups g hg
    have hchars := characters_of_group hflat hg
    constructor
    · intro hnil
      rw [hnil] at hchars
      exact hne hchars.symm
    · rwa [byteLength_eq_totalBytes, hchars]

theorem splitLines_lf (text : JsString) : splitLines (lf :: text) = [] :: splitLines text := by
  cases text with
  | nil => rfl
  | cons d text => rw [splitLines, if_neg (fun h => absurd h.1 (by decide)), if_pos (.inl rfl)]

theorem splitLines_plain {c : UInt16} (hlf : c ≠ lf) (hcr : c ≠ cr) (text : JsString) :
    splitLines (c :: text) = consUnit c (splitLines text) := by
  cases text with
  | nil => simp [splitLines, hlf, hcr, consUnit]
  | cons d text => simp [splitLines, hlf, hcr]

/-- The lines of a text that are not empty. -/
def visibleLines (text : JsString) : List JsString := (splitLines text).filter (· ≠ [])

/-- A carriage return ends a line, and a line feed after it ends none. -/
theorem splitLines_cr (text : JsString) :
    ∃ lines, splitLines (cr :: text) = [] :: lines ∧
      lines.filter (· ≠ []) = visibleLines text := by
  cases text with
  | nil => exact ⟨_, rfl, rfl⟩
  | cons d text =>
    by_cases hd : d = lf
    · subst hd
      refine ⟨splitLines text, by rw [splitLines, if_pos ⟨rfl, rfl⟩], ?_⟩
      rw [visibleLines, splitLines_lf]
      simp
    · refine ⟨splitLines (d :: text), ?_, rfl⟩
      rw [splitLines, if_neg (by simp [hd]), if_pos (.inr rfl)]

/-- Lists of lines with the same first line and the same visible ones after it. -/
def SameVisible (xs ys : List JsString) : Prop :=
  ∃ line xs' ys', xs = line :: xs' ∧ ys = line :: ys' ∧ xs'.filter (· ≠ []) = ys'.filter (· ≠ [])

theorem SameVisible.filter_eq {xs ys : List JsString} (h : SameVisible xs ys) :
    xs.filter (· ≠ []) = ys.filter (· ≠ []) := by
  obtain ⟨line, xs', ys', rfl, rfl, heq⟩ := h
  rw [List.filter_cons, List.filter_cons, heq]

theorem filter_map_withoutNul (lines : List JsString) :
    (lines.map withoutNul).filter (· ≠ []) =
      ((lines.filter (· ≠ [])).map withoutNul).filter (· ≠ []) := by
  induction lines with
  | nil => rfl
  | cons line lines ih =>
    cases line with
    | nil => simpa [withoutNul] using ih
    | cons c line =>
      rw [List.filter_cons_of_pos (p := (· ≠ [])) (by simp), List.map_cons, List.map_cons,
        List.filter_cons, List.filter_cons, ih]

theorem sameVisible_withoutNul (text : JsString) :
    SameVisible ((splitLines text).map withoutNul) (splitLines (withoutNul text)) := by
  induction text with
  | nil => exact ⟨[], [], [], rfl, rfl, rfl⟩
  | cons c text ih =>
    by_cases hlf : c = lf
    · subst hlf
      have htext : withoutNul (lf :: text) = lf :: withoutNul text := rfl
      rw [htext, splitLines_lf, splitLines_lf]
      exact ⟨[], _, _, rfl, rfl, ih.filter_eq⟩
    · by_cases hcr : c = cr
      · subst hcr
        have htext : withoutNul (cr :: text) = cr :: withoutNul text := rfl
        obtain ⟨lines, hlines, hvisible⟩ := splitLines_cr text
        obtain ⟨lines', hlines', hvisible'⟩ := splitLines_cr (withoutNul text)
        rw [htext, hlines, hlines']
        refine ⟨[], _, _, rfl, rfl, ?_⟩
        rw [filter_map_withoutNul, hvisible, visibleLines, ← filter_map_withoutNul, hvisible']
        exact ih.filter_eq
      · rw [splitLines_plain hlf hcr]
        obtain ⟨line, xs, ys, hxs, hys, heq⟩ := ih
        obtain ⟨first, rest, hsplit⟩ : ∃ first rest, splitLines text = first :: rest := by
          cases hsplit : splitLines text with
          | nil => simp [hsplit] at hxs
          | cons first rest => exact ⟨first, rest, rfl⟩
        rw [hsplit, List.map_cons] at hxs
        obtain ⟨rfl, rfl⟩ := List.cons.inj hxs
        rw [hsplit, consUnit]
        by_cases hnul : c = nul
        · have htext : withoutNul (c :: text) = withoutNul text := by simp [withoutNul, hnul]
          have hline : withoutNul (c :: first) = withoutNul first := by simp [withoutNul, hnul]
          rw [htext, hys]
          exact ⟨_, _, _, congrArg (· :: rest.map withoutNul) hline, rfl, heq⟩
        · have htext : withoutNul (c :: text) = c :: withoutNul text := by simp [withoutNul, hnul]
          have hline : withoutNul (c :: first) = c :: withoutNul first := by
            simp [withoutNul, hnul]
          rw [htext, splitLines_plain hlf hcr, hys, consUnit]
          exact ⟨_, _, _, congrArg (· :: rest.map withoutNul) hline, rfl, heq⟩

/-- Removing NUL from a text removes it from its lines, up to lines that are empty. -/
theorem visibleLines_withoutNul (text : JsString) :
    ((splitLines text).map withoutNul).filter (· ≠ []) = visibleLines (withoutNul text) :=
  (sameVisible_withoutNul text).filter_eq

theorem mem_consUnit {c : UInt16} {lines : List JsString} {line : JsString}
    (h : line ∈ consUnit c lines) :
    line = [c] ∨ (∃ l ∈ lines, line = c :: l) ∨ line ∈ lines := by
  cases lines with
  | nil => exact .inl (List.mem_singleton.1 h)
  | cons first rest =>
    obtain rfl | h := List.mem_cons.1 h
    · exact .inr (.inl ⟨first, List.mem_cons_self, rfl⟩)
    · exact .inr (.inr (List.mem_cons_of_mem _ h))

/-- A line holds units of the text, and no line break. -/
theorem of_mem_splitLines {text line : JsString} (h : line ∈ splitLines text) :
    ∀ u ∈ line, u ∈ text ∧ u ≠ lf ∧ u ≠ cr := by
  fun_induction splitLines text generalizing line with
  | case1 => simp_all
  | case2 c hbreak => simp_all
  | case3 c hbreak =>
    rw [not_or] at hbreak
    cases List.mem_singleton.1 h
    simpa using hbreak
  | case4 c d text hcrlf ih =>
    obtain rfl | h := List.mem_cons.1 h
    · simp
    · intro u hu
      exact ⟨List.mem_cons_of_mem _ (List.mem_cons_of_mem _ (ih h u hu).1), (ih h u hu).2⟩
  | case5 c d text hcrlf hbreak ih =>
    obtain rfl | h := List.mem_cons.1 h
    · simp
    · exact fun u hu => ⟨List.mem_cons_of_mem _ (ih h u hu).1, (ih h u hu).2⟩
  | case6 c d text hcrlf hbreak ih =>
    rw [not_or] at hbreak
    have hfront : c ∈ c :: d :: text ∧ c ≠ lf ∧ c ≠ cr := ⟨List.mem_cons_self, hbreak⟩
    obtain rfl | ⟨l, hl, rfl⟩ | h := mem_consUnit h
    · simpa using hbreak
    · refine List.forall_mem_cons.2 ⟨hfront, fun u hu => ?_⟩
      exact ⟨List.mem_cons_of_mem _ (ih hl u hu).1, (ih hl u hu).2⟩
    · exact fun u hu => ⟨List.mem_cons_of_mem _ (ih h u hu).1, (ih h u hu).2⟩

/-- The command that carries a body, as it goes over the wire. -/
def command (target body : JsString) : JsString := commandFront target ++ body ++ js "\r\n"

/-- The bytes of a command are those of its front, its body and its line break. -/
theorem byteLength_command (target body : JsString) :
    byteLength (command target body) =
      byteLength (commandFront target) + byteLength body + crlfBytes := by
  have hfront : (commandFront target).getLast? = some (unit ':') := by
    simp only [commandFront, List.getLast?_append]
    rfl
  have hlast : (commandFront target).getLast?.any isHighSurrogate = false := by
    rw [hfront]
    rfl
  have hcrlf : (js "\r\n").head?.any isLowSurrogate = false := rfl
  rw [command, byteLength_append (by rw [hcrlf, Bool.and_false]),
    byteLength_append (by rw [hlast, Bool.false_and])]
  rfl

/-- What the bodies made of a text are: for each line of the text those that carry it, in order. -/
structure Bodies (text target : JsString) (reserve : Nat) (bodies : List JsString) : Prop where
  /-- The bodies are those of the lines, one line after another. -/
  lines : ∃ bodiesOf : JsString → List JsString,
    bodies = (splitLines text).flatMap bodiesOf ∧
      ∀ line ∈ splitLines text, (bodiesOf line).flatten = withoutNul line ∧
        (bodiesOf line).flatMap characters = characters (withoutNul line)
  fits : ∀ body ∈ bodies, byteLength (command target body) + reserve ≤ lineLimitBytes
  visible : ∀ body ∈ bodies, body ≠ [] ∧ nul ∉ body ∧ lf ∉ body ∧ cr ∉ body

theorem flatMap_filter_ne_nil {f : JsString → List JsString} (hf : f [] = [])
    (lines : List JsString) : (lines.filter (· ≠ [])).flatMap f = lines.flatMap f := by
  induction lines with
  | nil => rfl
  | cons line lines ih =>
    by_cases hline : line = []
    · simp only [hline, List.flatMap_cons, hf, List.nil_append]
      simpa using ih
    · rw [List.filter_cons_of_pos (by simpa using hline), List.flatMap_cons, List.flatMap_cons, ih]

theorem splitForIrc_bodies {text target : JsString} {reserve : Nat} {bodies : List JsString}
    (h : splitForIrc text target reserve = .ok bodies) : Bodies text target reserve bodies := by
  simp only [splitForIrc] at h
  split at h
  · cases h
  · obtain rfl := Except.ok.inj h
    obtain ⟨budget, hbudget⟩ : ∃ budget : Nat, bodyBudget target reserve = budget :=
      ⟨_, (Int.toNat_of_nonneg (by unfold maxCodePointBytes at *; omega)).symm⟩
    have hroom : maxCodePointBytes ≤ budget := by omega
    rw [hbudget, Int.toNat_natCast]
    have hbodies (body : JsString)
        (hbody : body ∈ (visibleLines (withoutNul text)).flatMap (cutLine · budget)) :
        ∃ line ∈ splitLines (withoutNul text), body ∈ cutLine line budget := by
      obtain ⟨line, hline, hbody⟩ := List.mem_flatMap.1 hbody
      exact ⟨line, (List.mem_filter.1 hline).1, hbody⟩
    refine ⟨⟨fun line => cutLine (withoutNul line) budget, ?_, fun line _ => ?_⟩, ?_, ?_⟩
    · have hcut : cutLine [] budget = [] := rfl
      show (visibleLines (withoutNul text)).flatMap (cutLine · budget) = _
      rw [← visibleLines_withoutNul, flatMap_filter_ne_nil hcut, List.flatMap_map]
    · obtain ⟨hflat, hchars, _⟩ := @cutLine_bodies (withoutNul line) budget hroom
      exact ⟨hflat, hchars⟩
    · intro body hbody
      obtain ⟨line, _, hbody⟩ := hbodies body hbody
      have hle := ((cutLine_bodies hroom).2.2 body hbody).2
      rw [byteLength_command]
      unfold bodyBudget at hbudget
      omega
    · intro body hbody
      obtain ⟨line, hline, hbody⟩ := hbodies body hbody
      have hunits (u : UInt16) (hu : u ∈ body) : u ∈ withoutNul text ∧ u ≠ lf ∧ u ≠ cr := by
        refine of_mem_splitLines hline u ?_
        rw [← (@cutLine_bodies line budget hroom).1]
        exact List.mem_flatten.2 ⟨body, hbody, hu⟩
      refine ⟨((cutLine_bodies hroom).2.2 body hbody).1, fun hu => ?_, fun hu => ?_, fun hu => ?_⟩
      · have := (hunits _ hu).1
        simp [withoutNul] at this
      · exact (hunits _ hu).2.1 rfl
      · exact (hunits _ hu).2.2 rfl

example : (splitForIrc (js "one\r\ntwo\n\nthree\rfour\x00") (js "#theokit")).toOption =
    some [js "one", js "two", js "three", js "four"] := by decide +kernel

end TheokitGateways.Irc
