import TheokitGateways.Gateway.Adapter
import TheokitGateways.Splitters

/-!
# Rendering a plain text for platforms that parse markdown

Discord and Mattermost render what they are sent as markdown, so the markers of a
plain text go out escaped. The text is split first and each part escaped; a part
that escaping makes too long is split again at half the cap. No escape is cut in
two, and the bodies read without their escapes are the text again
(`plain_rendered`).
-/

namespace TheokitGateways
open Js Gateway

/-- A unit `escapeMarkdown` puts a backslash before. -/
def isEscaped (c : UInt16) : Bool := (js "\\*_`~").contains c

/-- `text.replace(/([\\*_`~])/g, "\\$1")`. -/
def escapeMarkdown (text : JsString) : JsString :=
  text.flatMap fun c => if isEscaped c then [unit '\\', c] else [c]

/-- What a body says, read left to right: a backslash stands before a unit that needs one, and no
such unit stands by itself. -/
def readEscaped : JsString → Option JsString
  | [] => some []
  | [c] => if isEscaped c then none else some [c]
  | c :: d :: rest =>
    if c = unit '\\' then
      if isEscaped d then (readEscaped rest).map (d :: ·) else none
    else if isEscaped c then none
    else (readEscaped (d :: rest)).map (c :: ·)

/-- The bodies of one part: it is split again where its rendering passes the cap. -/
def partBodies (cap : Nat) (body : JsString → JsString)
    (splitEscaped : JsString → Except JsString (List JsString)) (part : JsString) :
    Except JsString (List JsString) :=
  if (body part).length ≤ cap then .ok [body part] else (splitEscaped part).map (List.map body)

/-- The bodies of a text that is split before it is rendered. -/
def renderParts (cap : Nat) (body : JsString → JsString)
    (split splitEscaped : JsString → Except JsString (List JsString)) (text : JsString) :
    Except JsString (List JsString) := do
  let bodies ← (← split text).mapM (partBodies cap body splitEscaped)
  return bodies.flatten

/-- Split a text that is escaped after the split, at half the cap. -/
def splitForEscapedDiscord (text : JsString) : Except JsString (List JsString) :=
  chunkText text
    { discordOptions with limit := discordMaxMessage / 2, safeLimit := some (safeDiscordChunk / 2) }

/-- The text to send, with the caller's declared format applied. -/
def bodyFor (format : Option Format) (text : JsString) : JsString :=
  if format = some .plain then escapeMarkdown text else text

/-- The message bodies a text goes out as. -/
def renderMessages (out : OutboundMessage) : Except JsString (List JsString) :=
  renderParts discordMaxMessage (bodyFor out.format) splitForDiscord splitForEscapedDiscord out.text

/-- Split a text that is escaped after the split, at half the cap. -/
def splitForEscapedMattermost (text : JsString) : Except JsString (List JsString) :=
  chunkText text
    { mattermostOptions with
      limit := mattermostMaxPost / 2, safeLimit := some (safeMattermostChunk / 2) }

/-- The post bodies a text goes out as. -/
def renderPosts (out : OutboundMessage) : Except JsString (List JsString) :=
  if out.format ≠ some .plain then splitForMattermost out.text
  else
    renderParts mattermostMaxPost escapeMarkdown splitForMattermost splitForEscapedMattermost
      out.text

/-! ### Escaping -/

theorem readEscaped_escaped {c : UInt16} (h : isEscaped c = true) (rest : JsString) :
    readEscaped (unit '\\' :: c :: rest) = (readEscaped rest).map (c :: ·) := by
  rw [readEscaped, if_pos rfl, if_pos h]

theorem readEscaped_plain {c : UInt16} (h : isEscaped c = false) (rest : JsString) :
    readEscaped (c :: rest) = (readEscaped rest).map (c :: ·) := by
  have hc : c ≠ unit '\\' := by
    rintro rfl
    cases h
  cases rest with
  | nil => simp [readEscaped, h]
  | cons d rest => rw [readEscaped, if_neg hc, if_neg (Bool.eq_false_iff.1 h)]

/-- An escaped text reads as it was. -/
theorem readEscaped_escapeMarkdown (text : JsString) :
    readEscaped (escapeMarkdown text) = some text := by
  induction text with
  | nil => rfl
  | cons c text ih =>
    rw [escapeMarkdown] at ih ⊢
    rw [List.flatMap_cons]
    split
    · rw [List.cons_append, List.singleton_append, readEscaped_escaped ‹_›, ih]
      rfl
    · rw [List.singleton_append, readEscaped_plain (Bool.eq_false_iff.2 ‹_›), ih]
      rfl

/-- Escaping adds at most one backslash per unit, and takes none away. -/
theorem length_escapeMarkdown (text : JsString) :
    text.length ≤ (escapeMarkdown text).length ∧
      (escapeMarkdown text).length ≤ 2 * text.length := by
  induction text with
  | nil => exact ⟨Nat.le_refl _, Nat.le_refl _⟩
  | cons c text ih =>
    rw [escapeMarkdown] at ih ⊢
    rw [List.flatMap_cons, List.length_append, List.length_cons]
    split <;> simp only [List.length_cons, List.length_nil] <;> omega

theorem escapeMarkdown_ne_nil {text : JsString} (h : text ≠ []) : escapeMarkdown text ≠ [] := by
  have hpos := List.length_pos_iff.2 h
  have hlen := (length_escapeMarkdown text).1
  exact List.length_pos_iff.1 (by omega)

/-! ### Splitting in two levels -/

/-- Bodies that go out for a text: each one fits the cap and reads without its escapes, and so they
give the text again, but for white space. -/
structure PlainBodies (cap : Nat) (text : JsString) (bodies : List JsString) : Prop where
  fits : ∀ body ∈ bodies, body ≠ [] ∧ body.length ≤ cap
  reads : ∃ texts, bodies.mapM readEscaped = some texts ∧ SplitsAtSpace text texts

theorem mapM_readEscaped (parts : List JsString) :
    (parts.map escapeMarkdown).mapM readEscaped = some parts := by
  induction parts with
  | nil => rfl
  | cons part parts ih =>
    rw [List.map_cons, List.mapM_cons, readEscaped_escapeMarkdown, ih]
    rfl

/-- What a splitter does to a text that is not empty. -/
def SplitsTo (limit : Nat) (split : JsString → Except JsString (List JsString)) : Prop :=
  ∀ text ≠ [], ∃ parts, split text = .ok parts ∧
    (∀ part ∈ parts, part ≠ [] ∧ part.length ≤ limit) ∧ SplitsAtSpace text parts

theorem splitsTo_chunkText {o : ChunkTextOptions} (haccepted : o.Accepted)
    (htrim : o.trimParts = false) (hstrip : o.stripLeading.OnlySpace) :
    SplitsTo o.limit fun text => chunkText text o := by
  obtain ⟨hwindow, hlimit⟩ := haccepted
  intro text hne
  refine ⟨_, chunkText_eq_ok.2 ⟨⟨hwindow, hlimit⟩, rfl⟩, ?_⟩
  rw [finalize, htrim, if_neg Bool.false_ne_true]
  split
  · refine ⟨fun part hpart => ?_, splitsAtSpace_singleton text⟩
    cases List.mem_singleton.1 hpart
    exact ⟨hne, ‹_›⟩
  · obtain ⟨hparts, hsplits⟩ := chunkLoop_spec hwindow hstrip 0 text
    exact ⟨fun part hpart => (hparts part hpart).imp_right (Nat.le_trans · hlimit), hsplits⟩

variable {cap limit half : Nat} {split splitEscaped : JsString → Except JsString (List JsString)}

/-- A splitter at half the cap gives parts that fit it when they are escaped. -/
theorem plainBodies_halves (hhalf : SplitsTo half splitEscaped) (hcap : 2 * half ≤ cap)
    {part : JsString} (hne : part ≠ []) :
    ∃ halves, splitEscaped part = .ok halves ∧ halves ≠ [] ∧
      PlainBodies cap part (halves.map escapeMarkdown) := by
  obtain ⟨halves, hok, hparts, hsplits⟩ := hhalf part hne
  refine ⟨halves, hok, ?_, fun body hbody => ?_, halves, mapM_readEscaped halves, hsplits⟩
  · rintro rfl
    obtain ⟨stripped, hlen, _, rfl⟩ := hsplits
    exact hne (by simp)
  · obtain ⟨p, hp, rfl⟩ := List.mem_map.1 hbody
    obtain ⟨hne', hlen⟩ := hparts p hp
    have := (length_escapeMarkdown p).2
    exact ⟨escapeMarkdown_ne_nil hne', by omega⟩

theorem plainBodies_part (hhalf : SplitsTo half splitEscaped) (hcap : 2 * half ≤ cap)
    {part : JsString} (hne : part ≠ []) :
    ∃ bodies, partBodies cap escapeMarkdown splitEscaped part = .ok bodies ∧ bodies ≠ [] ∧
      PlainBodies cap part bodies := by
  unfold partBodies
  split
  · refine ⟨_, rfl, by simp, fun body hbody => ?_, [part], mapM_readEscaped [part],
      splitsAtSpace_singleton part⟩
    cases List.mem_singleton.1 hbody
    exact ⟨escapeMarkdown_ne_nil hne, ‹_›⟩
  · obtain ⟨halves, hok, hhalves, hbodies⟩ := plainBodies_halves hhalf hcap hne
    refine ⟨_, by rw [hok]; rfl, by simpa using hhalves, hbodies⟩

theorem PlainBodies.append {a b s : JsString} {as bs : List JsString} (hne : as ≠ [])
    (ha : PlainBodies cap a as) (hs : s.all isSpace = true) (hb : PlainBodies cap b bs) :
    PlainBodies cap (a ++ (s ++ b)) (as ++ bs) := by
  obtain ⟨hafits, xs, haread, hasplits⟩ := ha
  obtain ⟨hbfits, ys, hbread, hbsplits⟩ := hb
  have hxs : xs ≠ [] := by
    rintro rfl
    obtain ⟨body, as, rfl⟩ := List.exists_cons_of_ne_nil hne
    rw [List.mapM_cons] at haread
    obtain ⟨x, _, hrest⟩ := Option.bind_eq_some_iff.1 haread
    obtain ⟨xs, _, hxs⟩ := Option.bind_eq_some_iff.1 hrest
    cases hxs
  refine ⟨fun body hbody => ?_, xs ++ ys, ?_, hasplits.append hxs hs hbsplits⟩
  · exact (List.mem_append.1 hbody).elim (hafits body) (hbfits body)
  · rw [List.mapM_append, haread, hbread]
    rfl

/-- The bodies of the parts of a text. -/
theorem plainBodies_parts (hhalf : SplitsTo half splitEscaped) (hcap : 2 * half ≤ cap)
    {parts : List JsString} {text : JsString} (hne : ∀ part ∈ parts, part ≠ [])
    (hsplits : SplitsAtSpace text parts) :
    ∃ bodies, parts.mapM (partBodies cap escapeMarkdown splitEscaped) = .ok bodies ∧
      PlainBodies cap text bodies.flatten := by
  induction parts generalizing text with
  | nil => exact ⟨[], rfl, by simp, [], rfl, hsplits⟩
  | cons part parts ih =>
    obtain ⟨hpart, hparts⟩ := List.forall_mem_cons.1 hne
    obtain ⟨s, rest, hs, rfl, hrest⟩ := hsplits.uncons
    obtain ⟨first, hfirst, hfirstNe, hfirstBodies⟩ := plainBodies_part hhalf hcap hpart
    obtain ⟨others, hothers, hotherBodies⟩ := ih hparts hrest
    refine ⟨first :: others, ?_, ?_⟩
    · rw [List.mapM_cons, hfirst, hothers]
      rfl
    · rw [List.flatten_cons]
      exact hfirstBodies.append hfirstNe hs hotherBodies

/-- A plain text that is not empty goes out in bodies for it. -/
theorem renderParts_plain (hsplit : SplitsTo limit split) (hhalf : SplitsTo half splitEscaped)
    (hcap : 2 * half ≤ cap) {text : JsString} (hne : text ≠ []) :
    ∃ bodies, renderParts cap escapeMarkdown split splitEscaped text = .ok bodies ∧
      PlainBodies cap text bodies := by
  obtain ⟨parts, hok, hparts, hsplits⟩ := hsplit text hne
  obtain ⟨bodies, hbodies, hplain⟩ :=
    plainBodies_parts hhalf hcap (fun part hpart => (hparts part hpart).1) hsplits
  refine ⟨bodies.flatten, ?_, hplain⟩
  rw [renderParts, hok]
  simp only [bind, Except.bind] at hbodies ⊢
  rw [hbodies]
  rfl

/-- Discord and Mattermost render a plain text in bodies that fit their caps and cut no escape in
two, and that read as the text again but for white space at the cuts. -/
theorem plain_rendered (out : OutboundMessage) (hplain : out.format = some .plain)
    (hne : out.text ≠ []) :
    (∃ bodies, renderMessages out = .ok bodies ∧ PlainBodies 2000 out.text bodies) ∧
      ∃ bodies, renderPosts out = .ok bodies ∧ PlainBodies 16383 out.text bodies := by
  constructor
  · have hbody : bodyFor out.format = escapeMarkdown := by
      funext text
      rw [bodyFor, if_pos hplain]
    rw [renderMessages, hbody]
    exact renderParts_plain
      (splitsTo_chunkText ⟨by decide, by decide⟩ rfl StripLeading.newlines_onlySpace)
      (splitsTo_chunkText ⟨by decide, by decide⟩ rfl StripLeading.newlines_onlySpace)
      (by decide) hne
  · rw [renderPosts, if_neg (not_not_intro hplain)]
    exact renderParts_plain
      (splitsTo_chunkText ⟨by decide, by decide⟩ rfl StripLeading.spaces_onlySpace)
      (splitsTo_chunkText ⟨by decide, by decide⟩ rfl StripLeading.spaces_onlySpace)
      (by decide) hne

/-- A text of markers, sent as it is: longer than a part may be, and of each part the escaped form
is too. -/
def markerMessage : OutboundMessage where
  channel := ⟨js "c", .dm, none⟩
  text := List.replicate 20000 (unit '*')
  format := some .plain

theorem plain_rendered_markers :
    (∃ bodies, renderMessages markerMessage = .ok bodies ∧
        PlainBodies 2000 markerMessage.text bodies) ∧
      ∃ bodies, renderPosts markerMessage = .ok bodies ∧
        PlainBodies 16383 markerMessage.text bodies :=
  plain_rendered markerMessage rfl (List.ne_nil_of_length_pos (by
    rw [markerMessage, List.length_replicate]
    decide))

end TheokitGateways
