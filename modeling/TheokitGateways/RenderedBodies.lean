import TheokitGateways.PlainRendering

/-!
# What the bodies of a message carry

Discord and Mattermost read what they are sent as markdown. A text that is declared
plain goes out escaped and any other as it is; either way the bodies fit the cap and
what they are read as is the text again, but for white space at the cuts.
-/

namespace TheokitGateways
open Js Gateway

/-- What a body says on a platform that parses markdown. -/
def readBody (format : Option Format) (body : JsString) : Option JsString :=
  if format = some .plain then readEscaped body else some body

/-- The bodies carry a message: each fits, and they read as its text, cut at white space. -/
structure Carries (cap : Nat) (out : OutboundMessage) (bodies : List JsString) : Prop where
  fits : ∀ body ∈ bodies, body ≠ [] ∧ body.length ≤ cap
  reads : ∃ texts, bodies.mapM (readBody out.format) = some texts ∧ SplitsAtSpace out.text texts

variable {cap : Nat} {out : OutboundMessage} {bodies : List JsString}

theorem PlainBodies.carries (hplain : out.format = some .plain)
    (h : PlainBodies cap out.text bodies) : Carries cap out bodies := by
  have hread : readBody out.format = readEscaped := by
    funext body
    rw [readBody, if_pos hplain]
  refine ⟨h.fits, ?_⟩
  rw [hread]
  exact h.reads

/-- Parts that go out as they are. -/
theorem carries_parts (hmarkup : out.format ≠ some .plain)
    (hfits : ∀ body ∈ bodies, body ≠ [] ∧ body.length ≤ cap)
    (hsplits : SplitsAtSpace out.text bodies) : Carries cap out bodies := by
  refine ⟨hfits, bodies, ?_, hsplits⟩
  clear hfits hsplits
  induction bodies with
  | nil => rfl
  | cons body bodies ih =>
    rw [List.mapM_cons, ih, readBody, if_neg hmarkup]
    rfl

/-- A text that is not empty takes a body. -/
theorem Carries.ne_nil (h : Carries cap out bodies) (hne : out.text ≠ []) : bodies ≠ [] := by
  rintro rfl
  obtain ⟨texts, hread, hsplits⟩ := h.reads
  cases hread
  obtain ⟨stripped, _, _, hflat⟩ := hsplits
  exact hne (by simpa using hflat)

/-- A long text that is not escaped takes several bodies. -/
theorem Carries.one_lt_length (h : Carries cap out bodies) (hmarkup : out.format ≠ some .plain)
    (hlong : cap < out.text.countP (!isSpace ·)) : 1 < bodies.length := by
  obtain ⟨texts, hreads, hsplits⟩ := h.reads
  have hread : readBody out.format = some := by
    funext body
    rw [readBody, if_neg hmarkup]
  have hsame : bodies.mapM some = some (bodies.map id) := List.mapM_pure
  rw [hread, hsame, List.map_id] at hreads
  cases hreads
  exact hsplits.one_lt_length (fun body hbody => (h.fits body hbody).2) hlong

/-- Parts that all fit are not split again. -/
theorem mapM_partBodies {body : JsString → JsString}
    {splitEscaped : JsString → Except JsString (List JsString)} {parts : List JsString}
    (hfits : ∀ part ∈ parts, (body part).length ≤ cap) :
    parts.mapM (partBodies cap body splitEscaped) = .ok (parts.map fun part => [body part]) := by
  induction parts with
  | nil => rfl
  | cons part parts ih =>
    obtain ⟨hpart, hparts⟩ := List.forall_mem_cons.1 hfits
    rw [List.mapM_cons, ih hparts, partBodies, if_pos hpart]
    rfl

/-- What goes out for a message on Discord. -/
theorem renderMessages_carries (hne : out.text ≠ []) :
    ∃ bodies, renderMessages out = .ok bodies ∧ Carries discordMaxMessage out bodies := by
  have hsplit : SplitsTo discordMaxMessage splitForDiscord :=
    splitsTo_chunkText ⟨by decide, by decide⟩ rfl StripLeading.newlines_onlySpace
  have hhalf : SplitsTo (discordMaxMessage / 2) splitForEscapedDiscord :=
    splitsTo_chunkText ⟨by decide, by decide⟩ rfl StripLeading.newlines_onlySpace
  have hcap : 2 * (discordMaxMessage / 2) ≤ discordMaxMessage := by decide
  by_cases hplain : out.format = some .plain
  · have hbody : bodyFor out.format = escapeMarkdown := by
      funext text
      rw [bodyFor, if_pos hplain]
    rw [renderMessages, hbody]
    obtain ⟨bodies, hok, hbodies⟩ := renderParts_plain hsplit hhalf hcap hne
    exact ⟨bodies, hok, hbodies.carries hplain⟩
  · obtain ⟨parts, hok, hfits, hsplits⟩ := hsplit out.text hne
    have hbody (part : JsString) : bodyFor out.format part = part := by
      rw [bodyFor, if_neg hplain]
    refine ⟨parts, ?_, carries_parts hplain hfits hsplits⟩
    have hparts : parts.mapM
        (partBodies discordMaxMessage (bodyFor out.format) splitForEscapedDiscord) =
          .ok (parts.map fun part => [bodyFor out.format part]) := by
      refine mapM_partBodies fun part hpart => ?_
      rw [hbody]
      exact (hfits part hpart).2
    have hflat : (parts.map fun part => [part]).flatten = parts := by
      rw [← List.flatMap_def]
      exact List.flatMap_singleton' parts
    rw [renderMessages, renderParts, hok]
    simp only [bind, Except.bind] at hparts ⊢
    rw [hparts]
    simp only [hbody, hflat, pure, Except.pure]

/-- What goes out for a message on Mattermost. -/
theorem renderPosts_carries (hne : out.text ≠ []) :
    ∃ bodies, renderPosts out = .ok bodies ∧ Carries mattermostMaxPost out bodies := by
  have hsplit : SplitsTo mattermostMaxPost splitForMattermost :=
    splitsTo_chunkText ⟨by decide, by decide⟩ rfl StripLeading.spaces_onlySpace
  have hhalf : SplitsTo (mattermostMaxPost / 2) splitForEscapedMattermost :=
    splitsTo_chunkText ⟨by decide, by decide⟩ rfl StripLeading.spaces_onlySpace
  have hcap : 2 * (mattermostMaxPost / 2) ≤ mattermostMaxPost := by decide
  by_cases hplain : out.format = some .plain
  · rw [renderPosts, if_neg (not_not_intro hplain)]
    obtain ⟨bodies, hok, hbodies⟩ := renderParts_plain hsplit hhalf hcap hne
    exact ⟨bodies, hok, hbodies.carries hplain⟩
  · rw [renderPosts, if_pos hplain]
    obtain ⟨parts, hok, hfits, hsplits⟩ := hsplit out.text hne
    exact ⟨parts, hok, carries_parts hplain hfits hsplits⟩

end TheokitGateways
