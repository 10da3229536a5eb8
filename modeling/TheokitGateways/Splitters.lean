import TheokitGateways.Telegram.Split

/-!
# The splitters of the channels

Each channel cuts a long text to its own limit. Slack, Teams and Talk never cut
inside a character; Discord, Mattermost and Telegram do where a surrogate pair
lies across the edge of a window that holds no boundary (`splitters_keep_iff`).
-/

namespace TheokitGateways
open Js Gateway Telegram

def slackMaxText : Nat := 4000

def slackOptions : ChunkTextOptions where
  limit := slackMaxText
  boundaries := [js "\n\n", js "\n", js " "]
  lastResort := .lastBoundary
  surrogateGuard := true
  stripLeading := .spaces

def splitForSlack (text : JsString) : Except JsString (List JsString) :=
  chunkText text slackOptions

def discordMaxMessage : Nat := 2000

def safeDiscordChunk : Nat := 1900

def discordOptions : ChunkTextOptions where
  limit := discordMaxMessage
  safeLimit := some safeDiscordChunk
  boundaries := [js "\n\n", js "\n"]
  lastResort := .window
  stripLeading := .newlines

def splitForDiscord (text : JsString) : Except JsString (List JsString) :=
  chunkText text discordOptions

def mattermostMaxPost : Nat := 16383

def safeMattermostChunk : Nat := 16000

def mattermostOptions : ChunkTextOptions where
  limit := mattermostMaxPost
  safeLimit := some safeMattermostChunk
  boundaries := [js "\n\n", js "\n", js " "]
  lastResort := .lastBoundary
  stripLeading := .spaces

def splitForMattermost (text : JsString) : Except JsString (List JsString) :=
  chunkText text mattermostOptions

def teamsMaxText : Nat := 8000

def teamsOptions : ChunkTextOptions where
  limit := teamsMaxText
  boundaries := [js "\n\n", js "\n", js " "]
  lastResort := .lastBoundary
  surrogateGuard := true
  stripLeading := .spaces
  trimParts := true

def splitForTeams (text : JsString) : Except JsString (List JsString) :=
  chunkText text teamsOptions

def talkMaxLength : Nat := 32000

/-- The loop over the code points, from the place `place`. -/
def talkParts (limit : Nat) (hlimit : 0 < limit) (codePoints : List JsString) (place : Nat) :
    List JsString :=
  if place < codePoints.length then
    ((codePoints.drop place).take limit).flatten ::
      talkParts limit hlimit codePoints (place + limit)
  else []
termination_by codePoints.length - place

def splitForTalk (text : JsString) (limit : Nat := talkMaxLength) :
    Except JsString (List JsString) :=
  if hlimit : 0 < limit then .ok (talkParts limit hlimit (characters text) 0)
  else .error (js "splitForTalk: limit must be a positive integer, got " ++ natText limit)

/-- A splitter gives parts, and every one is well formed. -/
def Keeps (parts : Except JsString (List JsString)) : Prop :=
  ∃ ps, parts = .ok ps ∧ KeepsCharacters ps

theorem talkParts_keeps {limit : Nat} (hlimit : 0 < limit) {codePoints : List JsString}
    (h : ∀ ch ∈ codePoints, wellFormed ch = true) (place : Nat) :
    KeepsCharacters (talkParts limit hlimit codePoints place) := by
  fun_induction talkParts limit hlimit codePoints place with
  | case1 place hmore ih =>
    refine List.forall_mem_cons.2 ⟨wellFormed_flatten fun ch hch => h ch ?_, ih⟩
    exact List.mem_of_mem_drop (List.mem_of_mem_take hch)
  | case2 place hdone => simp [KeepsCharacters]

/-- Boundaries made of line breaks and spaces are plain. -/
theorem plainBoundaries_lines {o : ChunkTextOptions}
    (h : o.boundaries = [js "\n\n", js "\n", js " "] ∨ o.boundaries = [js "\n\n", js "\n"]) :
    o.PlainBoundaries := by
  refine ⟨by obtain h | h := h <;> simp [h], fun b hb => ?_⟩
  have hb : b ∈ [js "\n\n", js "\n", js " "] := by
    obtain h | h := h
    · rwa [h] at hb
    · rw [h] at hb
      simp only [List.mem_cons, List.not_mem_nil, or_false] at hb ⊢
      obtain rfl | rfl := hb <;> simp
  simp only [List.mem_cons, List.not_mem_nil, or_false] at hb
  obtain rfl | rfl | rfl := hb
  all_goals exact ⟨_, _, rfl, rfl⟩

/-- Slack, Teams and Talk keep the characters of every text; Discord, Mattermost and Telegram
exactly where no pass has a pair across the edge of a window without a boundary. -/
theorem splitters_keep_iff {text : JsString} (hs : wellFormed text = true) :
    Keeps (splitForSlack text) ∧ Keeps (splitForTeams text) ∧
      (∀ limit, 0 < limit → Keeps (splitForTalk text limit)) ∧
      (Keeps (splitForDiscord text) ↔
        ∀ r ∈ cutPasses discordOptions text, ¬EdgePair discordOptions r) ∧
      (Keeps (splitForMattermost text) ↔
        ∀ r ∈ cutPasses mattermostOptions text, ¬EdgePair mattermostOptions r) ∧
      (KeepsCharacters (splitForTelegram text) ↔
        ∀ r ∈ telegramPasses text, ¬TelegramEdgePair r) := by
  refine ⟨?_, ?_, ?_, ?_, ?_, splitForTelegram_keeps_iff hs⟩
  · exact chunkText_keeps_of_guarded ⟨by decide, by decide⟩ (by decide)
      StripLeading.spaces_onlySpace (plainBoundaries_lines (.inl rfl)) rfl hs
  · exact chunkText_keeps_of_guarded ⟨by decide, by decide⟩ (by decide)
      StripLeading.spaces_onlySpace (plainBoundaries_lines (.inl rfl)) rfl hs
  · intro limit hlimit
    refine ⟨_, dif_pos hlimit, talkParts_keeps hlimit (fun ch hch => ?_) 0⟩
    exact wellFormed_of_mem_characters hs hch
  · exact chunkText_keeps_iff ⟨by decide, by decide⟩ StripLeading.newlines_onlySpace rfl
      (plainBoundaries_lines (.inr rfl)) rfl hs
  · exact chunkText_keeps_iff ⟨by decide, by decide⟩ StripLeading.spaces_onlySpace rfl
      (plainBoundaries_lines (.inl rfl)) rfl hs

/-- A text without a boundary, with a pair across the edge of Discord's window. -/
def edgeText : JsString :=
  List.replicate 1899 (unit 'a') ++ [0xD83D, 0xDE00] ++ List.replicate 100 (unit 'a')

theorem edgeText_wellFormed : wellFormed edgeText = true := by
  have hplain (n : Nat) : wellFormed (List.replicate n (unit 'a')) = true :=
    wellFormed_of_plain fun c hc => by
      cases List.eq_of_mem_replicate hc
      rfl
  rw [edgeText, List.append_assoc, wellFormed_append (hplain _),
    wellFormed_append (show wellFormed [0xD83D, 0xDE00] = true by rfl), hplain]

theorem splitters_keep_iff_edgeText :
    Keeps (splitForDiscord edgeText) ↔
      ∀ r ∈ cutPasses discordOptions edgeText, ¬EdgePair discordOptions r :=
  (splitters_keep_iff edgeText_wellFormed).2.2.2.1

theorem edgeText_edgePair : EdgePair discordOptions edgeText := by
  have hline : unit '\n' ∉ edgeText := by
    simp only [edgeText, List.mem_append, List.mem_replicate, not_or]
    decide
  refine ⟨⟨fun b hb => ?_, by simp [discordOptions]⟩, ?_⟩
  · simp only [discordOptions, List.mem_cons, List.not_mem_nil, or_false] at hb
    have hwindow : 0 < discordOptions.window := by decide
    obtain rfl | rfl := hb
    all_goals
      rw [show js _ = unit '\n' :: _ from rfl, lastIndexOf_of_notMem hline]
      omega
  · have hunit : edgeText[1900]? = some 0xDE00 := by
      simp [edgeText, -List.reduceReplicate]
    rw [show discordOptions.window = 1900 from rfl, severs, hunit]
    rfl

/-- Discord's splitter cuts the pair in two. -/
theorem discord_severs_edgeText :
    ¬∀ text, wellFormed text = true →
      Keeps (splitForSlack text) ∧ KeepsCharacters (splitForTelegram text) ∧
        Keeps (splitForDiscord text) ∧ Keeps (splitForMattermost text) ∧
        Keeps (splitForTeams text) ∧ Keeps (splitForTalk text) := by
  intro h
  obtain ⟨_, _, hdiscord, _⟩ := h edgeText edgeText_wellFormed
  have hiff := @chunkText_keeps_iff discordOptions edgeText ⟨by decide, by decide⟩
    StripLeading.newlines_onlySpace rfl (plainBoundaries_lines (.inr rfl)) rfl edgeText_wellFormed
  refine hiff.1 hdiscord edgeText ?_ edgeText_edgePair
  have hlen : edgeText.length = 2001 := by simp [edgeText, -List.reduceReplicate]
  rw [cutPasses, dif_pos (by decide), if_neg (by rw [hlen]; decide), chunkPasses,
    if_pos (by rw [hlen]; decide)]
  exact List.mem_cons_self

end TheokitGateways
