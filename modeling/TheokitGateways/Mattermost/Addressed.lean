import TheokitGateways.Mattermost.Adapter
import TheokitGateways.Mattermost.Posted

/-!
# Mattermost: what is addressed to the bot

A post is addressed to the bot in a direct channel, by the list of its mentions,
or by a whole mention in its text. The rules miss some of these: a reply in a
direct channel has to mention the bot, a full stop at the end of a sentence hides
a mention, and a hyphen does not. `respondsToAddressed_iff` says which posts are
decided otherwise than by whom they are addressed to.
-/

namespace TheokitGateways.Mattermost
open Js Gateway

/-! ## Whole mentions -/

/-- A character of usernames, the full stop apart. -/
def isNameCharacter (ch : JsString) : Bool := isWord ch || ch = js "-"

/-- What follows a username carries it on into a longer one. -/
def continuesName : List JsString → Bool
  | [] => false
  | ch :: rest => isNameCharacter ch || (ch = js "." && rest.head?.any isNameCharacter)

def wholeName : Boundary JsString where
  behind prev := !prev.any isWord
  ahead after := !continuesName after

/-- The text mentions the bot by its whole username. A bot without a username cannot be
mentioned. -/
def WholeMention (botUsername text : JsString) : Prop :=
  botUsername ≠ [] ∧ wholeName.Stands (mentionWord botUsername) (characters text)

instance (botUsername text : JsString) : Decidable (WholeMention botUsername text) :=
  inferInstanceAs (Decidable (_ ∧ _))

/-- What follows a username. -/
inductive Follower where
  /-- The end of the text, or a character no username has. -/
  | other
  | hyphen
  /-- A full stop that ends the sentence. -/
  | fullStop
  | longerName
  deriving DecidableEq

def followerOf : List JsString → Follower
  | [] => .other
  | ch :: rest =>
    if isWord ch then .longerName
    else if ch = js "-" then .hyphen
    else if ch = js "." then
      if rest.head?.any isNameCharacter then .longerName else .fullStop
    else .other

/-- `@` and the username stand in the text before a follower of this kind, and after no word
character. -/
def NamedBefore (follower : Follower) (botUsername text : JsString) : Prop :=
  botUsername ≠ [] ∧ { wholeName with ahead := (followerOf · = follower) }.Stands
    (mentionWord botUsername) (characters text)

instance (follower : Follower) (botUsername text : JsString) :
    Decidable (NamedBefore follower botUsername text) :=
  inferInstanceAs (Decidable (_ ∧ _))

theorem wholeName_ahead_iff (after : List JsString) :
    wholeName.ahead after = true ↔
      followerOf after = .other ∨ followerOf after = .fullStop := by
  cases after with
  | nil => simp [wholeName, continuesName, followerOf]
  | cons ch rest =>
    simp only [wholeName, continuesName, isNameCharacter, followerOf]
    have hdot : js "." ≠ js "-" := by decide
    grind

theorem mentionBoundary_ahead_iff (after : List JsString) :
    mentionBoundary.ahead after = true ↔
      followerOf after = .other ∨ followerOf after = .hyphen := by
  cases after with
  | nil => simp [mentionBoundary, followerOf]
  | cons ch rest =>
    simp only [mentionBoundary, followerOf, List.head?_cons, Option.any_some]
    have hdot : js "." ≠ js "-" := by decide
    grind

theorem wholeMention_iff {botUsername text : JsString} :
    WholeMention botUsername text ↔
      NamedBefore .other botUsername text ∨ NamedBefore .fullStop botUsername text := by
  unfold WholeMention NamedBefore
  rw [← and_or_left]
  refine and_congr_right fun _ => Boundary.stands_iff_or rfl rfl fun after => ?_
  simp only [decide_eq_true_eq]
  exact wholeName_ahead_iff after

/-- The pattern takes a hyphen for the end of a name, and a full stop never. -/
theorem hasMentionWithBoundary_iff {botUsername text : JsString} :
    botUsername ≠ [] ∧ hasMentionWithBoundary text botUsername = true ↔
      NamedBefore .other botUsername text ∨ NamedBefore .hyphen botUsername text := by
  unfold hasMentionWithBoundary NamedBefore
  rw [Boundary.search_iff, ← and_or_left]
  refine and_congr_right fun _ => Boundary.stands_iff_or rfl rfl fun after => ?_
  simp only [decide_eq_true_eq]
  exact mentionBoundary_ahead_iff after

example : [js "ping @theo, please", js "ping @theo-bot", js "ping @theo.", js "ping @theory"].map
    (hasMentionWithBoundary · (js "theo")) = [true, true, false, false] := by decide +kernel

/-! ## The list of mentions -/

section Mentions
variable (mentions : Option Json) (botUserId : JsString)

def Listed : Prop := ∃ items, mentions = some (.array items) ∧ .string botUserId ∈ items

/-- The mentions are one text, and the id stands somewhere in it. -/
def Quoted : Prop := ∃ s, mentions = some (.string s) ∧ includes botUserId s = true

/-- The mentions have no `includes`. -/
def Unreadable : Prop :=
  ∃ v, mentions = some v ∧ v ≠ .null ∧ v.isString = false ∧ ∀ items, v ≠ .array items

variable {mentions botUserId}

theorem exists_isText_iff {items : List Json} :
    (∃ item ∈ items, Json.isText (some item) botUserId = true) ↔ .string botUserId ∈ items := by
  simp only [Json.isText, decide_eq_true_eq, optString_eq_some, Option.some.injEq,
    exists_eq_right]

theorem mentionsInclude_iff :
    mentionsInclude mentions botUserId = .ok true ↔
      Listed mentions botUserId ∨ Quoted mentions botUserId := by
  rcases mentions with _ | ⟨_ | _ | _ | _ | _ | _⟩ <;>
    simp [mentionsInclude, Listed, Quoted, exists_isText_iff]

theorem mentionsInclude_throws_iff :
    (∃ thrown, mentionsInclude mentions botUserId = .error thrown) ↔ Unreadable mentions := by
  rcases mentions with _ | ⟨_ | _ | _ | _ | _ | _⟩ <;>
    simp [mentionsInclude, Unreadable, Json.isString]

theorem Unreadable.not_listed (h : Unreadable mentions) : ¬Listed mentions botUserId := by
  obtain ⟨v, rfl, _, _, hlist⟩ := h
  rintro ⟨items, hitems, _⟩
  exact hlist items (Option.some.inj hitems)

theorem Unreadable.not_quoted (h : Unreadable mentions) : ¬Quoted mentions botUserId := by
  obtain ⟨v, rfl, _, hstring, _⟩ := h
  rintro ⟨s, hs, _⟩
  cases Option.some.inj hs
  cases hstring

theorem Quoted.not_listed (h : Quoted mentions botUserId) : ¬Listed mentions botUserId := by
  obtain ⟨s, rfl, _⟩ := h
  rintro ⟨items, hitems, _⟩
  cases hitems

end Mentions

/-! ## Posts -/

section
variable (botUserId botUsername : JsString) (channel : MattermostChannel) (post : MattermostPost)

/-- The post is addressed to the bot. -/
inductive Addressed : Prop where
  | direct (h : channel.type = js "D")
  | listed (h : Listed (optGet post.metadata (js "mentions")) botUserId)
  | mentioned (h : WholeMention botUsername post.message)

/-- The post is in a direct channel, and no reply in a thread. -/
def TopLevelDirect : Prop := channel.type = js "D" ∧ post.rootId = []

/-- The posts of other users the rules accept while a mention is required. -/
def Accepted : Prop :=
  TopLevelDirect channel post ∨
    ¬Unreadable (optGet post.metadata (js "mentions")) ∧
      (Listed (optGet post.metadata (js "mentions")) botUserId ∨
        Quoted (optGet post.metadata (js "mentions")) botUserId ∨
        NamedBefore .other botUsername post.message ∨
        NamedBefore .hyphen botUsername post.message)

/-- The posts that are decided otherwise than by whom they are addressed to. -/
inductive Misjudged : Prop where
  /-- A reply in a direct channel that mentions the bot nowhere. -/
  | directReply (hdirect : channel.type = js "D") (hreply : post.rootId ≠ [])
      (hlisted : ¬Listed (optGet post.metadata (js "mentions")) botUserId)
      (hquoted : ¬Quoted (optGet post.metadata (js "mentions")) botUserId)
      (hother : ¬NamedBefore .other botUsername post.message)
      (hhyphen : ¬NamedBefore .hyphen botUsername post.message)
  /-- The bot is mentioned only at the end of sentences. -/
  | sentenceEnd (hdirect : channel.type ≠ js "D")
      (hlisted : ¬Listed (optGet post.metadata (js "mentions")) botUserId)
      (hquoted : ¬Quoted (optGet post.metadata (js "mentions")) botUserId)
      (hother : ¬NamedBefore .other botUsername post.message)
      (hhyphen : ¬NamedBefore .hyphen botUsername post.message)
      (hstop : NamedBefore .fullStop botUsername post.message)
  /-- A longer username begins with the bot's and a hyphen. -/
  | longerName (hdirect : channel.type ≠ js "D")
      (hlisted : ¬Listed (optGet post.metadata (js "mentions")) botUserId)
      (hread : ¬Unreadable (optGet post.metadata (js "mentions")))
      (hother : ¬NamedBefore .other botUsername post.message)
      (hhyphen : NamedBefore .hyphen botUsername post.message)
      (hstop : ¬NamedBefore .fullStop botUsername post.message)
  /-- The mentions are no list, but a text with the bot's id in it. -/
  | quoted (hdirect : channel.type ≠ js "D")
      (hquoted : Quoted (optGet post.metadata (js "mentions")) botUserId)
      (hother : ¬NamedBefore .other botUsername post.message)
      (hstop : ¬NamedBefore .fullStop botUsername post.message)
  /-- The mentions cannot be read, and it is not they that address the post to the bot. -/
  | unreadable (hunreadable : Unreadable (optGet post.metadata (js "mentions")))
      (htop : ¬TopLevelDirect channel post)
      (haddressed : channel.type = js "D" ∨ NamedBefore .other botUsername post.message ∨
        NamedBefore .fullStop botUsername post.message)

variable {botUserId botUsername channel post}

theorem addressed_iff :
    Addressed botUserId botUsername channel post ↔
      channel.type = js "D" ∨ Listed (optGet post.metadata (js "mentions")) botUserId ∨
        NamedBefore .other botUsername post.message ∨
        NamedBefore .fullStop botUsername post.message := by
  rw [← wholeMention_iff]
  constructor
  · rintro (h | h | h)
    · exact .inl h
    · exact .inr (.inl h)
    · exact .inr (.inr h)
  · rintro (h | h | h)
    · exact .direct h
    · exact .listed h
    · exact .mentioned h

theorem shouldRespond_iff (hother : post.userId ≠ botUserId) :
    shouldRespond post
        (mapChannelType (normalizeMattermostType (some channel)) (post.rootId ≠ []))
        botUserId botUsername true = .ok true ↔
      Accepted botUserId botUsername channel post := by
  have hdm : mapChannelType (normalizeMattermostType (some channel)) (post.rootId ≠ []) = .dm ↔
      TopLevelDirect channel post := by
    unfold mapChannelType normalizeMattermostType TopLevelDirect
    by_cases hroot : post.rootId = [] <;> by_cases htype : channel.type = js "D" <;>
      simp [hroot, htype]
  rw [shouldRespond, if_neg hother, Accepted]
  by_cases htop : TopLevelDirect channel post
  · rw [if_pos (hdm.2 htop)]
    exact ⟨fun _ => .inl htop, fun _ => rfl⟩
  rw [if_neg (mt hdm.1 htop), Bool.not_true, if_neg Bool.false_ne_true, or_iff_right htop,
    ← or_assoc, ← mentionsInclude_iff, ← hasMentionWithBoundary_iff,
    ← @mentionsInclude_throws_iff _ botUserId]
  cases mentionsInclude (optGet post.metadata (js "mentions")) botUserId with
  | error thrown => simp [bind, Except.bind]
  | ok mentioned => simp [bind, Except.bind, pure, Except.pure]

/-- A misjudged post is accepted and not addressed to the bot, or the other way round. -/
theorem Misjudged.differs (h : Misjudged botUserId botUsername channel post) :
    ¬(Accepted botUserId botUsername channel post ↔
      Addressed botUserId botUsername channel post) := by
  intro hiff
  obtain ⟨hdirect, hreply, hlisted, hquoted, hother, hhyphen⟩ |
    ⟨hdirect, hlisted, hquoted, hother, hhyphen, hstop⟩ |
    ⟨hdirect, hlisted, hread, hother, hhyphen, hstop⟩ |
    ⟨hdirect, hquoted, hother, hstop⟩ | ⟨hunreadable, htop, haddressed⟩ := h
  · obtain ⟨_, hroot⟩ | ⟨_, h | h | h | h⟩ := hiff.2 (.direct hdirect)
    · exact hreply hroot
    · exact hlisted h
    · exact hquoted h
    · exact hother h
    · exact hhyphen h
  · obtain ⟨htype, _⟩ | ⟨_, h | h | h | h⟩ :=
      hiff.2 (.mentioned (wholeMention_iff.2 (.inr hstop)))
    · exact hdirect htype
    · exact hlisted h
    · exact hquoted h
    · exact hother h
    · exact hhyphen h
  · obtain h | h | h | h :=
      addressed_iff.1 (hiff.1 (.inr ⟨hread, .inr (.inr (.inr hhyphen))⟩))
    · exact hdirect h
    · exact hlisted h
    · exact hother h
    · exact hstop h
  · have hread : ¬Unreadable (optGet post.metadata (js "mentions")) :=
      fun hunreadable => hunreadable.not_quoted hquoted
    obtain h | h | h | h := addressed_iff.1 (hiff.1 (.inr ⟨hread, .inr (.inl hquoted)⟩))
    · exact hdirect h
    · exact hquoted.not_listed h
    · exact hother h
    · exact hstop h
  · have hmeant : Addressed botUserId botUsername channel post := by
      refine addressed_iff.2 ?_
      obtain h | h := haddressed
      · exact .inl h
      · exact .inr (.inr h)
    obtain h | ⟨hread, _⟩ := hiff.2 hmeant
    · exact htop h
    · exact hread hunreadable

theorem Accepted.addressed (h : Accepted botUserId botUsername channel post)
    (hwell : ¬Misjudged botUserId botUsername channel post) :
    Addressed botUserId botUsername channel post := by
  obtain ⟨hdirect, _⟩ | ⟨hread, haccepted⟩ := h
  · exact .direct hdirect
  refine Classical.byContradiction fun hnot => ?_
  simp only [addressed_iff, not_or] at hnot
  obtain ⟨hdirect, hlisted, hother, hstop⟩ := hnot
  obtain h | h | h | h := haccepted
  · exact hlisted h
  · exact hwell (.quoted hdirect h hother hstop)
  · exact hother h
  · exact hwell (.longerName hdirect hlisted hread hother h hstop)

theorem Addressed.accepted (h : Addressed botUserId botUsername channel post)
    (hwell : ¬Misjudged botUserId botUsername channel post) :
    Accepted botUserId botUsername channel post := by
  refine Classical.byContradiction fun hnot => ?_
  simp only [Accepted, not_or, not_and] at hnot
  obtain ⟨htop, hnone⟩ := hnot
  by_cases hread : Unreadable (optGet post.metadata (js "mentions"))
  · refine hwell (.unreadable hread htop ?_)
    obtain h | h | h := addressed_iff.1 h
    · exact .inl h
    · exact absurd h hread.not_listed
    · exact .inr h
  · obtain ⟨hlisted, hquoted, hother, hhyphen⟩ := hnone hread
    by_cases hdirect : channel.type = js "D"
    · exact hwell (.directReply hdirect (fun hroot => htop ⟨hdirect, hroot⟩) hlisted hquoted
        hother hhyphen)
    · obtain h | h | h | h := addressed_iff.1 h
      · exact hdirect h
      · exact hlisted h
      · exact hother h
      · exact hwell (.sentenceEnd hdirect hlisted hquoted hother hhyphen h)

/-- The rules accept the posts that are addressed to the bot, but for those they misjudge. -/
theorem accepted_iff_addressed_iff :
    (Accepted botUserId botUsername channel post ↔ Addressed botUserId botUsername channel post) ↔
      ¬Misjudged botUserId botUsername channel post :=
  ⟨fun hiff hmisjudged => hmisjudged.differs hiff,
    fun hwell => ⟨fun h => h.addressed hwell, fun h => h.accepted hwell⟩⟩

/-! ## The listener -/

variable {requireMention : Option Bool} {now : JsNumber} {handle : ClientHandle}
  {fetched : Option MattermostChannel} {msg : WSMessage}

variable (handle fetched) in
theorem getChannelCached_bot (channelId : JsString) :
    (getChannelCached handle channelId fetched).2.botUserId = handle.botUserId ∧
      (getChannelCached handle channelId fetched).2.botUsername = handle.botUsername := by
  unfold getChannelCached
  split
  · exact ⟨rfl, rfl⟩
  · split <;> exact ⟨rfl, rfl⟩

theorem called_processPost_iff {channel : Option MattermostChannel} :
    (∃ event, (processPost requireMention true now post channel handle msg).called = some event) ↔
      shouldRespond post (mapChannelType (normalizeMattermostType channel) (post.rootId ≠ []))
        handle.botUserId handle.botUsername (requireMention.getD true) = .ok true := by
  unfold processPost
  dsimp only
  split
  · rename_i thrown hthrows
    rw [hthrows]
    simp
  · rename_i responds hresponds
    rw [hresponds]
    cases responds <;> simp

/-- A posted message makes the handler be called when the rules accept its post. -/
theorem called_wsListener_iff (hposted : msg.event = js "posted")
    (hpost : parsePostFromWS msg = some post)
    (hchannel : (getChannelCached handle post.channelId fetched).1 = some channel) :
    (∃ event, (wsListener requireMention true now handle fetched msg).called = some event) ↔
      shouldRespond post
        (mapChannelType (normalizeMattermostType (some channel)) (post.rootId ≠ []))
        handle.botUserId handle.botUsername (requireMention.getD true) = .ok true := by
  obtain ⟨hid, hname⟩ := getChannelCached_bot handle fetched post.channelId
  rw [wsListener, if_pos hposted, processPostedEvent, hpost]
  dsimp only
  rw [called_processPost_iff, hchannel, hid, hname]

/-- The adapter hands an event over exactly when its listener calls the handler there is. -/
theorem process_delivers_iff (s : MattermostAdapter) (p e : Nat)
    {channel : Option MattermostChannel} {responds : Bool}
    (h : shouldRespond post (mapChannelType (normalizeMattermostType channel) (post.rootId ≠ []))
      handle.botUserId handle.botUsername (requireMention.getD true) = .ok responds) :
    (s.process p e responds).delivered ≠ s.delivered ↔
      ∃ event, (processPost requireMention s.inboundHandler.isSome now post channel handle
        msg).called = some event := by
  rw [processPost, h]
  dsimp only [MattermostAdapter.process]
  cases responds with
  | false => simp
  | true => cases s.inboundHandler <;> simp

variable (handle) in
/-- With a mention required, the handler is called for a post of another user, in a channel that
could be read, exactly when the post is addressed to the bot, unless it is one of the posts that
are misjudged. -/
theorem respondsToAddressed_iff (hmention : requireMention.getD true = true)
    (hposted : msg.event = js "posted") (hpost : parsePostFromWS msg = some post)
    (hother : post.userId ≠ handle.botUserId)
    (hchannel : (getChannelCached handle post.channelId fetched).1 = some channel) :
    ((∃ event, (wsListener requireMention true now handle fetched msg).called = some event) ↔
        Addressed handle.botUserId handle.botUsername channel post) ↔
      ¬Misjudged handle.botUserId handle.botUsername channel post := by
  rw [called_wsListener_iff hposted hpost hchannel, hmention, shouldRespond_iff hother]
  exact accepted_iff_addressed_iff

end

/-- The message for a post of `u-alice`'s. -/
def postedMessage (rootId message : JsString) : WSMessage where
  event := js "posted"
  data := some (.object [(js "post", .string (
    js "\x7b\"id\":\"p-2\",\"user_id\":\"u-alice\",\"channel_id\":\"c-1\",\"root_id\":\"" ++
    rootId ++ js "\",\"message\":\"" ++ message ++ js "\"\x7d"))])

def theoHandle : ClientHandle where
  botUserId := js "u-bot"
  botUsername := js "theo"

/-- A message in a channel, with the bot's name at its end. -/
theorem respondsToAddressed_iff_mentioned :
    ∃ post, parsePostFromWS (postedMessage [] (js "ping @theo")) = some post ∧
      (∃ event, (wsListener none true 0 theoHandle (some ⟨js "c-1", [], js "O"⟩)
        (postedMessage [] (js "ping @theo"))).called = some event) ∧
      Addressed (js "u-bot") (js "theo") ⟨js "c-1", [], js "O"⟩ post ∧
      ¬Misjudged (js "u-bot") (js "theo") ⟨js "c-1", [], js "O"⟩ post := by
  have hparse : (parsePostFromWS (postedMessage [] (js "ping @theo"))).any
      (fun post => post.userId = js "u-alice" && post.message = js "ping @theo") = true := by
    decide +kernel
  obtain ⟨post, hpost, hfields⟩ := (Option.any_eq_true _ _).1 hparse
  rw [Bool.and_eq_true, decide_eq_true_eq, decide_eq_true_eq] at hfields
  obtain ⟨huser, hmessage⟩ := hfields
  have hcalled : ((wsListener none true 0 theoHandle (some ⟨js "c-1", [], js "O"⟩)
      (postedMessage [] (js "ping @theo"))).called.isSome) = true := by decide +kernel
  have haddressed : Addressed (js "u-bot") (js "theo") ⟨js "c-1", [], js "O"⟩ post := by
    refine .mentioned ?_
    rw [hmessage]
    decide +kernel
  refine ⟨post, hpost, Option.isSome_iff_exists.1 hcalled, haddressed, ?_⟩
  have hother : post.userId ≠ js "u-bot" := by
    rw [huser]
    decide
  exact (respondsToAddressed_iff theoHandle rfl rfl hpost hother rfl).1
    ⟨fun _ => haddressed, fun _ => Option.isSome_iff_exists.1 hcalled⟩

/-- A reply in a thread of a direct channel is not answered, though it is addressed to the bot. -/
theorem direct_reply_unanswered :
    ¬∀ (requireMention : Option Bool) (now : JsNumber) (handle : ClientHandle)
      (fetched : Option MattermostChannel) (msg : WSMessage) (post : MattermostPost)
      (channel : MattermostChannel), requireMention.getD true = true → msg.event = js "posted" →
      parsePostFromWS msg = some post → post.userId ≠ handle.botUserId →
      (getChannelCached handle post.channelId fetched).1 = some channel →
      ((∃ event, (wsListener requireMention true now handle fetched msg).called = some event) ↔
        Addressed handle.botUserId handle.botUsername channel post) := by
  intro h
  have hparse : (parsePostFromWS (postedMessage (js "p-1") (js "and tomorrow?"))).any
      (fun post => decide (post.userId ≠ js "u-bot")) = true := by decide +kernel
  obtain ⟨post, hpost, huser⟩ := (Option.any_eq_true _ _).1 hparse
  have hcalled := (h none 0 theoHandle (some ⟨js "c-1", [], js "D"⟩) _ post ⟨js "c-1", [], js "D"⟩
    rfl rfl hpost (of_decide_eq_true huser) rfl).2 (.direct rfl)
  have hsilent : (wsListener none true 0 theoHandle (some ⟨js "c-1", [], js "D"⟩)
      (postedMessage (js "p-1") (js "and tomorrow?"))).called.isSome = false := by decide +kernel
  rw [Option.isSome_iff_exists.2 hcalled] at hsilent
  cases hsilent

end TheokitGateways.Mattermost
