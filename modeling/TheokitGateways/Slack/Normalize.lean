import TheokitGateways.Gateway.MessageEvent
import TheokitGateways.Js.Convert

/-!
# A Bolt message as an event

`normalizeSlackEvent` builds the event for one message body, unless nobody should
see it: the bot's own message, one a bot wrote, a subtype that is no user's
message, and in a public channel one that does not mention the bot. The first and
the last are told by the bot's user id, which may not be known.
-/

namespace TheokitGateways.Slack
open Js Gateway

/-- `channel_type`. -/
inductive SlackChannelType where
  | im | mpim | channel | group
  deriving DecidableEq

/-- `BoltMessageBody["event"]`. -/
structure BoltEvent where
  type : JsString
  channel : JsString
  channelType : Option SlackChannelType := none
  user : Option JsString := none
  text : Option JsString := none
  ts : JsString
  threadTs : Option JsString := none
  botId : Option JsString := none
  subtype : Option JsString := none
  deriving DecidableEq

structure BoltMessageBody where
  event : BoltEvent
  teamId : Option JsString := none
  deriving DecidableEq

/-- What the platform adds to an event. -/
structure SlackFields where
  teamId : Option JsString
  channelId : JsString
  userId : JsString
  ts : JsString
  threadTs : Option JsString
  subtype : Option JsString
  raw : BoltMessageBody
  deriving DecidableEq

structure SlackMessageEvent extends BaseMessageEvent where
  slack : SlackFields
  deriving DecidableEq

def shouldSkipEvent (e : BoltEvent) (botUserId : Option JsString) : Bool :=
  e.type ≠ js "message" ||
  (e.user.isSome && botUserId.isSome && e.user = botUserId) ||
  (e.botId.isSome && e.user.isNone) ||
  (e.subtype.isSome && e.subtype ≠ some (js "thread_broadcast"))

def resolveChannelType (e : BoltEvent) : ChannelType :=
  if e.threadTs.isSome ∧ e.threadTs ≠ some e.ts then .thread
  else if e.channelType = some .im then .dm
  else .group

/-- `<@id>`, as a text mentions a user. -/
def mention (id : JsString) : JsString := js "<@" ++ id ++ js ">"

def isMentionGated (e : BoltEvent) (channelType : ChannelType) (botUserId : Option JsString)
    (requireMention : Bool) : Bool :=
  requireMention &&
  channelType = .group &&
  e.channelType = some .channel &&
  botUserId.any fun id => !includes (mention id) (e.text.getD [])

/-- `requireMention` is on unless the options turn it off. -/
def normalizeSlackEvent (body : BoltMessageBody) (botUserId : Option JsString)
    (requireMention : Option Bool) : Option SlackMessageEvent :=
  let e := body.event
  if shouldSkipEvent e botUserId then none
  else
    let channelType := resolveChannelType e
    if isMentionGated e channelType botUserId (requireMention.getD true) then none
    else
      let userId := e.user.getD (js "anonymous")
      some {
        id := js "slack-" ++ body.teamId.getD (js "?") ++ js "-" ++ e.channel ++ js "-" ++ e.ts
        platform := js "slack"
        sender := { id := userId }
        channel :=
          { id := e.channel, type := channelType,
            topicId := if channelType = .thread then e.threadTs else none }
        text := e.text.getD []
        receivedAt := (stringToNumber e.ts * 1000).floor
        slack := ⟨body.teamId, e.channel, userId, e.ts, e.threadTs, e.subtype, body⟩ }

/-! ## Whose messages pass -/

section
variable {body : BoltMessageBody} {botUserId : Option JsString} {requireMention : Option Bool}
  {event : SlackMessageEvent}

/-- A message passes when neither rule drops it. -/
theorem isSome_normalizeSlackEvent : (normalizeSlackEvent body botUserId requireMention).isSome =
    (!shouldSkipEvent body.event botUserId &&
      !isMentionGated body.event (resolveChannelType body.event) botUserId
        (requireMention.getD true)) := by
  unfold normalizeSlackEvent
  dsimp only
  split
  · simp_all
  · split <;> simp_all

theorem raw_normalizeSlackEvent
    (h : normalizeSlackEvent body botUserId requireMention = some event) :
    event.slack.raw = body := by
  unfold normalizeSlackEvent at h
  dsimp only at h
  split at h
  · cases h
  · split at h
    · cases h
    · cases h
      rfl

end

/-! ## What the bot's own id tells -/

/-- A message in a public channel, in no thread, that does not mention a user. -/
def Unmentioned (id : JsString) (e : BoltEvent) : Prop :=
  (e.threadTs = none ∨ e.threadTs = some e.ts) ∧ e.channelType = some .channel ∧
    includes (mention id) (e.text.getD []) = false

instance (id : JsString) (e : BoltEvent) : Decidable (Unmentioned id e) :=
  inferInstanceAs (Decidable (_ ∧ _ ∧ _))

/-- A message that the handler of a bot must not see. -/
def Offends (bot : JsString) (requireMention : Option Bool) (body : BoltMessageBody) : Prop :=
  body.event.user = some bot ∨ (requireMention.getD true = true ∧ Unmentioned bot body.event)

instance (bot : JsString) (requireMention : Option Bool) (body : BoltMessageBody) :
    Decidable (Offends bot requireMention body) :=
  inferInstanceAs (Decidable (_ ∨ (_ ∧ _)))

/-- A rule drops the message, with the id of the bot that is known. -/
def isDropped (body : BoltMessageBody) (botUserId : Option JsString)
    (requireMention : Option Bool) : Bool :=
  shouldSkipEvent body.event botUserId ||
    isMentionGated body.event (resolveChannelType body.event) botUserId (requireMention.getD true)

theorem normalizeSlackEvent_eq_none_iff {body : BoltMessageBody} {botUserId : Option JsString}
    {requireMention : Option Bool} : normalizeSlackEvent body botUserId requireMention = none ↔
      isDropped body botUserId requireMention = true := by
  rw [← Option.isNone_iff_eq_none, ← Option.not_isSome, isSome_normalizeSlackEvent, isDropped]
  simp

theorem resolveChannelType_of_unmentioned {id : JsString} {e : BoltEvent} (h : Unmentioned id e) :
    resolveChannelType e = .group := by
  obtain ⟨hthread, hchannel, _⟩ := h
  rw [resolveChannelType, if_neg, if_neg]
  · simp [hchannel]
  · rintro ⟨hsome, hne⟩
    obtain hnone | hsame := hthread
    · simp [hnone] at hsome
    · exact hne hsame

theorem unmentioned_iff {id : JsString} {e : BoltEvent} : Unmentioned id e ↔
    resolveChannelType e = .group ∧ e.channelType = some .channel ∧
      includes (mention id) (e.text.getD []) = false := by
  refine ⟨fun h => ⟨resolveChannelType_of_unmentioned h, h.2⟩, fun ⟨hgroup, h⟩ => ⟨?_, h⟩⟩
  rw [resolveChannelType] at hgroup
  split at hgroup
  · cases hgroup
  · rename_i hthread
    cases htop : e.threadTs with
    | none => exact .inl rfl
    | some ts =>
      rw [htop] at hthread
      exact .inr (Decidable.of_not_not fun hne => hthread ⟨rfl, hne⟩)

/-- A message is dropped by the rules that need no id, or is one that the bot whose id is known must
not see. -/
theorem isDropped_iff {body : BoltMessageBody} {botUserId requireMention} :
    isDropped body botUserId requireMention = true ↔
      shouldSkipEvent body.event none = true ∨
        ∃ id, botUserId = some id ∧ Offends id requireMention body := by
  cases botUserId with
  | none => simp [isDropped, isMentionGated]
  | some id =>
    have hgated : isMentionGated body.event (resolveChannelType body.event) (some id)
        (requireMention.getD true) = true ↔
          requireMention.getD true = true ∧ Unmentioned id body.event := by
      simp [isMentionGated, unmentioned_iff, and_assoc]
    have hskipped : shouldSkipEvent body.event (some id) = true ↔
        shouldSkipEvent body.event none = true ∨ body.event.user = some id := by
      cases huser : body.event.user with
      | none => simp [shouldSkipEvent, huser]
      | some user => simp [shouldSkipEvent, huser, or_right_comm]
    rw [isDropped, Bool.or_eq_true, hgated, hskipped]
    simp [Offends, or_assoc]

end TheokitGateways.Slack
