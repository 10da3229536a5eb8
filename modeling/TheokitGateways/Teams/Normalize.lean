import TheokitGateways.Gateway.MessageEvent
import TheokitGateways.Js.Members

/-!
# Teams: an activity as an event

The source reads the members of an activity unchecked, so an event's fields are
JSON values here. Two of them are more than passed on: the text is taken for a
string, and a conversation type it does not know is shown in a warning.
`tolerates_iff` says that these are the two ways in which an activity makes the
normalizer throw. The runtime's `Date.parse` is a variable.
-/

namespace TheokitGateways.Teams
open Js Gateway

/-! ## Mentions -/

/-- `s.replace(re, …)` for a global `re`, from a place where the first `skip` units are the rest of
a match. `find` gives the length of the match at the front of a text, and what replaces it. -/
def replaceMatches (find : JsString → Option (Nat × JsString)) : Nat → JsString → JsString
  | _, [] => []
  | skip + 1, _ :: s => replaceMatches find skip s
  | 0, c :: s =>
    match find (c :: s) with
    | some (length, replacement) => replacement ++ replaceMatches find (length - 1) s
    | none => c :: replaceMatches find 0 s

/-- `s` starts with `word`, in ASCII letters of either case. -/
def startsWithTag (word s : JsString) : Bool :=
  (s.take word.length).map asciiLower = word

/-- What follows `<at(?:\s+[^>]*)?>`. -/
def afterOpenTag (s : JsString) : Option JsString :=
  if startsWithTag (js "<at") s then
    match s.drop 3 with
    | [] => none
    | c :: rest =>
      if c = unit '>' then some rest
      else if isSpace c then (cutAt (unit '>') rest).map Prod.snd
      else none
  else none

/-- The match of `<at(?:\s+[^>]*)?>([^<]*)<\/at>` at the front of a text, and its `$1`. -/
def findAtTag (s : JsString) : Option (Nat × JsString) := do
  let inner ← afterOpenTag s
  let name := inner.takeWhile (· ≠ unit '<')
  let close := inner.drop name.length
  if startsWithTag (js "</at>") close then some (s.length - (close.length - 5), name) else none

/-- A name, whose characters the source escapes in the pattern, is taken out. -/
def findName (name s : JsString) : Option (Nat × JsString) :=
  if name.isPrefixOf s then some (name.length, []) else none

/-- `\s+`, for which one space is put. -/
def findSpaces (s : JsString) : Option (Nat × JsString) :=
  let spaces := s.takeWhile isSpace
  if spaces = [] then none else some (spaces.length, js " ")

def stripTeamsMentions (text : JsString) (botDisplayName : Option JsString) : JsString :=
  let cleaned := replaceMatches findAtTag 0 text
  let cleaned :=
    match botDisplayName with
    | some name => if name = [] then cleaned else replaceMatches (findName name) 0 cleaned
    | none => cleaned
  trim (replaceMatches findSpaces 0 cleaned)

/-! ## The event -/

structure TeamsSender where
  id : Json
  displayName : Option Json

structure TeamsChannel where
  id : Json
  type : ChannelType
  topicId : Option Json

/-- The block of fields only Teams has. -/
structure TeamsFields where
  activityId : Json
  conversationId : Json
  conversationType : Json
  tenantId : Option Json
  channelId : Option Json
  teamId : Option Json
  raw : Option Json

structure TeamsMessageEvent where
  id : Json
  platform : JsString := js "teams"
  sender : TeamsSender
  channel : TeamsChannel
  text : JsString
  receivedAt : JsNumber
  teams : TeamsFields

/-- What a conversation is mapped to, with what is written to the console. -/
structure ChannelMapping where
  type : ChannelType
  topicId : Option Json := none
  warning : Option JsString := none

/-- `channelData?.channel?.id ?? channelData?.teamsChannelId`. -/
def channelIdOf (channelData : Option Json) : Option Json :=
  Json.coalesce (optGet (optGet channelData (js "channel")) (js "id"))
    (optGet channelData (js "teamsChannelId"))

def teamIdOf (channelData : Option Json) : Option Json :=
  Json.coalesce (optGet (optGet channelData (js "team")) (js "id"))
    (optGet channelData (js "teamsTeamId"))

/-- The error is the `TypeError` of a type that has no text. -/
def channelMapping (conv channelData : Option Json) : Except JsString ChannelMapping :=
  let convType := optGet conv (js "conversationType")
  if Json.isText convType (js "personal") then .ok { type := .dm }
  else if Json.isText convType (js "groupChat") then .ok { type := .group }
  else if Json.isText convType (js "channel") then
    .ok { type := .group, topicId := channelIdOf channelData }
  else
    match convType with
    | none => .ok { type := .dm }
    | some v => v.toStr.map fun shown =>
      { type := .dm
        warning := some (js "[teams] unknown conversationType: " ++ shown ++
          js " — defaulting to dm") }

/-- `stripTeamsMentions(text ?? "", botDisplayName)`; the error is a `TypeError`. -/
def strippedText (text : Option Json) (botDisplayName : Option JsString) :
    Except JsString JsString :=
  match text with
  | none | some .null => .ok (stripTeamsMentions [] botDisplayName)
  | some (.string s) => .ok (stripTeamsMentions s botDisplayName)
  | some _ => .error (js "text.replace is not a function")

section
variable (dateParse : JsString → JsNumber) (now : Int)

/-- A timestamp that is no date gives the time of the clock. -/
def receivedAt (timestamp : Option Json) : JsNumber :=
  match optString timestamp with
  | none => .finite now
  | some s => if (dateParse s).isFinite then dateParse s else .finite now

/-- The event of an activity, from what its conversation is mapped to and its text on. -/
def activityEvent (activity : Option Json) (mapping : ChannelMapping) (text : JsString) :
    TeamsMessageEvent :=
  let act := Json.orElse activity (.object [])
  let conv := act.get (js "conversation")
  let sender := act.get (js "from")
  let channelData := act.get (js "channelData")
  let id := Json.orElse (act.get (js "id")) (.string (js "unknown"))
  let convId := Json.orElse (optGet conv (js "id")) (.string (js "unknown"))
  { id := id
    sender :=
      { id := Json.orElse (Json.coalesce (optGet sender (js "id"))
          (optGet sender (js "aadObjectId"))) (.string (js "anonymous"))
        displayName := optGet sender (js "name") }
    channel := { id := convId, type := mapping.type, topicId := mapping.topicId }
    text := text
    receivedAt := receivedAt dateParse now (act.get (js "timestamp"))
    teams :=
      { activityId := id
        conversationId := convId
        conversationType := Json.orElse (optGet conv (js "conversationType"))
          (.string (js "personal"))
        tenantId := optGet conv (js "tenantId")
        channelId := channelIdOf channelData
        teamId := teamIdOf channelData
        raw := activity } }

/-- What `normalizeTeamsActivity` writes to the console, and returns or throws. -/
structure Normalization where
  warning : Option JsString
  event : Except JsString TeamsMessageEvent

def normalizeTeamsActivity (activity : Option Json) (botDisplayName : Option JsString) :
    Normalization :=
  let act := Json.orElse activity (.object [])
  match channelMapping (act.get (js "conversation")) (act.get (js "channelData")) with
  | .error thrown => { warning := none, event := .error thrown }
  | .ok mapping =>
    { warning := mapping.warning
      event := (strippedText (act.get (js "text")) botDisplayName).map
        (activityEvent dateParse now activity mapping) }

/-! ## Which activities are tolerated -/

/-- The activity gives an event, received at a finite time; that its text is a string is said by
the type of the event. -/
def Tolerates (activity : Option Json) (botDisplayName : Option JsString) : Prop :=
  ∃ event, (normalizeTeamsActivity dateParse now activity botDisplayName).event = .ok event ∧
    event.receivedAt.isFinite = true

/-- A text that is there is a string, and a conversation type that is there can be shown. -/
structure Readable (activity : Option Json) : Prop where
  text : ∀ text, optGet activity (js "text") = some text → text = .null ∨ text.isString = true
  conversationType : ∀ convType,
    optGet (optGet activity (js "conversation")) (js "conversationType") = some convType →
    ¬convType.HidesText

/-- Reading through `activity ?? {}` is reading the activity. -/
theorem get_orElse_object (activity : Option Json) (key : JsString) :
    (Json.orElse activity (.object [])).get key = optGet activity key := by
  rcases activity with _ | ⟨_ | _ | _ | _ | _ | _⟩ <;> rfl

theorem isOk_strippedText_iff {text : Option Json} {botDisplayName : Option JsString} :
    (∃ stripped, strippedText text botDisplayName = .ok stripped) ↔
      ∀ v, text = some v → v = .null ∨ v.isString = true := by
  rcases text with _ | ⟨_ | _ | _ | _ | _ | _⟩ <;> simp [strippedText, Json.isString]

/-- The types the source knows are strings, and a string can be shown. -/
theorem isOk_channelMapping_iff {conv channelData : Option Json} :
    (∃ mapping, channelMapping conv channelData = .ok mapping) ↔
      ∀ convType, optGet conv (js "conversationType") = some convType → ¬convType.HidesText := by
  have hknown {known : JsString}
      (h : Json.isText (optGet conv (js "conversationType")) known = true) (convType : Json)
      (hget : optGet conv (js "conversationType") = some convType) : ¬convType.HidesText := by
    have hstring := optString_eq_some.1 (of_decide_eq_true h)
    cases hstring.symm.trans hget
    rintro ⟨⟩
  unfold channelMapping
  dsimp only
  split
  · exact ⟨fun _ => hknown ‹_›, fun _ => ⟨_, rfl⟩⟩
  split
  · exact ⟨fun _ => hknown ‹_›, fun _ => ⟨_, rfl⟩⟩
  split
  · exact ⟨fun _ => hknown ‹_›, fun _ => ⟨_, rfl⟩⟩
  cases optGet conv (js "conversationType") with
  | none => simp
  | some convType =>
    simp only [Option.some.injEq, forall_eq', map_eq_ok]
    rw [← Json.isOk_toStr_iff, isOk_eq_true_iff]
    exact ⟨fun ⟨_, shown, h, _⟩ => ⟨shown, h⟩, fun ⟨shown, h⟩ => ⟨_, shown, h, rfl⟩⟩

theorem isFinite_receivedAt (timestamp : Option Json) :
    (receivedAt dateParse now timestamp).isFinite = true := by
  unfold receivedAt
  split
  · rfl
  · split
    · assumption
    · rfl

/-- What the normalizer returns, it returns of a mapping and a text that could be read. -/
theorem normalizeTeamsActivity_eq_ok {activity : Option Json} {botDisplayName : Option JsString}
    {event : TeamsMessageEvent} :
    (normalizeTeamsActivity dateParse now activity botDisplayName).event = .ok event ↔
      ∃ mapping stripped,
        channelMapping (optGet activity (js "conversation")) (optGet activity (js "channelData")) =
          .ok mapping ∧
        strippedText (optGet activity (js "text")) botDisplayName = .ok stripped ∧
        activityEvent dateParse now activity mapping stripped = event := by
  simp only [normalizeTeamsActivity, get_orElse_object]
  cases channelMapping (optGet activity (js "conversation"))
      (optGet activity (js "channelData")) with
  | error thrown => simp
  | ok mapping => simp [map_eq_ok]

/-- An activity is tolerated unless its text is no string, or its conversation type has no text. -/
theorem tolerates_iff (activity : Option Json) (botDisplayName : Option JsString) :
    Tolerates dateParse now activity botDisplayName ↔ Readable activity := by
  constructor
  · rintro ⟨event, hevent, _⟩
    obtain ⟨mapping, stripped, hmapping, hstripped, _⟩ :=
      (normalizeTeamsActivity_eq_ok dateParse now).1 hevent
    exact ⟨isOk_strippedText_iff.1 ⟨stripped, hstripped⟩,
      isOk_channelMapping_iff.1 ⟨mapping, hmapping⟩⟩
  · rintro ⟨htext, htype⟩
    obtain ⟨stripped, hstripped⟩ := isOk_strippedText_iff.2 htext
    obtain ⟨mapping, hmapping⟩ := isOk_channelMapping_iff.2 htype
    exact ⟨_, (normalizeTeamsActivity_eq_ok dateParse now).2
      ⟨mapping, stripped, hmapping, hstripped, rfl⟩, isFinite_receivedAt dateParse now _⟩

end

/-- A message whose text is the number 5 is not tolerated. -/
theorem numeric_text_throws :
    ¬∀ (dateParse : JsString → JsNumber) (now : Int) (activity : Option Json)
      (botDisplayName : Option JsString), Tolerates dateParse now activity botDisplayName := by
  intro h
  obtain ⟨event, hevent, _⟩ := h (fun _ => .nan) 0
    (some (.object [(js "type", .string (js "message")), (js "text", .number 5)])) none
  cases hevent

end TheokitGateways.Teams
