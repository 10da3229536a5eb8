import TheokitGateways.Gateway.Dispatch
import TheokitGateways.Js.OrderedMap

/-!
# The command a message names

A runner takes the first of its prefixes that a text starts with, and looks for a
registered name behind that one alone. A name behind a later prefix is hidden when
the text starts with an earlier one too, and no name stands behind that.
-/

namespace TheokitGateways.Gateway
open Js

section

variable {H : Type}

/-- `GatewayRunner.command`. -/
def command (commands : OrderedMap JsString H) (name : JsString) (handler : H) :
    OrderedMap JsString H :=
  commands.set name handler

/-- The commands after these calls of `command`, in order. -/
def registered (calls : List (JsString × H)) : OrderedMap JsString H :=
  calls.foldl (fun commands call => command commands call.1 call.2) .empty

/-- The text is `full`, or goes on with a space or an `@` behind it. -/
def namesFull (text full : JsString) : Bool :=
  text = full || (full ++ js " ").isPrefixOf text || (full ++ js "@").isPrefixOf text

/-- `matchSlashCommand` to the handler it answers. -/
def matchSlashHandler (commandPrefixes : List JsString) (commands : OrderedMap JsString H)
    (text : JsString) : Option H := do
  let activePrefix ← commandPrefixes.find? (·.isPrefixOf text)
  let entry ← commands.entries.find? fun entry => namesFull text (activePrefix ++ entry.1)
  return entry.2

/-- The handler of the command that `dispatch` picks. -/
theorem get_matchSlashCommand (opts : GatewayRunnerOptions) (event : BaseMessageEvent)
    (commands : OrderedMap JsString H) (h : opts.commands = commands.entries.map Prod.fst) :
    (matchSlashCommand opts event).bind commands.get =
      matchSlashHandler opts.commandPrefixes commands event.text := by
  have hmatch : matchSlashCommand opts event =
      (opts.commandPrefixes.find? (·.isPrefixOf event.text)).bind fun activePrefix =>
        opts.commands.find? fun name => namesFull event.text (activePrefix ++ name) := rfl
  rw [hmatch, h, matchSlashHandler]
  cases opts.commandPrefixes.find? (·.isPrefixOf event.text) with
  | none => rfl
  | some activePrefix =>
    simp only [Option.bind_eq_bind, Option.bind_some, List.find?_map, Function.comp_def]
    cases hfind : commands.entries.find? fun entry =>
        namesFull event.text (activePrefix ++ entry.1) with
    | none => rfl
    | some entry => exact OrderedMap.get_of_mem_entries (List.mem_of_find?_eq_some hfind)

end

/-! ## Names behind a prefix -/

/-- The text is the prefix and the name, and then ends or goes on with a space or an `@`. -/
def Names (text commandPrefix name : JsString) : Prop :=
  ∃ rest, text = commandPrefix ++ name ++ rest ∧
    (rest = [] ∨ rest.head? = some (unit ' ') ∨ rest.head? = some (unit '@'))

theorem Names.startsWith {text commandPrefix name : JsString} (h : Names text commandPrefix name) :
    commandPrefix <+: text := by
  obtain ⟨rest, rfl, -⟩ := h
  exact ⟨name ++ rest, (List.append_assoc _ _ _).symm⟩

theorem append_isPrefixOf {text full : JsString} {c : UInt16} :
    (full ++ [c]).isPrefixOf text = true ↔ ∃ rest, text = full ++ rest ∧ rest.head? = some c := by
  rw [List.isPrefixOf_iff_prefix]
  constructor
  · rintro ⟨rest, rfl⟩
    exact ⟨c :: rest, by simp, rfl⟩
  · rintro ⟨rest, rfl, hhead⟩
    obtain ⟨tail, rfl⟩ := List.head?_eq_some_iff.mp hhead
    exact ⟨tail, by simp⟩

theorem namesFull_iff {text commandPrefix name : JsString} :
    namesFull text (commandPrefix ++ name) = true ↔ Names text commandPrefix name := by
  have hspace : js " " = [unit ' '] := rfl
  have hat : js "@" = [unit '@'] := rfl
  simp only [namesFull, hspace, hat, Bool.or_eq_true, decide_eq_true_iff, append_isPrefixOf]
  constructor
  · rintro ((h | ⟨rest, h, hhead⟩) | ⟨rest, h, hhead⟩)
    · exact ⟨[], by simpa using h, .inl rfl⟩
    · exact ⟨rest, h, .inr (.inl hhead)⟩
    · exact ⟨rest, h, .inr (.inr hhead)⟩
  · rintro ⟨rest, h, rfl | hhead | hhead⟩
    · exact .inl (.inl (by simpa using h))
    · exact .inl (.inr ⟨rest, h, hhead⟩)
    · exact .inr ⟨rest, h, hhead⟩

section

variable {H : Type} {calls : List (JsString × H)}

/-- The handler of the last call of `command` for the name. -/
def handlerFor (calls : List (JsString × H)) (name : JsString) : Option H :=
  (calls.reverse.find? fun call => call.1 = name).map Prod.snd

theorem get_registered (name : JsString) : (registered calls).get name = handlerFor calls name := by
  have h := OrderedMap.get_foldl_set_last Prod.fst Prod.snd calls .empty name
  rwa [OrderedMap.get_empty, Option.or_none] at h

theorem handlerFor_isSome {name : JsString} :
    (handlerFor calls name).isSome = true ↔ ∃ call ∈ calls, call.1 = name := by
  simp [handlerFor, List.find?_isSome]

theorem mem_entries_registered {name : JsString} {handler : H} :
    (name, handler) ∈ (registered calls).entries ↔ handlerFor calls name = some handler := by
  rw [← get_registered]
  exact ⟨OrderedMap.get_of_mem_entries, OrderedMap.mem_entries_of_get⟩

/-- The first of the prefixes that the text starts with. -/
def activePrefix? (commandPrefixes : List JsString) (text : JsString) : Option JsString :=
  commandPrefixes.find? (·.isPrefixOf text)

theorem matchSlashHandler_eq_some {commandPrefixes : List JsString} {text : JsString}
    {handler : H} (h : matchSlashHandler commandPrefixes (registered calls) text = some handler) :
    ∃ first name, activePrefix? commandPrefixes text = some first ∧ Names text first name ∧
      handlerFor calls name = some handler := by
  unfold matchSlashHandler at h
  cases hactive : commandPrefixes.find? (·.isPrefixOf text) with
  | none => simp [hactive] at h
  | some first =>
    cases hfind : (registered calls).entries.find? fun entry =>
        namesFull text (first ++ entry.1) with
    | none => simp [hactive, hfind] at h
    | some entry =>
      simp only [hactive, hfind, Option.bind_eq_bind, Option.bind_some, Option.pure_def,
        Option.some.injEq] at h
      have hmem := List.mem_of_find?_eq_some hfind
      have hfull : namesFull text (first ++ entry.1) = true := by simpa using List.find?_some hfind
      exact ⟨first, entry.1, hactive, namesFull_iff.mp hfull, mem_entries_registered.mp (h ▸ hmem)⟩

theorem matchSlashHandler_isSome {commandPrefixes : List JsString} {text first : JsString}
    (hactive : activePrefix? commandPrefixes text = some first) {call : JsString × H}
    (hcall : call ∈ calls) (hnames : Names text first call.1) :
    (matchSlashHandler commandPrefixes (registered calls) text).isSome = true := by
  obtain ⟨handler, hhandler⟩ :=
    Option.isSome_iff_exists.mp (handlerFor_isSome.mpr ⟨call, hcall, rfl⟩)
  have hfind : ((registered calls).entries.find? fun entry =>
      namesFull text (first ++ entry.1)).isSome = true :=
    List.find?_isSome.mpr ⟨_, mem_entries_registered.mpr hhandler, namesFull_iff.mpr hnames⟩
  obtain ⟨entry, hentry⟩ := Option.isSome_iff_exists.mp hfind
  unfold activePrefix? at hactive
  simp [matchSlashHandler, hactive, hentry]

/-! ## Every prefix is asked, unless an earlier one hides it -/

/-- A message has a handler when a prefix and a name match it, and has that of such a name. -/
structure MatchesEach (commandPrefixes : List JsString) (calls : List (JsString × H))
    (text : JsString) : Prop where
  matched : (matchSlashHandler commandPrefixes (registered calls) text).isSome = true ↔
    ∃ p ∈ commandPrefixes, ∃ call ∈ calls, Names text p call.1
  handler : ∀ handler, matchSlashHandler commandPrefixes (registered calls) text = some handler →
    ∃ p ∈ commandPrefixes, ∃ name, Names text p name ∧ handlerFor calls name = some handler

/-- A name stands behind a prefix, and none behind the first one that the text starts with. -/
def Hidden (commandPrefixes : List JsString) (calls : List (JsString × H)) (text : JsString) :
    Prop :=
  ∃ before first after, commandPrefixes = before ++ first :: after ∧
    (∀ p ∈ before, ¬p <+: text) ∧ first <+: text ∧
    (∃ p ∈ after, ∃ call ∈ calls, Names text p call.1) ∧ ∀ call ∈ calls, ¬Names text first call.1

theorem activePrefix?_eq_some {commandPrefixes : List JsString} {text first : JsString} :
    activePrefix? commandPrefixes text = some first ↔
      ∃ before after, commandPrefixes = before ++ first :: after ∧
        (∀ p ∈ before, ¬p <+: text) ∧ first <+: text := by
  simp only [activePrefix?, List.find?_eq_some_iff_append, List.isPrefixOf_iff_prefix,
    Bool.not_eq_true', ← Bool.not_eq_true]
  constructor
  · rintro ⟨hfirst, before, after, heq, hbefore⟩
    exact ⟨before, after, heq, hbefore, hfirst⟩
  · rintro ⟨before, after, heq, hbefore, hfirst⟩
    exact ⟨hfirst, before, after, heq, hbefore⟩

theorem matchesEach_iff (commandPrefixes : List JsString) (calls : List (JsString × H))
    (text : JsString) :
    MatchesEach commandPrefixes calls text ↔ ¬Hidden commandPrefixes calls text := by
  constructor
  · rintro heach ⟨before, first, after, heq, hbefore, hfirst, ⟨p, hp, hmatch⟩, hnone⟩
    have hsome := heach.matched.mpr ⟨p, by simp [heq, hp], hmatch⟩
    obtain ⟨handler, hhandler⟩ := Option.isSome_iff_exists.mp hsome
    obtain ⟨first', name, hactive, hnames, hof⟩ := matchSlashHandler_eq_some hhandler
    rw [activePrefix?_eq_some.mpr ⟨before, after, heq, hbefore, hfirst⟩] at hactive
    cases hactive
    obtain ⟨call, hcall, rfl⟩ := handlerFor_isSome.mp (Option.isSome_iff_exists.mpr ⟨_, hof⟩)
    exact hnone call hcall hnames
  · intro hidden
    refine ⟨⟨fun hsome => ?_, ?_⟩, fun handler hhandler => ?_⟩
    · obtain ⟨handler, hhandler⟩ := Option.isSome_iff_exists.mp hsome
      obtain ⟨first, name, hactive, hnames, hof⟩ := matchSlashHandler_eq_some hhandler
      obtain ⟨call, hcall, rfl⟩ := handlerFor_isSome.mp (Option.isSome_iff_exists.mpr ⟨_, hof⟩)
      exact ⟨first, List.mem_of_find?_eq_some hactive, call, hcall, hnames⟩
    · rintro ⟨p, hp, call, hcall, hnames⟩
      have hactive : ∃ first, activePrefix? commandPrefixes text = some first :=
        Option.isSome_iff_exists.mp (List.find?_isSome.mpr
          ⟨p, hp, List.isPrefixOf_iff_prefix.mpr hnames.startsWith⟩)
      obtain ⟨first, hactive⟩ := hactive
      obtain ⟨before, after, heq, hbefore, hfirst⟩ := activePrefix?_eq_some.mp hactive
      -- a match behind another prefix than the first must not be hidden by it
      by_cases hname : ∃ call ∈ calls, Names text first call.1
      · obtain ⟨call', hcall', hnames'⟩ := hname
        exact matchSlashHandler_isSome hactive hcall' hnames'
      · have hnone : ∀ call ∈ calls, ¬Names text first call.1 :=
          fun c hc hn => hname ⟨c, hc, hn⟩
        rw [heq, List.mem_append, List.mem_cons] at hp
        rcases hp with hp | rfl | hp
        · exact absurd hnames.startsWith (hbefore p hp)
        · exact absurd hnames (hnone call hcall)
        · exact absurd ⟨before, first, after, heq, hbefore, hfirst,
            ⟨p, hp, call, hcall, hnames⟩, hnone⟩ hidden
    · obtain ⟨first, name, hactive, hnames, hof⟩ := matchSlashHandler_eq_some hhandler
      exact ⟨first, List.mem_of_find?_eq_some hactive, name, hnames, hof⟩

/-- With the prefixes `/` and `/!`, the command `ping` is not found in `/!ping`. -/
theorem hidden_by_slash :
    ¬MatchesEach [js "/", js "/!"] [(js "ping", ())] (js "/!ping") := by
  intro h
  have hnone : matchSlashHandler [js "/", js "/!"] (registered [(js "ping", ())])
      (js "/!ping") = none := by decide
  have hsome := h.matched.mpr ⟨js "/!", by simp, _, List.mem_singleton_self _, [], by decide,
    .inl rfl⟩
  rw [hnone] at hsome
  cases hsome

end

end TheokitGateways.Gateway
