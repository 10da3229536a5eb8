import TheokitGateways.Js.JsonText
import TheokitGateways.Js.LineStream
import TheokitGateways.Js.Members
import TheokitGateways.WhatsApp.Web.Ipc

/-!
# What the adapter writes to the bridge

A command is one line of JSON. The bridge reads lines with the runtime's `readline`,
which ends a line at `\n` and, as the version has it, at other units too: `ends` are
these. A command comes out as it went in wherever the chunks end, unless one of its
strings has a unit that ends a line and that JSON does not escape
(`bridgeCommands_mono`).
-/

namespace TheokitGateways.WhatsApp.Web
open Js Gateway Json

/-- Commands the adapter sends to the bridge. -/
inductive IpcCommand where
  | send (msgId recipient text : JsString)
  | shutdown
  deriving DecidableEq

def IpcCommand.toJson : IpcCommand → Json
  | .send msgId recipient text =>
    .object [(js "cmd", .string (js "send")), (js "msgId", .string msgId),
      (js "to", .string recipient), (js "text", .string text)]
  | .shutdown => .object [(js "cmd", .string (js "shutdown"))]

/-- Format an outbound command as JSON + newline. -/
def formatCommand (cmd : IpcCommand) : JsString := cmd.toJson.stringify ++ [newline]

/-- What the bridge does with a line; what a command names is not checked. -/
inductive BridgeCommand where
  | shutdown
  | send (msgId recipient text : Option Json)

/-- The command of a line, if it is one. -/
def bridgeCommand (line : JsString) : Option BridgeCommand := do
  let cmd ← jsonParse line
  if Json.isText (cmd.get (js "cmd")) (js "shutdown") then some .shutdown
  else if Json.isText (cmd.get (js "cmd")) (js "send") then
    some (.send (cmd.get (js "msgId")) (cmd.get (js "to")) (cmd.get (js "text")))
  else none

/-- The command as the bridge has it. -/
def IpcCommand.received : IpcCommand → BridgeCommand
  | .send msgId recipient text =>
    .send (some (.string msgId)) (some (.string recipient)) (some (.string text))
  | .shutdown => .shutdown

/-- The units that end a line: `\n`, and of the others none that JSON writes. -/
structure LineEnds (ends : UInt16 → Bool) : Prop where
  newline : ends newline = true
  ascii : ∀ c, ends c = true → c < 0x80 → c < 0x20

/-- No string of the command has a unit that ends a line, unless JSON escapes it. -/
def IpcCommand.Unbroken (ends : UInt16 → Bool) : IpcCommand → Prop
  | .send msgId recipient text => ∀ c ∈ msgId ++ recipient ++ text, 0x80 ≤ c → ends c = false
  | .shutdown => True

instance (ends : UInt16 → Bool) : ∀ cmd : IpcCommand, Decidable (cmd.Unbroken ends)
  | .send msgId recipient text =>
    List.decidableBAll (fun c => 0x80 ≤ c → ends c = false) (msgId ++ recipient ++ text)
  | .shutdown => inferInstanceAs (Decidable True)

variable {ends : UInt16 → Bool}

/-! ### Commands -/

theorem writable_toJson (cmd : IpcCommand) : cmd.toJson.Writable := by
  cases cmd with
  | send msgId recipient text =>
    have hkeys : [js "cmd", js "msgId", js "to", js "text"].Nodup := by decide
    exact ⟨hkeys, trivial, trivial, trivial, trivial, trivial⟩
  | shutdown =>
    have hkeys : [js "cmd"].Nodup := by decide
    exact ⟨hkeys, trivial, trivial⟩

/-- The bridge reads a command as it was written. -/
theorem bridgeCommand_stringify (cmd : IpcCommand) :
    bridgeCommand cmd.toJson.stringify = some cmd.received := by
  rw [bridgeCommand, jsonParse_stringify (writable_toJson cmd)]
  cases cmd <;> rfl

theorem ascii_of_all {s : JsString} (h : s.all (· < 0x80) = true) {c : UInt16} (hc : c ∈ s) :
    c < 0x80 :=
  of_decide_eq_true (List.all_eq_true.1 h c hc)

/-- What is not ASCII in a command is from its strings. -/
theorem mem_toJson {c : UInt16} {msgId recipient text : JsString}
    (hc : c ∈ (IpcCommand.send msgId recipient text).toJson.stringify) :
    c < 0x80 ∨ c ∈ msgId ++ recipient ++ text := by
  have hquoted {s : JsString} (hc : c ∈ quoteString s) : c < 0x80 ∨ c ∈ s := by
    obtain rfl | hc := List.mem_cons.1 hc
    · exact .inl (by decide)
    · obtain hc | hc := List.mem_append.1 hc
      · exact (mem_quoteUnits hc).2.symm
      · exact .inl (ascii_of_all (s := [0x22]) (by decide) hc)
  have hkey : ∀ key ∈ [js "cmd", js "send", js "msgId", js "to", js "text"],
      (quoteString key).all (· < 0x80) = true := by decide
  simp only [IpcCommand.toJson, stringify, stringifyMembers, List.intercalate_cons_cons,
    List.intercalate_singleton, List.mem_append, List.mem_cons, List.not_mem_nil, or_false] at hc ⊢
  rcases hc with (rfl | ((hc | rfl | hc) | rfl) | ((hc | rfl | hc) | rfl) |
    ((hc | rfl | hc) | rfl) | hc | rfl | hc) | rfl
  -- punctuation, a name of a member, or one of the strings
  all_goals first
    | exact .inl (by decide)
    | refine .inl (ascii_of_all (hkey _ ?_) hc); simp; done
    | refine (hquoted hc).imp_right fun hmem => ?_; simp [hmem]

/-- A command is one line. -/
theorem unbroken_line (hends : LineEnds ends) {cmd : IpcCommand} (h : cmd.Unbroken ends) :
    ∀ c ∈ cmd.toJson.stringify, ends c = false := by
  intro c hc
  have hvisible := visible_stringify cmd.toJson c hc
  refine Bool.of_not_eq_true fun hend => ?_
  have hbig : ¬c < 0x80 := fun hlt => UInt16.not_le.2 (hends.ascii c hend hlt) hvisible
  cases cmd with
  | send msgId recipient text =>
    have hmem := (mem_toJson hc).resolve_left hbig
    rw [h c hmem (UInt16.not_lt.1 hbig)] at hend
    cases hend
  | shutdown =>
    exact hbig (ascii_of_all (s := IpcCommand.shutdown.toJson.stringify) (by decide) hc)

/-- The commands of what the bridge has read. -/
def bridgeCommands (ends : UInt16 → Bool) (read : JsString) : List BridgeCommand :=
  (cutLinesBy ends read).1.filterMap bridgeCommand

/-- However far the bridge has read, its commands are the first of those that were written, each
as it was. -/
theorem bridgeCommands_mono (hends : LineEnds ends) {cmds : List IpcCommand}
    (h : ∀ cmd ∈ cmds, cmd.Unbroken ends) {read : JsString}
    (hread : read <+: cmds.flatMap formatCommand) :
    bridgeCommands ends read <+: cmds.map IpcCommand.received := by
  have hlines (cmd : IpcCommand) (hcmd : cmd ∈ cmds) : ∀ c ∈ cmd.toJson.stringify, ends c = false :=
    unbroken_line hends (h cmd hcmd)
  exact filterMap_cutLinesBy_mono hends.newline hlines (fun cmd _ => bridgeCommand_stringify cmd)
    hread

end TheokitGateways.WhatsApp.Web
