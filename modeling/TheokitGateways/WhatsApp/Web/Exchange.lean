import TheokitGateways.WhatsApp.Web.Sends
import TheokitGateways.WhatsApp.Web.Sessions

/-!
# The adapter, the bridges and the pipes between them

`Exchange` is a backend with the bridges it has spawned. What one side writes the
other reads in order, in chunks of any size and at any time later; a bridge asks its
client for each `send` it reads, and acknowledges when the client has settled. While
sessions are kept apart, the client is asked for what `send` was called with, at most
once for each call, and a call that is answered `ok` is one the client has sent
(`exchange_faithful`).
-/

namespace TheokitGateways.WhatsApp.Web
open Js Gateway Json Records Transition

/-- A call of the client's `sendMessage`, and how it has settled: with the id of the message it
sent, or with the text of an error. -/
structure Asked where
  msgId : Option Json
  recipient : Option Json
  text : Option Json
  outcome : Option (Except JsString (Option JsString)) := none

/-- A bridge process. -/
structure Bridge where
  /-- What it has read from its stdin. -/
  input : JsString := []
  /-- The part of it that is a line which has not ended. -/
  buffer : JsString := []
  asked : List Asked := []
  emitted : List Json := []

/-- What `emit` writes. -/
def eventLine (event : Json) : JsString := event.stringify ++ [newline]

/-- What a bridge has written to its stdout. -/
def Bridge.output (bridge : Bridge) : JsString := bridge.emitted.flatMap eventLine

/-- The acknowledgement of a send. -/
def ackEvent (msgId : Option Json) : Except JsString (Option JsString) → Json
  | .ok wamid => .ofOptional [(js "event", some (.string (js "send_ack"))), (js "msgId", msgId),
      (js "success", some (.bool true)), (js "wamid", wamid.map .string)]
  | .error message => .ofOptional [(js "event", some (.string (js "send_ack"))),
      (js "msgId", msgId), (js "success", some (.bool false)), (js "error", some (.string message))]

/-- The call of the client that a command asks for. -/
def BridgeCommand.asks : BridgeCommand → Option Asked
  | .send msgId recipient text => some { msgId, recipient, text }
  | .shutdown => none

/-- The listener of the bridge's `readline`, for the lines of a chunk. -/
def Bridge.read (ends : UInt16 → Bool) (bridge : Bridge) (chunk : JsString) : Bridge :=
  let (lines, buffer) := cutLinesBy ends (bridge.buffer ++ chunk)
  { bridge with
    input := bridge.input ++ chunk
    buffer := buffer
    asked := bridge.asked ++ (lines.filterMap bridgeCommand).filterMap BridgeCommand.asks }

structure Exchange where
  sender : Sender := {}
  bridges : List Bridge := []

inductive ExchangeAction where
  | sender (action : SendAction)
  | bridgeReads (k : Nat) (chunk : JsString)
  /-- The client settles a call. -/
  | clientSettles (k j : Nat) (outcome : Except JsString (Option JsString))
  /-- A bridge emits an event that acknowledges nothing. -/
  | emits (k : Nat) (event : Json)

/-- What was written to the stdin of a bridge. -/
def Sender.inputOf (s : Sender) (k : Nat) : JsString :=
  (s.written.filter (·.1 = k)).flatMap fun e => formatCommand e.2

namespace Exchange

/-- What comes out of a bridge's stdout is what the bridge has written to it. -/
def Delivers (x : Exchange) : SendAction → Prop
  | .backend (.stdout k chunk) _ => ∃ bridge ∈ x.bridges[k]?,
      ∃ child ∈ x.sender.backend.children[k]?, child.output ++ chunk <+: bridge.output
  | _ => True

instance (x : Exchange) : ∀ action, Decidable (x.Delivers action)
  | .backend (.stdout k chunk) _ => inferInstanceAs (Decidable (∃ bridge ∈ x.bridges[k]?,
      ∃ child ∈ x.sender.backend.children[k]?, child.output ++ chunk <+: bridge.output))
  | .backend (.connect _) _ | .backend .disconnect _ | .backend (.dispatch _) _
  | .backend .cutShort _ | .backend (.timeout _) _ | .backend (.resume _) _ | .backend (.exit _) _
  | .backend (.kill _) _ | .backend (.finish _) _ | .backend (.onInbound _) _
  | .backend (.offInbound _) _ | .send .. | .sendTimeout _ => inferInstanceAs (Decidable True)

def modifyBridge (x : Exchange) (k : Nat) (f : Bridge → Bridge) : Exchange :=
  { x with bridges := x.bridges.modify k f }

section
-- The units that end a line to the bridges, and the timeouts, as the errors name them.
variable (ends : UInt16 → Bool) (connectTimeoutMs sendTimeoutMs : JsString)

def step (x : Exchange) : ExchangeAction → Option Exchange
  | .sender action =>
    if x.Delivers action then do
      let s ← x.sender.step connectTimeoutMs sendTimeoutMs action
      -- a bridge is there from the time it is spawned
      let spawned := s.backend.children.length - x.bridges.length
      some { sender := s, bridges := x.bridges ++ List.replicate spawned {} }
    else none
  | .bridgeReads k chunk => do
    let bridge ← x.bridges[k]?
    if bridge.input ++ chunk <+: x.sender.inputOf k then
      some (x.modifyBridge k (Bridge.read ends · chunk))
    else none
  | .clientSettles k j outcome => do
    let bridge ← x.bridges[k]?
    let asked ← bridge.asked[j]?
    if asked.outcome.isNone then
      some (x.modifyBridge k fun bridge => { bridge with
        asked := bridge.asked.modify j fun asked => { asked with outcome := some outcome }
        emitted := bridge.emitted ++ [ackEvent asked.msgId outcome] })
    else none
  | .emits k event => do
    let _ ← x.bridges[k]?
    some (x.modifyBridge k fun bridge => { bridge with emitted := bridge.emitted ++ [event] })

/-- Sessions are kept apart, no text that is sent has a unit that ends a line to the bridge, and the
other events are what a bridge can write and acknowledge nothing. -/
def Proper (x : Exchange) : ExchangeAction → Prop
  | .sender (.backend action _) => x.sender.backend.Separate action
  | .sender (.send message _ _) =>
    ∀ c ∈ message.recipient ++ message.text, 0x80 ≤ c → ends c = false
  | .emits _ event =>
    event.Writable ∧ ∃ kind ∈ optString (event.get (js "event")), kind ≠ js "send_ack"
  | _ => True

instance (x : Exchange) : ∀ action, Decidable (Proper ends x action)
  | .sender (.backend action _) => inferInstanceAs (Decidable (x.sender.backend.Separate action))
  | .sender (.send message _ _) =>
    List.decidableBAll (fun c => 0x80 ≤ c → ends c = false) (message.recipient ++ message.text)
  | .emits _ event => inferInstanceAs (Decidable
      (event.Writable ∧ ∃ kind ∈ optString (event.get (js "event")), kind ≠ js "send_ack"))
  | .sender (.sendTimeout _) | .bridgeReads .. | .clientSettles .. =>
    inferInstanceAs (Decidable True)

end

end Exchange

/-! ### What a bridge writes, and what the backend makes of it -/

theorem cutLines_eq_cutLinesBy (s : JsString) : cutLines s = cutLinesBy (· = newline) s := by
  induction s with
  | nil => rfl
  | cons c s ih => grind [cutLines, cutLinesBy]

/-- An event that comes through the pipe. -/
def Emittable (event : Json) : Prop :=
  event.Writable ∧ ∃ kind, event.get (js "event") = some (.string kind)

theorem parseEvent_stringify {event : Json} (h : Emittable event) :
    parseEvent event.stringify = some event := by
  obtain ⟨hwritable, kind, hkind⟩ := h
  have hparse := jsonParse_stringify hwritable
  have hne : event.stringify ≠ [] := by
    intro hnil
    rw [hnil] at hparse
    have hnone : (jsonParse []).isNone = true := by decide +kernel
    rw [hparse] at hnone
    cases hnone
  rw [parseEvent, if_neg hne, hparse]
  simp [hkind, optString, asString]

namespace WhatsAppWebBackend

theorem eventsOf_prefix {s t : JsString} (h : s <+: t) : eventsOf s <+: eventsOf t := by
  unfold eventsOf
  rw [cutLines_eq_cutLinesBy, cutLines_eq_cutLinesBy]
  exact (cutLinesBy_mono h).filterMap _

/-- What a bridge has written comes out event by event. -/
theorem eventsOf_flatMap {events : List Json} (h : ∀ event ∈ events, Emittable event) :
    eventsOf (events.flatMap eventLine) = events := by
  have hunbroken (event : Json) (_ : event ∈ events) : ∀ c ∈ event.stringify,
      decide (c = newline) = false := by
    intro c hc
    have hvisible := visible_stringify event c hc
    refine decide_eq_false ?_
    rintro rfl
    exact absurd hvisible (by decide)
  have hread := filterMap_cutLinesBy_flatMap (decide_eq_true rfl) hunbroken
    fun event hevent => parseEvent_stringify (h event hevent)
  rw [List.map_id'] at hread
  rw [eventsOf, cutLines_eq_cutLinesBy]
  exact hread

variable {timeoutMs : JsString} {b b' : WhatsAppWebBackend} {action : Action}

/-- The outputs after a step: as they were, one more, or one that a chunk came to. -/
theorem outputs_step (hstep : b.step timeoutMs action = some b') :
    b'.outputs = b.outputs ∨ b'.outputs = b.outputs ++ [[]] ∨
      ∃ k chunk, action = .stdout k chunk ∧ b'.outputs = b.outputs.modify k (· ++ chunk) := by
  have of_log (b' : WhatsAppWebBackend) (hlog : b'.log = b.log) : b'.outputs = b.outputs :=
    congrArg Prod.fst hlog
  cases steps_of_step hstep with
  | connect spawned =>
    unfold connect
    split
    · exact .inl rfl
    · split
      · exact .inl rfl
      · exact .inr (.inl (List.map_append ..))
  | disconnect => exact .inl (of_log _ log_disconnect)
  | @stdout k _ chunk =>
    refine .inr (.inr ⟨k, chunk, rfl, ?_⟩)
    refine List.ext_getElem? fun j => ?_
    simp only [outputs, modifyChild, List.getElem?_map, List.getElem?_modify]
    cases b.children[j]? with
    | none => rfl
    | some child =>
      by_cases hj : k = j
      · simp [hj]
      · simp [hj]
  | dispatch hbatch hparse now => exact .inl (congrArg Prod.fst (log_dispatch _ now))
  | resume hi => exact .inl (of_log _ (log_resume ..))
  | exit | kill => exact .inl (of_log _ (log_modifyChild fun _ => rfl))
  | through | skip | cutShort | timeout | failed | finish | onInbound => exact .inl rfl
  | offInbound handler =>
    split
    · exact .inl rfl
    · exact .inl rfl

/-- The event that is dispatched next is one that a bridge has written. -/
theorem Sorted.mem_eventsOf (h : b.Sorted) {line : JsString} {lines : List JsString} {event : Json}
    (hbatch : b.batch = some (line :: lines)) (hparse : parseEvent line = some event) :
    ∃ (k : Nat) (output : JsString), b.outputs[k]? = some output ∧ event ∈ eventsOf output := by
  have hsome : b.batch.isSome = true := by rw [hbatch]; rfl
  obtain ⟨output, hlast⟩ :=
    Option.isSome_iff_exists.1 (List.getLast?_isSome.2 (h.batched hsome))
  have hpos := List.length_pos_iff.2 (h.batched hsome)
  rw [List.getLast?_eq_getElem?] at hlast
  refine ⟨b.outputs.length - 1, output, hlast, ?_⟩
  rw [← (h.newest _ output hlast (by omega)).1, hbatch]
  refine List.mem_append_right _ ?_
  exact List.mem_filterMap.2 ⟨line, List.mem_cons_self, hparse⟩

end WhatsAppWebBackend

/-! ### The commands of a call -/

/-- The id of a command. -/
def IpcCommand.msgId : IpcCommand → Option JsString
  | .send msgId _ _ => some msgId
  | .shutdown => none

/-- A command is the one that a call writes. -/
def SendCall.Writes (call : SendCall) (cmd : IpcCommand) : Prop :=
  ∃ msgId, call.msgId = some msgId ∧ cmd = .send msgId call.message.recipient call.message.text

/-- The client was asked for what a call sends. -/
def Asked.Serves (asked : Asked) (call : SendCall) : Prop :=
  ∃ msgId, call.msgId = some msgId ∧ asked.msgId = some (.string msgId) ∧
    asked.recipient = some (.string call.message.recipient) ∧
    asked.text = some (.string call.message.text)

namespace Sender

variable {ends : UInt16 → Bool} {connectTimeoutMs sendTimeoutMs : JsString} {s s' : Sender}
  {action : SendAction}

theorem handleSendAck_fields (ack : SendAck) : (s.handleSendAck ack).written = s.written ∧
    (s.handleSendAck ack).backend = s.backend := by
  unfold handleSendAck
  split
  · exact ⟨rfl, rfl⟩
  · split
    · exact ⟨rfl, rfl⟩
    · exact ⟨rfl, rfl⟩

theorem afterBackend_fields (b : WhatsAppWebBackend) (a : Action) (stdin : Bool) :
    (s.afterBackend b a stdin).written = s.written ++ shutdownCommand s.backend stdin a ∧
      (s.afterBackend b a stdin).backend = b := by
  unfold afterBackend
  dsimp only
  split
  · exact handleSendAck_fields _
  · split
    · exact ⟨rfl, rfl⟩
    · exact ⟨rfl, rfl⟩

theorem backend_step (hstep : s.step connectTimeoutMs sendTimeoutMs action = some s') :
    s'.backend = s.backend ∨ ∃ a stdin, action = .backend a stdin ∧
      s.backend.step connectTimeoutMs a = some s'.backend := by
  cases steps_of_step hstep with
  | backend hb stdin =>
    refine .inr ⟨_, stdin, rfl, ?_⟩
    rw [(afterBackend_fields ..).2]
    exact hb
  | send message stdin write =>
    refine .inl ?_
    unfold Sender.send
    split
    · split <;> rfl
    · rfl
  | sendTimeout => exact .inl rfl

/-- What a step writes: nothing, a `shutdown`, or the command of a new call. -/
theorem written_step (hstep : s.step connectTimeoutMs sendTimeoutMs action = some s') :
    s'.written = s.written ∨ (∃ k, s'.written = s.written ++ [(k, .shutdown)]) ∨
      ∃ k message stdin write, action = .send message stdin write ∧
        s'.written = s.written ++ [(k, .send s.nextMsgId message.recipient message.text)] ∧
        s'.sends = s.sends ++ [⟨message, some s.nextMsgId, none, false⟩] := by
  cases steps_of_step hstep with
  | @backend a b hb stdin =>
    rw [(afterBackend_fields ..).1]
    unfold shutdownCommand
    split
    · split
      · exact .inr (.inl ⟨_, rfl⟩)
      · exact .inl (List.append_nil _)
    · exact .inl (List.append_nil _)
  | send message stdin write =>
    unfold Sender.send
    split
    · split
      · exact .inr (.inr ⟨_, message, _, _, rfl, rfl, rfl⟩)
      · exact .inl rfl
    · exact .inl rfl
  | sendTimeout => exact .inl rfl

/-- The commands that were written are those of calls, one for each at most. -/
structure Commands (ends : UInt16 → Bool) (s : Sender) : Prop where
  owned : ∀ e ∈ s.written, e.2 = .shutdown ∨ ∃ call ∈ s.sends, call.Writes e.2
  unbroken : ∀ e ∈ s.written, e.2.Unbroken ends
  distinct : (s.written.filterMap (·.2.msgId)).Nodup

theorem commands_init : Commands ends {} where
  owned _ h := nomatch h
  unbroken _ h := nomatch h
  distinct := List.nodup_nil

theorem ascii_nextMsgId {c : UInt16} (hc : c ∈ s.nextMsgId) : c < 0x80 := by
  obtain hc | hc := List.mem_append.1 hc
  · exact ascii_of_all (s := js "out-") (by decide) hc
  · obtain ⟨hlow, hhigh⟩ : 0x30 ≤ c ∧ c ≤ 0x39 := by
      simpa using fun hnot => notMem_natText hnot _ hc
    exact UInt16.lt_of_le_of_lt hhigh (by decide)

/-- Every call stays, under its id and with its message. -/
theorem Sound.writes_step (h : s.Sound)
    (hstep : s.step connectTimeoutMs sendTimeoutMs action = some s') {cmd : IpcCommand}
    (hcall : ∃ call ∈ s.sends, call.Writes cmd) : ∃ call ∈ s'.sends, call.Writes cmd := by
  obtain ⟨call, hcall, msgId, hid, hcmd⟩ := hcall
  obtain ⟨i, hi⟩ := List.getElem?_of_mem hcall
  refine ⟨_, List.mem_of_getElem? (h.sends_step hstep hi), msgId, ?_⟩
  obtain hsame | ⟨f, hf, hchanged⟩ := @callAfter_eq s i sendTimeoutMs action call
  · rw [hsame]
    exact ⟨hid, hcmd⟩
  · rw [hchanged, hf.msgId, hf.message]
    exact ⟨hid, hcmd⟩

theorem commands_step (h : s.Commands ends) (hsound : s.Sound)
    (htext : ∀ message stdin write, action = .send message stdin write →
      ∀ c ∈ message.recipient ++ message.text, 0x80 ≤ c → ends c = false)
    (hstep : s.step connectTimeoutMs sendTimeoutMs action = some s') : s'.Commands ends := by
  have hold (e : Nat × IpcCommand) (he : e ∈ s.written) :
      e.2 = .shutdown ∨ ∃ call ∈ s'.sends, call.Writes e.2 :=
    (h.owned e he).imp_right (hsound.writes_step hstep)
  rcases written_step hstep with hw | ⟨k, hw⟩ | ⟨k, message, stdin, write, haction, hw, hsends⟩
  · constructor
    · rw [hw]
      exact hold
    · rw [hw]
      exact h.unbroken
    · rw [hw]
      exact h.distinct
  · constructor
    · rw [hw]
      intro e he
      obtain he | he := List.mem_append.1 he
      · exact hold e he
      · cases List.mem_singleton.1 he
        exact .inl rfl
    · rw [hw]
      intro e he
      obtain he | he := List.mem_append.1 he
      · exact h.unbroken e he
      · cases List.mem_singleton.1 he
        trivial
    · rw [hw, List.filterMap_append]
      simpa [IpcCommand.msgId] using h.distinct
  · constructor
    · rw [hw]
      intro e he
      obtain he | he := List.mem_append.1 he
      · exact hold e he
      · cases List.mem_singleton.1 he
        refine .inr ⟨⟨message, some s.nextMsgId, none, false⟩, ?_, s.nextMsgId, rfl, rfl⟩
        rw [hsends]
        simp
    · rw [hw]
      intro e he
      obtain he | he := List.mem_append.1 he
      · exact h.unbroken e he
      · cases List.mem_singleton.1 he
        intro c hc hbig
        rw [List.append_assoc] at hc
        obtain hc | hc := List.mem_append.1 hc
        · exact absurd (ascii_nextMsgId hc) (UInt16.not_lt.2 hbig)
        · exact htext message stdin write haction c hc hbig
    · rw [hw, List.filterMap_append, List.nodup_append]
      refine ⟨h.distinct, by simp [IpcCommand.msgId], fun msgId hmem msgId' hmem' heq => ?_⟩
      -- The id of a call is not the next one.
      obtain rfl : msgId' = s.nextMsgId := by simpa [IpcCommand.msgId] using hmem'
      subst heq
      obtain ⟨e, he, hid⟩ := List.mem_filterMap.1 hmem
      obtain hshut | ⟨call, hcall, msgId, hcallId, hcmd⟩ := h.owned e he
      · rw [hshut] at hid
        cases hid
      · rw [hcmd] at hid
        cases hid
        obtain ⟨i, hi⟩ := List.getElem?_of_mem hcall
        exact hsound.nextMsgId_new hi hcallId

/-- The commands that were written to a bridge. -/
def commandsTo (s : Sender) (k : Nat) : List IpcCommand :=
  (s.written.filter (·.1 = k)).map Prod.snd

theorem inputOf_eq (k : Nat) : s.inputOf k = (s.commandsTo k).flatMap formatCommand := by
  rw [inputOf, commandsTo, List.flatMap_map]

theorem mem_commandsTo {k : Nat} {cmd : IpcCommand} :
    cmd ∈ s.commandsTo k ↔ (k, cmd) ∈ s.written := by
  simp [commandsTo]

theorem commandsTo_prefix (hstep : s.step connectTimeoutMs sendTimeoutMs action = some s')
    (k : Nat) : s.commandsTo k <+: s'.commandsTo k := by
  have hgrows (more : List (Nat × IpcCommand)) (hw : s'.written = s.written ++ more) :
      s.commandsTo k <+: s'.commandsTo k := by
    rw [commandsTo, commandsTo, hw, List.filter_append, List.map_append]
    exact List.prefix_append _ _
  rcases written_step hstep with hw | ⟨j, hw⟩ | ⟨j, message, stdin, write, _, hw, _⟩
  · exact hgrows [] (hw.trans (List.append_nil _).symm)
  · exact hgrows _ hw
  · exact hgrows _ hw

end Sender

/-! ### A bridge -/

theorem emittable_ackEvent (msgId : JsString) (outcome : Except JsString (Option JsString)) :
    Emittable (ackEvent (some (.string msgId)) outcome) := by
  obtain message | _ | wamid := outcome
  · have hkeys : [js "event", js "msgId", js "success", js "error"].Nodup := by decide
    exact ⟨⟨hkeys, trivial, trivial, trivial, trivial, trivial⟩, js "send_ack", rfl⟩
  · have hkeys : [js "event", js "msgId", js "success"].Nodup := by decide
    exact ⟨⟨hkeys, trivial, trivial, trivial, trivial⟩, js "send_ack", rfl⟩
  · have hkeys : [js "event", js "msgId", js "success", js "wamid"].Nodup := by decide
    exact ⟨⟨hkeys, trivial, trivial, trivial, trivial, trivial⟩, js "send_ack", rfl⟩

/-- A call of the client, however it has settled. -/
def Asked.request (asked : Asked) : Asked := { asked with outcome := none }

/-- What a bridge has come to, by the commands that were written to it and what of its output has
come out. -/
structure Bridge.Sound (ends : UInt16 → Bool) (cmds : List IpcCommand) (output : JsString)
    (bridge : Bridge) : Prop where
  read : bridge.input <+: cmds.flatMap formatCommand
  buffer : bridge.buffer = (cutLinesBy ends bridge.input).2
  asked : bridge.asked.map Asked.request =
    (bridgeCommands ends bridge.input).filterMap BridgeCommand.asks
  emitted : ∀ event ∈ bridge.emitted, Emittable event ∧
    (textMember event (js "event") = js "send_ack" → ∃ asked ∈ bridge.asked, ∃ outcome,
      asked.outcome = some outcome ∧ event = ackEvent asked.msgId outcome)
  written : output <+: bridge.output

section
variable {ends : UInt16 → Bool} {cmds : List IpcCommand} {output : JsString} {bridge : Bridge}

theorem Bridge.sound_init (cmds : List IpcCommand) : Bridge.Sound ends cmds [] {} where
  read := List.nil_prefix
  buffer := rfl
  asked := rfl
  emitted _ h := nomatch h
  written := List.nil_prefix

/-- More is written to it, and more of its output comes out. -/
theorem Bridge.Sound.mono (h : bridge.Sound ends cmds output) {cmds' : List IpcCommand}
    (hcmds : cmds <+: cmds') {output' : JsString} (houtput : output' <+: bridge.output) :
    bridge.Sound ends cmds' output' where
  read := by
    obtain ⟨more, rfl⟩ := hcmds
    rw [List.flatMap_append]
    exact h.read.trans (List.prefix_append _ _)
  buffer := h.buffer
  asked := h.asked
  emitted := h.emitted
  written := houtput

theorem Bridge.Sound.reads (h : bridge.Sound ends cmds output) {chunk : JsString}
    (hread : bridge.input ++ chunk <+: cmds.flatMap formatCommand) :
    (bridge.read ends chunk).Sound ends cmds output where
  read := hread
  buffer := by
    show (cutLinesBy ends (bridge.buffer ++ chunk)).2 = (cutLinesBy ends (bridge.input ++ chunk)).2
    rw [h.buffer, cutLinesBy_append bridge.input]
  asked := by
    have hnew (asks : List BridgeCommand) :
        (asks.filterMap BridgeCommand.asks).map Asked.request =
          asks.filterMap BridgeCommand.asks := by
      rw [List.map_filterMap]
      congr 1
      funext cmd
      cases cmd <;> rfl
    show (bridge.asked ++ _).map Asked.request = _
    rw [List.map_append, h.asked, hnew, h.buffer, ← List.filterMap_append]
    show _ = (bridgeCommands ends (bridge.input ++ chunk)).filterMap BridgeCommand.asks
    rw [bridgeCommands, bridgeCommands, cutLinesBy_append bridge.input]
    simp only [List.filterMap_append]
  emitted event hevent := by
    obtain ⟨hemittable, hack⟩ := h.emitted event hevent
    refine ⟨hemittable, fun hkind => ?_⟩
    obtain ⟨asked, hasked, houtcome⟩ := hack hkind
    exact ⟨asked, List.mem_append_left _ hasked, houtcome⟩
  written := h.written

theorem Bridge.Sound.emits (h : bridge.Sound ends cmds output) {event : Json}
    (hevent : Emittable event) (hkind : textMember event (js "event") ≠ js "send_ack") :
    Bridge.Sound ends cmds output { bridge with emitted := bridge.emitted ++ [event] } where
  read := h.read
  buffer := h.buffer
  asked := h.asked
  emitted e he := by
    obtain he | he := List.mem_append.1 he
    · exact h.emitted e he
    · cases List.mem_singleton.1 he
      exact ⟨hevent, fun heq => absurd heq hkind⟩
  written := by
    refine h.written.trans ?_
    simp [Bridge.output]

/-- The client has been asked for the first of what was written. -/
theorem Bridge.Sound.asked_prefix (h : bridge.Sound ends cmds output) (hends : LineEnds ends)
    (hcmds : ∀ cmd ∈ cmds, cmd.Unbroken ends) : bridge.asked.map Asked.request <+:
      (cmds.map IpcCommand.received).filterMap BridgeCommand.asks := by
  rw [h.asked]
  exact (bridgeCommands_mono hends hcmds h.read).filterMap _

/-- A call of the client is for a command that was written. -/
theorem Bridge.Sound.of_asked (h : bridge.Sound ends cmds output) (hends : LineEnds ends)
    (hcmds : ∀ cmd ∈ cmds, cmd.Unbroken ends) {asked : Asked} (hasked : asked ∈ bridge.asked) :
    ∃ cmd ∈ cmds, BridgeCommand.asks cmd.received = some asked.request := by
  have hmem := (h.asked_prefix hends hcmds).subset (List.mem_map_of_mem hasked)
  obtain ⟨received, hreceived, hasks⟩ := List.mem_filterMap.1 hmem
  obtain ⟨cmd, hcmd, rfl⟩ := List.mem_map.1 hreceived
  exact ⟨cmd, hcmd, hasks⟩

/-- The ids of the client's calls are those of the commands, in order. -/
theorem Bridge.Sound.msgIds (h : bridge.Sound ends cmds output) (hends : LineEnds ends)
    (hcmds : ∀ cmd ∈ cmds, cmd.Unbroken ends) : bridge.asked.map Asked.msgId <+:
      (cmds.filterMap IpcCommand.msgId).map fun msgId => some (.string msgId) := by
  have hids : ((cmds.map IpcCommand.received).filterMap BridgeCommand.asks).map Asked.msgId =
      (cmds.filterMap IpcCommand.msgId).map fun msgId => some (.string msgId) := by
    rw [List.filterMap_map, List.map_filterMap, List.map_filterMap]
    congr 1
    funext cmd
    cases cmd <;> rfl
  have hprefix := (h.asked_prefix hends hcmds).map Asked.msgId
  rwa [List.map_map, hids] at hprefix

/-- What has settled stays when another call settles. -/
theorem mem_modify_settled {calls : List Asked} {j : Nat} {asked other : Asked}
    {outcome : Except JsString (Option JsString)} (hj : calls[j]? = some asked)
    (hpending : asked.outcome = none) (hother : other ∈ calls)
    (hsettled : other.outcome.isSome = true) :
    other ∈ calls.modify j fun asked => { asked with outcome := some outcome } := by
  obtain ⟨i, hi⟩ := List.getElem?_of_mem hother
  refine List.mem_of_getElem? (getElem?_modify_eq_some.2 ⟨other, hi, ?_⟩)
  rw [if_neg]
  rintro rfl
  cases hj.symm.trans hi
  rw [hpending] at hsettled
  cases hsettled

/-- The client settles a call, and the bridge acknowledges the command. -/
theorem Bridge.Sound.settles (h : bridge.Sound ends cmds output) (hends : LineEnds ends)
    (hcmds : ∀ cmd ∈ cmds, cmd.Unbroken ends) {j : Nat} {asked : Asked}
    (hj : bridge.asked[j]? = some asked) (hpending : asked.outcome = none)
    (outcome : Except JsString (Option JsString)) :
    Bridge.Sound ends cmds output { bridge with
      asked := bridge.asked.modify j fun asked => { asked with outcome := some outcome }
      emitted := bridge.emitted ++ [ackEvent asked.msgId outcome] } where
  read := h.read
  buffer := h.buffer
  asked := by
    have hsame : (bridge.asked.modify j fun asked => { asked with outcome := some outcome }).map
        Asked.request = bridge.asked.map Asked.request := map_modify_eq fun _ => rfl
    exact hsame.trans h.asked
  emitted event hevent := by
    obtain hevent | hevent := List.mem_append.1 hevent
    · obtain ⟨hemittable, hack⟩ := h.emitted event hevent
      refine ⟨hemittable, fun hkind => ?_⟩
      obtain ⟨other, hother, r, hr, heq⟩ := hack hkind
      exact ⟨other, mem_modify_settled hj hpending hother (by rw [hr]; rfl), r, hr, heq⟩
    · cases List.mem_singleton.1 hevent
      refine ⟨?_, fun _ => ⟨{ asked with outcome := some outcome },
        List.mem_of_getElem? (getElem?_modify_eq_some.2 ⟨asked, hj, ?_⟩), outcome, rfl, rfl⟩⟩
      · obtain ⟨cmd, hcmd, hasks⟩ := h.of_asked hends hcmds (List.mem_of_getElem? hj)
        obtain ⟨msgId, hid⟩ : ∃ msgId, asked.msgId = some (.string msgId) := by
          cases cmd with
          | shutdown => cases hasks
          | send msgId recipient text =>
            have hid := congrArg (Option.map Asked.msgId) hasks
            exact ⟨msgId, (Option.some.inj hid).symm⟩
        rw [hid]
        exact emittable_ackEvent msgId outcome
      · rw [if_pos rfl]
  written := by
    refine h.written.trans ?_
    simp [Bridge.output]

end

/-! ### Acknowledgements -/

theorem ofJson_ackEvent {msgId : Option Json} {outcome : Except JsString (Option JsString)}
    {ack : SendAck} (h : SendAck.ofJson (ackEvent msgId outcome) = some ack) :
    ack.msgId = optString msgId ∧ ∀ r, ack.result = some r → r.ok = true →
      ∃ wamid, outcome = .ok wamid ∧ r.wamid = wamid.map .string := by
  have hkeys : [js "event", js "msgId", js "success", js "error"].Nodup := by decide
  have hkeys' : [js "event", js "msgId", js "success", js "wamid"].Nodup := by decide
  unfold SendAck.ofJson at h
  obtain ⟨_, h⟩ := Option.ite_none_right_eq_some.1 h
  cases h
  cases outcome with
  | error message =>
    refine ⟨congrArg optString (get_ofOptional (js "msgId") hkeys), fun r hr hok => ?_⟩
    have hsuccess : (ackEvent msgId (.error message)).get (js "success") = some (.bool false) :=
      get_ofOptional (js "success") hkeys
    rw [SendAck.result, hsuccess] at hr
    obtain ⟨error, _, rfl⟩ := Option.map_eq_some_iff.1 hr
    cases hok
  | ok wamid =>
    refine ⟨congrArg optString (get_ofOptional (js "msgId") hkeys'), fun r hr _ => ?_⟩
    have hsuccess : (ackEvent msgId (.ok wamid)).get (js "success") = some (.bool true) :=
      get_ofOptional (js "success") hkeys'
    have hwamid : (ackEvent msgId (.ok wamid)).get (js "wamid") = wamid.map .string :=
      get_ofOptional (js "wamid") hkeys'
    rw [SendAck.result, hsuccess, hwamid] at hr
    cases hr
    exact ⟨wamid, rfl, rfl⟩

namespace Sender

variable {connectTimeoutMs sendTimeoutMs : JsString} {s s' : Sender} {action : SendAction}

/-- A call that a step adds is not answered `ok`. -/
theorem new_call (hstep : s.step connectTimeoutMs sendTimeoutMs action = some s') {i : Nat}
    {call : SendCall} (hnone : s.sends[i]? = none) (hi : s'.sends[i]? = some call)
    {r : WebSendResult} (hr : call.result = some r) : r.ok = false := by
  have hchanged {j : Nat} {f : SendCall → SendCall} (hi : (s.sends.modify j f)[i]? = some call) :
      False := by
    obtain ⟨old, hold, _⟩ := getElem?_modify_eq_some.1 hi
    cases hnone.symm.trans hold
  cases steps_of_step hstep with
  | backend hb stdin =>
    exfalso
    unfold afterBackend at hi
    dsimp only at hi
    split at hi
    · unfold handleSendAck at hi
      split at hi
      · cases hnone.symm.trans hi
      · split at hi
        · exact hchanged hi
        · cases hnone.symm.trans hi
    · split at hi
      · obtain ⟨old, hold, _⟩ := msgId_rejected hi
        cases hnone.symm.trans hold
      · cases hnone.symm.trans hi
  | send message stdin write =>
    unfold Sender.send at hi
    have hnew {new : SendCall} (hi : (s.sends ++ [new])[i]? = some call) : call = new := by
      obtain hold | ⟨_, rfl⟩ := getElem?_append_singleton.1 hi
      · cases hnone.symm.trans hold
      · rfl
    split at hi
    · split at hi
      · cases hnew hi
        cases hr
      · obtain ⟨old, hold, rfl⟩ := modifySend_eq_some.1 hi
        obtain hold | ⟨rfl, rfl⟩ := getElem?_append_singleton.1 hold
        · cases hnone.symm.trans hold
        · rw [if_pos rfl] at hr
          cases hr
          rfl
    · cases hnew hi
      cases hr
      rfl
  | sendTimeout => exact (hchanged hi).elim

/-- A call that is answered `ok` was before, or an acknowledgement has come for it. -/
theorem Sound.ok_step (h : s.Sound)
    (hstep : s.step connectTimeoutMs sendTimeoutMs action = some s') {i : Nat} {call : SendCall}
    (hi : s'.sends[i]? = some call) {r : WebSendResult} (hr : call.result = some r)
    (hok : r.ok = true) : s.sends[i]? = some call ∨
      ∃ a stdin ack msgId old, action = .backend a stdin ∧ nextAck s.backend a = some ack ∧
        ack.msgId = some msgId ∧ s.pending.get msgId = some i ∧ s.sends[i]? = some old ∧
        call = { old with result := some r } ∧ ack.result = some r := by
  cases hold : s.sends[i]? with
  | none =>
    rw [new_call hstep hold hi hr] at hok
    cases hok
  | some old =>
    have hcall := Option.some.inj (hi.symm.trans (h.sends_step hstep hold))
    have hfailed {failure : WebSendResult} (hno : failure.ok = false)
        (hsettled : call = old.settle failure) : call = old := by
      rw [hsettled] at hr ⊢
      unfold SendCall.settle at hr ⊢
      split at hr
      · cases hr
        rw [hno] at hok
        cases hok
      · rfl
    cases action with
    | backend a stdin =>
      simp only [callAfter] at hcall
      split at hcall
      · next ack hack =>
        split at hcall
        · next hwaits =>
          obtain ⟨msgId, hmsgId, hget⟩ := (h.waits_iff hold).2.1 hwaits.1
          have hnone := SendCall.result_of_waits hwaits.1
          unfold SendCall.acknowledge SendCall.settle at hcall
          cases hresult : ack.result with
          | none =>
            rw [hresult] at hcall
            rw [hcall, hnone] at hr
            cases hr
          | some result =>
            simp only [hresult, hnone] at hcall
            rw [hcall] at hr
            cases hr
            exact .inr ⟨a, stdin, ack, msgId, old, rfl, hack, hwaits.2.trans hmsgId, hget, rfl,
              hcall, hresult⟩
        · exact .inl (congrArg some hcall.symm)
      · split at hcall
        · exact .inl (congrArg some (hfailed rfl hcall).symm)
        · exact .inl (congrArg some hcall.symm)
    | send => exact .inl (congrArg some hcall.symm)
    | sendTimeout j =>
      simp only [callAfter] at hcall
      split at hcall
      · exact .inl (congrArg some (hfailed rfl hcall).symm)
      · exact .inl (congrArg some hcall.symm)

/-- The acknowledgement that comes next is an event that a bridge has written. -/
theorem nextAck_eq_some {b : WhatsAppWebBackend} {a : Action} {ack : SendAck}
    (hsorted : b.Sorted) (hack : nextAck b a = some ack) :
    ∃ (k : Nat) (output : JsString) (event : Json), b.outputs[k]? = some output ∧
      event ∈ WhatsAppWebBackend.eventsOf output ∧ SendAck.ofJson event = some ack := by
  unfold nextAck at hack
  split at hack
  · split at hack
    · rename_i line lines hbatch
      obtain ⟨event, hparse, hack⟩ := Option.bind_eq_some_iff.1 hack
      obtain ⟨k, output, hk, hmem⟩ := hsorted.mem_eventsOf hbatch hparse
      exact ⟨k, output, event, hk, hmem, hack⟩
    · cases hack
  · cases hack

end Sender

/-! ### The exchange -/

namespace Exchange

variable {ends : UInt16 → Bool} {connectTimeoutMs sendTimeoutMs : JsString} {x x' : Exchange}
  {action : ExchangeAction}

/-- The client has sent what a call sends, as the message with this id. -/
def Answered (bridges : List Bridge) (call : SendCall) (wamid : Option Json) : Prop :=
  ∃ bridge ∈ bridges, ∃ asked ∈ bridge.asked, asked.Serves call ∧
    ∃ sent, asked.outcome = some (.ok sent) ∧ wamid = sent.map .string

/-- What every step keeps. -/
structure Sound (ends : UInt16 → Bool) (x : Exchange) : Prop where
  sender : x.sender.Sound
  sorted : x.sender.backend.Sorted
  commands : x.sender.Commands ends
  spawned : x.bridges.length = x.sender.backend.outputs.length
  bridge : ∀ (k : Nat) (bridge : Bridge) (output : JsString), x.bridges[k]? = some bridge →
    x.sender.backend.outputs[k]? = some output →
    bridge.Sound ends (x.sender.commandsTo k) output
  answered : ∀ call ∈ x.sender.sends, ∀ r, call.result = some r → r.ok = true →
    Answered x.bridges call r.wamid

theorem sound_init : Sound ends {} where
  sender := Sender.sound_init
  sorted := WhatsAppWebBackend.sorted_init
  commands := Sender.commands_init
  spawned := rfl
  bridge _ _ _ h := nomatch h
  answered _ h := nomatch h

theorem Sound.unbroken (h : x.Sound ends) (k : Nat) :
    ∀ cmd ∈ x.sender.commandsTo k, cmd.Unbroken ends :=
  fun _ hcmd => h.commands.unbroken _ (Sender.mem_commandsTo.1 hcmd)

theorem Sound.exists_output (h : x.Sound ends) {k : Nat} {bridge : Bridge}
    (hk : x.bridges[k]? = some bridge) : ∃ output, x.sender.backend.outputs[k]? = some output ∧
      bridge.Sound ends (x.sender.commandsTo k) output := by
  have hlt := (List.getElem?_eq_some_iff.1 hk).1
  rw [h.spawned] at hlt
  exact ⟨_, List.getElem?_eq_getElem hlt, h.bridge k bridge _ hk (List.getElem?_eq_getElem hlt)⟩

/-- What the client was asked for is what a call sends. -/
theorem Sound.serves (h : x.Sound ends) (hends : LineEnds ends) {k : Nat} {bridge : Bridge}
    (hk : x.bridges[k]? = some bridge) {asked : Asked} (hasked : asked ∈ bridge.asked) :
    ∃ call ∈ x.sender.sends, asked.Serves call := by
  obtain ⟨output, _, hbridge⟩ := h.exists_output hk
  obtain ⟨cmd, hcmd, hasks⟩ := hbridge.of_asked hends (h.unbroken k) hasked
  obtain hshut | ⟨call, hcall, msgId, hid, hwrites⟩ :=
    h.commands.owned _ (Sender.mem_commandsTo.1 hcmd)
  · rw [show cmd = .shutdown from hshut] at hasks
    cases hasks
  · rw [show cmd = _ from hwrites] at hasks
    have hrequest := Option.some.inj hasks
    exact ⟨call, hcall, msgId, hid, (congrArg Asked.msgId hrequest).symm,
      (congrArg Asked.recipient hrequest).symm, (congrArg Asked.text hrequest).symm⟩

/-- One call of the client at most is for one id. -/
theorem Sound.asked_once (h : x.Sound ends) (hends : LineEnds ends) {k k' j j' : Nat}
    {bridge bridge' : Bridge} {asked asked' : Asked} (hk : x.bridges[k]? = some bridge)
    (hk' : x.bridges[k']? = some bridge') (hj : bridge.asked[j]? = some asked)
    (hj' : bridge'.asked[j']? = some asked') (hid : asked.msgId = asked'.msgId) :
    k = k' ∧ j = j' := by
  have hwritten {k j : Nat} {bridge : Bridge} {asked : Asked} (hk : x.bridges[k]? = some bridge)
      (hj : bridge.asked[j]? = some asked) : ∃ cmd msgId, (k, cmd) ∈ x.sender.written ∧
        cmd.msgId = some msgId ∧ asked.msgId = some (.string msgId) := by
    obtain ⟨output, _, hbridge⟩ := h.exists_output hk
    have hmem := (hbridge.msgIds hends (h.unbroken k)).subset
      (List.mem_map_of_mem (List.mem_of_getElem? hj))
    obtain ⟨msgId, hmsgId, hid⟩ := List.mem_map.1 hmem
    obtain ⟨cmd, hcmd, hcmdId⟩ := List.mem_filterMap.1 hmsgId
    exact ⟨cmd, msgId, Sender.mem_commandsTo.1 hcmd, hcmdId, hid.symm⟩
  obtain ⟨cmd, msgId, hcmd, hcmdId, haskedId⟩ := hwritten hk hj
  obtain ⟨cmd', msgId', hcmd', hcmdId', haskedId'⟩ := hwritten hk' hj'
  rw [haskedId, haskedId'] at hid
  cases hid
  cases eq_of_nodup_filterMap h.commands.distinct hcmd hcmd' hcmdId hcmdId'
  refine ⟨rfl, ?_⟩
  cases hk.symm.trans hk'
  obtain ⟨output, _, hbridge⟩ := h.exists_output hk
  have hnodup : ((x.sender.commandsTo k).filterMap IpcCommand.msgId).Nodup := by
    rw [Sender.commandsTo, List.filterMap_map]
    exact h.commands.distinct.sublist (List.filter_sublist.filterMap _)
  have hids : (bridge.asked.map Asked.msgId).Nodup := by
    refine List.Nodup.sublist (hbridge.msgIds hends (h.unbroken k)).sublist ?_
    exact List.pairwise_map.2 (hnodup.imp fun hne heq => hne (by cases heq; rfl))
  have hlt := (List.getElem?_eq_some_iff.1 hj).1
  refine (List.getElem?_inj (by rwa [List.length_map]) hids).1 ?_
  rw [List.getElem?_map, List.getElem?_map, hj, hj']
  exact congrArg some (haskedId.trans haskedId'.symm)

theorem Answered.mono {bridges bridges' : List Bridge} {call : SendCall} {wamid : Option Json}
    (h : Answered bridges call wamid)
    (hkeeps : ∀ bridge ∈ bridges, ∃ bridge' ∈ bridges', ∀ asked ∈ bridge.asked,
      asked.outcome.isSome = true → asked ∈ bridge'.asked) : Answered bridges' call wamid := by
  obtain ⟨bridge, hbridge, asked, hasked, hserves, sent, houtcome, hwamid⟩ := h
  obtain ⟨bridge', hbridge', hmem⟩ := hkeeps bridge hbridge
  have hsettled : asked.outcome.isSome = true := by
    rw [houtcome]
    rfl
  exact ⟨bridge', hbridge', asked, hmem asked hasked hsettled, hserves, sent, houtcome, hwamid⟩

/-- A bridge goes on. -/
theorem Sound.modifyBridge (h : x.Sound ends) {k : Nat} {bridge : Bridge} {f : Bridge → Bridge}
    (hk : x.bridges[k]? = some bridge)
    (hf : ∀ output, bridge.Sound ends (x.sender.commandsTo k) output →
      (f bridge).Sound ends (x.sender.commandsTo k) output)
    (hkeeps : ∀ asked ∈ bridge.asked, asked.outcome.isSome = true → asked ∈ (f bridge).asked) :
    (x.modifyBridge k f).Sound ends where
  sender := h.sender
  sorted := h.sorted
  commands := h.commands
  spawned := (List.length_modify ..).trans h.spawned
  bridge j bridge' output hj houtput := by
    obtain ⟨before, hbefore, rfl⟩ := getElem?_modify_eq_some.1 hj
    have hsound := h.bridge j before output hbefore houtput
    split
    · subst j
      cases hk.symm.trans hbefore
      exact hf output hsound
    · exact hsound
  answered call hcall r hr hok := by
    refine (h.answered call hcall r hr hok).mono fun before hbefore => ?_
    obtain ⟨j, hj⟩ := List.getElem?_of_mem hbefore
    refine ⟨_, List.mem_of_getElem? (getElem?_modify_eq_some.2 ⟨before, hj, rfl⟩), ?_⟩
    split
    · subst j
      cases hk.symm.trans hj
      exact hkeeps
    · exact fun _ hasked _ => hasked

/-- What an acknowledgement says is what the client has done. -/
theorem Sound.acknowledged (h : x.Sound ends) (hends : LineEnds ends) {a : Action} {ack : SendAck}
    {msgId : JsString} {i : Nat} {call : SendCall}
    (hack : Sender.nextAck x.sender.backend a = some ack) (hid : ack.msgId = some msgId)
    (hget : x.sender.pending.get msgId = some i) (hi : x.sender.sends[i]? = some call)
    {r : WebSendResult} (hr : ack.result = some r) (hok : r.ok = true) :
    Answered x.bridges call r.wamid := by
  obtain ⟨k, output, event, houtput, hevent, hofJson⟩ := Sender.nextAck_eq_some h.sorted hack
  have hlt := (List.getElem?_eq_some_iff.1 houtput).1
  rw [← h.spawned] at hlt
  have hk := List.getElem?_eq_getElem hlt
  have hbridge := h.bridge k _ output hk houtput
  have hmem := (WhatsAppWebBackend.eventsOf_prefix hbridge.written).subset hevent
  rw [Bridge.output, WhatsAppWebBackend.eventsOf_flatMap fun e he => (hbridge.emitted e he).1]
    at hmem
  have hkind : textMember event (js "event") = js "send_ack" :=
    (Option.ite_none_right_eq_some.1 hofJson).1
  obtain ⟨asked, hasked, outcome, houtcome, rfl⟩ := (hbridge.emitted event hmem).2 hkind
  obtain ⟨hackId, hsent⟩ := ofJson_ackEvent hofJson
  obtain ⟨sent, rfl, hwamid⟩ := hsent r hr hok
  refine ⟨_, List.getElem_mem hlt, asked, hasked, ?_, sent, houtcome, hwamid⟩
  -- The call that the client was asked for has the id of the one that waits.
  obtain ⟨call', hcall', hserves⟩ := h.serves hends hk hasked
  obtain ⟨i', hi'⟩ := List.getElem?_of_mem hcall'
  obtain ⟨message, hwaits⟩ := (h.sender.waits _ _).1 hget
  cases Option.some.inj (hi.symm.trans hwaits)
  have hsame : call'.msgId = some msgId := by
    obtain ⟨msgId', hcallId, haskedId, _⟩ := hserves
    rw [hackId, haskedId] at hid
    rw [hcallId]
    exact hid
  cases h.sender.distinct i i' _ call' msgId hi hi' rfl hsame
  cases hi.symm.trans hi'
  exact hserves

/-- What has come out of the bridges after a step is what they have written. -/
theorem Sound.outputs_step (h : x.Sound ends) {a : SendAction} {s : Sender}
    (hdelivers : x.Delivers a)
    (hstep : x.sender.step connectTimeoutMs sendTimeoutMs a = some s) :
    x.bridges.length ≤ s.backend.outputs.length ∧
      ∀ (k : Nat) (output : JsString), s.backend.outputs[k]? = some output →
        (∃ bridge, x.bridges[k]? = some bridge ∧ output <+: bridge.output) ∨
          x.bridges.length ≤ k ∧ output = [] := by
  have hold (k : Nat) (output : JsString) (hk : x.sender.backend.outputs[k]? = some output) :
      ∃ bridge, x.bridges[k]? = some bridge ∧ output <+: bridge.output := by
    have hlt := (List.getElem?_eq_some_iff.1 hk).1
    rw [← h.spawned] at hlt
    exact ⟨_, List.getElem?_eq_getElem hlt,
      (h.bridge k _ output (List.getElem?_eq_getElem hlt) hk).written⟩
  rw [h.spawned]
  obtain hsame | ⟨a, stdin, rfl, hb⟩ := Sender.backend_step hstep
  · rw [hsame]
    exact ⟨Nat.le_refl _, fun k output hk => .inl (hold k output hk)⟩
  · obtain hsame | hspawned | ⟨k, chunk, rfl, hchunk⟩ := WhatsAppWebBackend.outputs_step hb
    · rw [hsame]
      exact ⟨Nat.le_refl _, fun k output hk => .inl (hold k output hk)⟩
    · rw [hspawned]
      refine ⟨by simp, fun k output hk => ?_⟩
      obtain hk | ⟨rfl, rfl⟩ := getElem?_append_singleton.1 hk
      · exact .inl (hold k output hk)
      · exact .inr ⟨Nat.le_refl _, rfl⟩
    · rw [hchunk]
      refine ⟨by simp, fun j output hj => .inl ?_⟩
      obtain ⟨before, hbefore, rfl⟩ := getElem?_modify_eq_some.1 hj
      split
      · subst j
        obtain ⟨bridge, hbridge, child, hchild, hprefix⟩ := hdelivers
        refine ⟨bridge, hbridge, ?_⟩
        obtain ⟨child', hchild', rfl⟩ := getElem?_map_eq_some.1 hbefore
        cases hchild.symm.trans hchild'
        exact hprefix
      · exact hold j before hbefore

theorem Sound.sender_step (h : x.Sound ends) (hends : LineEnds ends) {a : SendAction} {s : Sender}
    (hC : x.Proper ends (.sender a)) (hdelivers : x.Delivers a)
    (hstep : x.sender.step connectTimeoutMs sendTimeoutMs a = some s) : Sound ends
      { sender := s
        bridges := x.bridges ++
          List.replicate (s.backend.children.length - x.bridges.length) {} } := by
  obtain ⟨hle, houtputs⟩ := h.outputs_step hdelivers hstep
  have hlength : s.backend.outputs.length = s.backend.children.length := List.length_map _
  have hsame : ∀ bridge ∈ x.bridges, ∃ bridge' ∈ x.bridges ++
      List.replicate (s.backend.children.length - x.bridges.length) ({} : Bridge),
      ∀ asked ∈ bridge.asked, asked.outcome.isSome = true → asked ∈ bridge'.asked :=
    fun bridge hbridge => ⟨bridge, List.mem_append_left _ hbridge, fun _ hasked _ => hasked⟩
  constructor
  · exact Sender.sound_step h.sender hstep
  · obtain hback | ⟨a, stdin, rfl, hb⟩ := Sender.backend_step hstep
    · exact hback ▸ h.sorted
    · exact WhatsAppWebBackend.sorted_step h.sorted hC hb
  · refine Sender.commands_step h.commands h.sender (fun message stdin write ha => ?_) hstep
    subst ha
    exact hC
  · rw [List.length_append, List.length_replicate, hlength]
    omega
  · intro k bridge output hk houtput
    rcases Nat.lt_or_ge k x.bridges.length with hlt | hge
    · rw [List.getElem?_append_left hlt] at hk
      obtain ⟨bridge', hk', hprefix⟩ | ⟨hge, _⟩ := houtputs k output houtput
      · cases hk.symm.trans hk'
        obtain ⟨before, _, hbridge⟩ := h.exists_output hk
        exact hbridge.mono (Sender.commandsTo_prefix hstep k) hprefix
      · omega
    · rw [List.getElem?_append_right hge] at hk
      cases List.eq_of_mem_replicate (List.mem_of_getElem? hk)
      obtain ⟨bridge', hk', _⟩ | ⟨_, rfl⟩ := houtputs k output houtput
      · have hlt := (List.getElem?_eq_some_iff.1 hk').1
        omega
      · exact Bridge.sound_init _
  · intro call hcall r hr hok
    obtain ⟨i, hi⟩ := List.getElem?_of_mem hcall
    obtain hi | ⟨a, stdin, ack, msgId, old, rfl, hack, hid, hget, hold, rfl, hresult⟩ :=
      h.sender.ok_step hstep hi hr hok
    · exact (h.answered call (List.mem_of_getElem? hi) r hr hok).mono hsame
    · exact (h.acknowledged hends hack hid hget hold hresult hok).mono hsame

theorem sound_step (h : x.Sound ends) (hends : LineEnds ends) (hC : x.Proper ends action)
    (hstep : x.step ends connectTimeoutMs sendTimeoutMs action = some x') : x'.Sound ends := by
  cases action with
  | sender a =>
    obtain ⟨hdelivers, hstep⟩ := Option.ite_none_right_eq_some.1 hstep
    obtain ⟨s, hs, hstep⟩ := Option.bind_eq_some_iff.1 hstep
    cases hstep
    exact h.sender_step hends hC hdelivers hs
  | bridgeReads k chunk =>
    obtain ⟨bridge, hk, hstep⟩ := Option.bind_eq_some_iff.1 hstep
    obtain ⟨hread, hstep⟩ := Option.ite_none_right_eq_some.1 hstep
    cases hstep
    rw [Sender.inputOf_eq] at hread
    exact h.modifyBridge hk (fun output hbridge => hbridge.reads hread)
      fun asked hasked _ => List.mem_append_left _ hasked
  | clientSettles k j outcome =>
    obtain ⟨bridge, hk, hstep⟩ := Option.bind_eq_some_iff.1 hstep
    obtain ⟨asked, hj, hstep⟩ := Option.bind_eq_some_iff.1 hstep
    obtain ⟨hpending, hstep⟩ := Option.ite_none_right_eq_some.1 hstep
    cases hstep
    rw [Option.isNone_iff_eq_none] at hpending
    exact h.modifyBridge hk
      (fun output hbridge => hbridge.settles hends (h.unbroken k) hj hpending outcome)
      fun other => mem_modify_settled hj hpending
  | emits k event =>
    obtain ⟨bridge, hk, hstep⟩ := Option.bind_eq_some_iff.1 hstep
    cases hstep
    obtain ⟨hwritable, kind, hmem, hkind⟩ := hC
    have hget : event.get (js "event") = some (.string kind) := optString_eq_some.1 hmem
    refine h.modifyBridge hk (fun output hbridge => ?_) fun asked hasked _ => hasked
    refine hbridge.emits ⟨hwritable, kind, hget⟩ ?_
    rw [textMember, hget]
    exact hkind

/-- While sessions are kept apart: a call that is answered `ok` is one that the client has sent,
under the id it is answered with; the client is asked for nothing but what a call sends, and for no
call more than once. -/
theorem exchange_faithful (ends : UInt16 → Bool) (hends : LineEnds ends)
    (connectTimeoutMs sendTimeoutMs : JsString) (as : List ExchangeAction) (x : Exchange)
    (hrun : run (step ends connectTimeoutMs sendTimeoutMs) {} as = some x)
    (hproper : Meets (step ends connectTimeoutMs sendTimeoutMs) (Proper ends) {} as) :
    (∀ call ∈ x.sender.sends, ∀ r, call.result = some r → r.ok = true →
      ∃ bridge ∈ x.bridges, ∃ asked ∈ bridge.asked, asked.Serves call ∧
        ∃ sent, asked.outcome = some (.ok sent) ∧ r.wamid = sent.map .string) ∧
    (∀ bridge ∈ x.bridges, ∀ asked ∈ bridge.asked, ∃ call ∈ x.sender.sends, asked.Serves call) ∧
    ∀ (k k' j j' : Nat) (bridge bridge' : Bridge) (asked asked' : Asked),
      x.bridges[k]? = some bridge → x.bridges[k']? = some bridge' →
      bridge.asked[j]? = some asked → bridge'.asked[j']? = some asked' →
      asked.msgId = asked'.msgId → k = k' ∧ j = j' := by
  have h : x.Sound ends := invariant_of_meets
    (fun _ _ _ h hC hstep => sound_step h hends hC hstep) sound_init hproper hrun
  refine ⟨h.answered, fun bridge hbridge asked hasked => ?_, fun k k' j j' bridge bridge' => ?_⟩
  · obtain ⟨k, hk⟩ := List.getElem?_of_mem hbridge
    exact h.serves hends hk hasked
  · intro asked asked' hk hk' hj hj' hid
    exact h.asked_once hends hk hk' hj hj' hid

/-- The units at which the runtime's `readline` ends a line. -/
def readlineEnds (c : UInt16) : Bool := [0x0A, 0x0D, 0x2028, 0x2029].contains c

theorem lineEnds_readlineEnds : LineEnds readlineEnds where
  newline := by decide
  ascii c hc hlt := by
    have hmem : c ∈ [(0x0A : UInt16), 0x0D, 0x2028, 0x2029] := List.contains_iff_mem.1 hc
    simp only [List.mem_cons, List.not_mem_nil, or_false] at hmem
    rcases hmem with rfl | rfl | rfl | rfl
    · decide
    · decide
    · exact absurd hlt (by decide)
    · exact absurd hlt (by decide)

/-- The command of the first call, in two chunks. -/
def firstCommand : JsString × JsString :=
  (formatCommand (.send (js "out-1") (js "1") (js "hi"))).splitAt 10

/-- The backend connects and sends; the bridge reads the command and asks the client, which sends
it; the acknowledgement comes back. -/
def roundTrip : List ExchangeAction :=
  [.sender (.backend (.connect (.ok ())) true),
    .emits 0 (.object [(js "event", .string (js "ready")), (js "botPhone", .string (js "1"))])] ++
  (WhatsAppWebBackend.readied.map fun a => .sender (.backend a true)) ++
  [.sender (.send ⟨js "1", false, js "hi"⟩ true (.ok ())), .bridgeReads 0 firstCommand.1,
    .bridgeReads 0 firstCommand.2, .clientSettles 0 0 (.ok (some (js "w"))),
    .sender (.backend (.stdout 0 (eventLine (ackEvent (some (.string (js "out-1")))
      (.ok (some (js "w")))))) true),
    .sender (.backend (.dispatch 0) true)]

theorem exchange_faithful_roundTrip : ∃ x,
    run (step readlineEnds (js "120000") (js "30000")) {} roundTrip = some x ∧
      ∀ bridge ∈ x.bridges, ∀ asked ∈ bridge.asked, ∃ call ∈ x.sender.sends,
        asked.Serves call := by
  have hsome : (run (step readlineEnds (js "120000") (js "30000")) {} roundTrip).isSome = true := by
    decide +kernel
  obtain ⟨x, hrun⟩ := Option.isSome_iff_exists.1 hsome
  have hproper : Meets (step readlineEnds (js "120000") (js "30000")) (Proper readlineEnds) {}
      roundTrip := by
    decide +kernel
  exact ⟨x, hrun, (exchange_faithful readlineEnds lineEnds_readlineEnds (js "120000") (js "30000")
    roundTrip x hrun hproper).2.1⟩

example : (run (step readlineEnds (js "120000") (js "30000")) {} roundTrip).map
    (fun x => x.sender.sends.map fun call => call.result.map fun r => (r.ok, optString r.wamid)) =
      some [some (true, some (js "w"))] := by
  decide +kernel

end Exchange

end TheokitGateways.WhatsApp.Web
