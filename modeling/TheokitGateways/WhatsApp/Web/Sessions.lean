import TheokitGateways.WhatsApp.Web.Bridges

/-!
# The lines of a session

One buffer holds what has not ended of the lines of every bridge, and a bridge
that has ended is still listened to. So the lines of a session are those of its
own bridge when the one before it left no line unfinished and writes no more.
-/

namespace TheokitGateways.WhatsApp.Web
open Js Gateway Records Transition

namespace WhatsAppWebBackend

/-- What was dispatched while a bridge was the newest. -/
def sessionEvents (b : WhatsAppWebBackend) (k : Nat) : List Json :=
  (b.dispatched.filter (·.session = k)).map (·.event)

/-- The events of the lines that have ended. -/
def eventsOf (output : JsString) : List Json := (cutLines output).1.filterMap parseEvent

/-- When no line waits, the events of each session are those its own bridge has written. -/
def Isolated (b : WhatsAppWebBackend) : Prop :=
  b.batch = none → ∀ (k : Nat) (child : Child), b.children[k]? = some child →
    b.sessionEvents k = eventsOf child.output

/-- A bridge is spawned when no line waits or is unfinished, only the newest one writes, and no
line is lost to an exception. -/
def Separate (b : WhatsAppWebBackend) : Action → Prop
  | .connect (.ok ()) => b.connected = true ∨ (b.buffer = [] ∧ ∀ lines ∈ b.batch, lines = [])
  | .stdout k _ => k + 1 = b.children.length
  | .cutShort => ∀ lines ∈ b.batch, lines = []
  | _ => True

instance (b : WhatsAppWebBackend) : ∀ action, Decidable (b.Separate action)
  | .connect (.ok ()) => inferInstanceAs (Decidable (_ ∨ (_ ∧ ∀ lines ∈ b.batch, lines = [])))
  | .stdout .. => inferInstanceAs (Decidable (_ = _))
  | .cutShort => inferInstanceAs (Decidable (∀ lines ∈ b.batch, lines = []))
  | .connect (.error _) | .disconnect | .dispatch _ | .timeout _ | .resume _ | .exit _ | .kill _
  | .finish _ | .onInbound _ | .offInbound _ => inferInstanceAs (Decidable True)

def outputs (b : WhatsAppWebBackend) : List JsString := b.children.map (·.output)

/-- What every step keeps under `Separate`. -/
structure Sorted (b : WhatsAppWebBackend) : Prop where
  past : ∀ (k : Nat) (output : JsString), b.outputs[k]? = some output →
    k + 1 < b.outputs.length → b.sessionEvents k = eventsOf output
  newest : ∀ (k : Nat) (output : JsString), b.outputs[k]? = some output →
    k + 1 = b.outputs.length →
    b.sessionEvents k ++ (b.batch.getD []).filterMap parseEvent = eventsOf output ∧
      b.buffer = (cutLines output).2
  bounded : ∀ d ∈ b.dispatched, d.session < b.outputs.length
  batched : b.batch.isSome = true → b.outputs ≠ []

variable {timeoutMs : JsString} {b b' : WhatsAppWebBackend} {action : Action}

theorem Sorted.isolated (h : b.Sorted) : b.Isolated := by
  intro hbatch k child hchild
  have houtput : b.outputs[k]? = some child.output := getElem?_map_eq_some.2 ⟨child, hchild, rfl⟩
  have hlt := (List.getElem?_eq_some_iff.1 houtput).1
  rcases Nat.lt_or_eq_of_le (Nat.succ_le_of_lt hlt) with hpast | hnewest
  · exact h.past k _ houtput hpast
  · have hevents := (h.newest k _ houtput hnewest).1
    rw [hbatch] at hevents
    simpa using hevents

/-! ## Steps that read no line -/

/-- What `Sorted` is about. -/
def log (b : WhatsAppWebBackend) :
    List JsString × Option (List JsString) × LineBuffer × List Dispatch :=
  (b.outputs, b.batch, b.buffer, b.dispatched)

theorem Sorted.of_log (h : b.Sorted) (hlog : b'.log = b.log) : b'.Sorted := by
  simp only [log, Prod.mk.injEq] at hlog
  obtain ⟨houtputs, hbatch, hbuffer, hdispatched⟩ := hlog
  have hevents (k : Nat) : b'.sessionEvents k = b.sessionEvents k := by
    rw [sessionEvents, sessionEvents, hdispatched]
  constructor
  · simp only [houtputs, hevents]
    exact h.past
  · simp only [houtputs, hevents, hbatch, hbuffer]
    exact h.newest
  · rw [houtputs, hdispatched]
    exact h.bounded
  · rw [houtputs, hbatch]
    exact h.batched

theorem log_modifyChild {k : Nat} {f : Child → Child}
    (hf : ∀ child, (f child).output = child.output) : (b.modifyChild k f).log = b.log := by
  have houtputs : (b.modifyChild k f).outputs = b.outputs := map_modify_eq hf
  rw [log, houtputs]
  rfl

theorem log_terminateBridge (k : Nat) : (b.terminateBridge k).1.log = b.log := by
  unfold terminateBridge
  split
  · split
    · rfl
    · exact log_modifyChild fun _ => rfl
  · rfl

theorem log_disconnect : b.disconnect.log = b.log := by
  unfold disconnect
  split
  · exact log_terminateBridge _
  · rfl

theorem log_resume (i : Nat) (outcome : Except JsAny JsString) :
    (b.resume i outcome).log = b.log := by
  unfold resume
  split
  · rfl
  · split
    · exact log_terminateBridge _
    · rfl

/-- Dispatching an event adds it to those of the newest bridge. -/
theorem log_dispatch (event : Json) (now : JsNumber) : (b.dispatch event now).log =
    (b.outputs, b.batch, b.buffer, b.dispatched ++ [⟨b.children.length - 1, event⟩]) := by
  unfold dispatch
  dsimp only
  split
  · rfl
  · unfold handleMessage
    split <;> rfl
  · rfl
  · rfl

/-! ## Steps that read lines -/

theorem sorted_spawn (h : b.Sorted) (hbuffer : b.buffer = [])
    (hbatch : ∀ lines ∈ b.batch, lines = []) (houtputs : b'.outputs = b.outputs ++ [[]])
    (hsame : (b'.batch, b'.buffer, b'.dispatched) = (b.batch, b.buffer, b.dispatched)) :
    b'.Sorted := by
  simp only [Prod.mk.injEq] at hsame
  obtain ⟨hbatch', hbuffer', hdispatched⟩ := hsame
  have hevents (k : Nat) : b'.sessionEvents k = b.sessionEvents k := by
    rw [sessionEvents, sessionEvents, hdispatched]
  have hwaiting : (b.batch.getD []).filterMap parseEvent = [] := by
    cases hlines : b.batch with
    | none => rfl
    | some lines =>
      rw [hbatch lines hlines]
      rfl
  have hlength : b'.outputs.length = b.outputs.length + 1 := by
    rw [houtputs, List.length_append]
    rfl
  constructor
  · intro k output hk hlt
    rw [houtputs] at hk
    rw [hevents]
    obtain hk | ⟨rfl, _⟩ := getElem?_append_singleton.1 hk
    · rcases Nat.lt_or_eq_of_le (Nat.succ_le_of_lt (List.getElem?_eq_some_iff.1 hk).1) with
        hpast | hnewest
      · exact h.past k output hk hpast
      · have hlast := (h.newest k output hk hnewest).1
        rwa [hwaiting, List.append_nil] at hlast
    · omega
  · intro k output hk hnewest
    rw [houtputs] at hk
    obtain hk | ⟨rfl, rfl⟩ := getElem?_append_singleton.1 hk
    · have hlt := (List.getElem?_eq_some_iff.1 hk).1
      omega
    · have hnone : b.sessionEvents b.outputs.length = [] := by
        rw [sessionEvents, List.filter_eq_nil_iff.2 fun d hd => ?_, List.map_nil]
        have hlt := h.bounded d hd
        simp only [decide_eq_true_eq]
        omega
      rw [hevents, hnone, hbatch', hwaiting, hbuffer', hbuffer]
      exact ⟨rfl, rfl⟩
  · intro d hd
    rw [hdispatched] at hd
    have hlt := h.bounded d hd
    omega
  · intro _
    rw [houtputs]
    simp

theorem sorted_stdout (h : b.Sorted) (hidle : b.batch = none) {k : Nat} (chunk : JsString)
    (hk : k + 1 = b.children.length) : Sorted
      { b.modifyChild k fun child => { child with output := child.output ++ chunk } with
        buffer := (b.buffer.push chunk).2
        batch := some (b.buffer.push chunk).1 } := by
  have hlength : (b.children.modify k fun child =>
      { child with output := child.output ++ chunk }).length = b.children.length :=
    List.length_modify ..
  have hchild {j : Nat} {output : JsString}
      (hj : ((b.children.modify k fun child =>
        { child with output := child.output ++ chunk }).map (·.output))[j]? = some output) :
      ∃ before, b.outputs[j]? = some before ∧
        output = if k = j then before ++ chunk else before := by
    obtain ⟨child, hchild, rfl⟩ := getElem?_map_eq_some.1 hj
    obtain ⟨child', hchild', rfl⟩ := getElem?_modify_eq_some.1 hchild
    refine ⟨child'.output, getElem?_map_eq_some.2 ⟨child', hchild', rfl⟩, ?_⟩
    split <;> rfl
  constructor
  · intro j output hj hlt
    obtain ⟨before, hbefore, rfl⟩ := hchild hj
    have hlt' : j + 1 < b.children.length := by
      simpa [outputs, modifyChild, hlength] using hlt
    rw [if_neg (by omega)]
    exact h.past j before hbefore (by simpa [outputs] using hlt')
  · intro j output hj hnewest
    obtain ⟨before, hbefore, rfl⟩ := hchild hj
    have hnewest' : j + 1 = b.children.length := by
      simpa [outputs, modifyChild, hlength] using hnewest
    obtain ⟨hevents, hbuffer⟩ := h.newest j before hbefore (by simpa [outputs] using hnewest')
    rw [if_pos (by omega)]
    rw [hidle] at hevents
    have hevents : b.sessionEvents j = eventsOf before := by simpa using hevents
    have hlines := cutLines_append before chunk
    simp only [LineBuffer.push, hbuffer]
    refine ⟨?_, by rw [hlines]⟩
    show b.sessionEvents j ++ _ = _
    rw [hevents, eventsOf, eventsOf, hlines, List.filterMap_append]
    rfl
  · intro d hd
    have hlt := h.bounded d hd
    simpa [outputs, modifyChild, hlength] using hlt
  · intro _ hnil
    have hnone := congrArg List.length hnil
    simp only [outputs, modifyChild, List.length_map, hlength, List.length_nil] at hnone
    omega

/-- A line is taken from those that wait, and its event goes to the newest bridge. -/
theorem sorted_line (h : b.Sorted) {line : JsString} {lines : List JsString}
    (hbatch : b.batch = some (line :: lines))
    (hlog : b'.log = (b.outputs, some lines, b.buffer, b.dispatched ++
      (parseEvent line).toList.map fun event => ⟨b.outputs.length - 1, event⟩)) : b'.Sorted := by
  simp only [log, Prod.mk.injEq] at hlog
  obtain ⟨houtputs, hbatch', hbuffer, hdispatched⟩ := hlog
  have hpos : 0 < b.outputs.length := List.length_pos_iff.2 (h.batched (by rw [hbatch]; rfl))
  have hadded (k : Nat) : b'.sessionEvents k =
      b.sessionEvents k ++ if k + 1 = b.outputs.length then (parseEvent line).toList else [] := by
    rw [sessionEvents, sessionEvents, hdispatched, List.filter_append, List.map_append]
    congr 1
    cases parseEvent line with
    | none => simp
    | some event => grind
  constructor
  · intro k output hk hlt
    rw [houtputs] at hk hlt
    rw [hadded, if_neg (by omega), List.append_nil]
    exact h.past k output hk hlt
  · intro k output hk hnewest
    rw [houtputs] at hk hnewest
    obtain ⟨hevents, hbuffer'⟩ := h.newest k output hk hnewest
    refine ⟨?_, hbuffer.trans hbuffer'⟩
    rw [hadded, if_pos hnewest, hbatch', ← hevents, hbatch]
    cases hparse : parseEvent line <;> simp [hparse]
  · intro d hd
    rw [hdispatched] at hd
    rw [houtputs]
    obtain hd | hd := List.mem_append.1 hd
    · exact h.bounded d hd
    · obtain ⟨event, _, rfl⟩ := List.mem_map.1 hd
      show b.outputs.length - 1 < b.outputs.length
      omega
  · intro _
    rw [houtputs]
    exact List.length_pos_iff.1 hpos

/-- The lines that waited are through, or held no event. -/
theorem sorted_through (h : b.Sorted) (hbatch : ∀ lines ∈ b.batch, lines = []) :
    Sorted { b with batch := none } := by
  refine ⟨h.past, fun k output hk hnewest => ?_, h.bounded, fun hsome => nomatch hsome⟩
  obtain ⟨hevents, hbuffer⟩ := h.newest k output hk hnewest
  refine ⟨?_, hbuffer⟩
  cases hlines : b.batch with
  | none =>
    rw [hlines] at hevents
    exact hevents
  | some lines =>
    rw [hlines, hbatch lines hlines] at hevents
    exact hevents

theorem sorted_init : Sorted {} where
  past _ _ h := nomatch h
  newest _ _ h := nomatch h
  bounded _ h := nomatch h
  batched h := nomatch h

theorem sorted_connect (h : b.Sorted) {spawned : Except JsAny Unit}
    (hC : b.Separate (.connect spawned)) : (b.connect spawned).Sorted := by
  unfold connect
  split
  · exact h.of_log rfl
  · rename_i hdown
    split
    · exact h.of_log rfl
    · obtain ⟨hbuffer, hbatch⟩ := hC.resolve_left hdown
      exact sorted_spawn h hbuffer hbatch (List.map_append ..) rfl

theorem sorted_step (h : b.Sorted) (hC : b.Separate action)
    (hstep : b.step timeoutMs action = some b') : b'.Sorted := by
  cases steps_of_step hstep with
  | connect spawned => exact sorted_connect h hC
  | disconnect => exact h.of_log log_disconnect
  | stdout hidle chunk => exact sorted_stdout h hidle chunk hC
  | through hbatch now =>
    refine sorted_through h fun lines hlines => ?_
    exact Option.some.inj (hlines.symm.trans hbatch)
  | dispatch hbatch hparse now =>
    refine sorted_line h hbatch ?_
    have hlength : b.outputs.length = b.children.length := List.length_map _
    rw [log_dispatch, hparse, hlength]
    rfl
  | skip hbatch hparse now =>
    refine sorted_line h hbatch ?_
    rw [hparse]
    simp [log, outputs]
  | cutShort => exact sorted_through h hC
  | resume hi => exact h.of_log (log_resume ..)
  | exit | kill => exact h.of_log (log_modifyChild fun _ => rfl)
  | timeout | failed | finish | onInbound => exact h.of_log rfl
  | offInbound handler =>
    split
    · exact h.of_log rfl
    · exact h

/-- In a run in which sessions are kept apart, the events of each are those of the lines of its
own bridge. -/
theorem isolated_of_separate (timeoutMs : JsString) (as : List Action) (b : WhatsAppWebBackend)
    (hrun : run (step timeoutMs) {} as = some b)
    (hseparate : Meets (step timeoutMs) Separate {} as) : b.Isolated :=
  (invariant_of_meets (fun _ _ _ h hC hstep => sorted_step h hC hstep) sorted_init hseparate
    hrun).isolated

/-- The line of a message that comes in. -/
def messageLine : JsString := (Json.object [(js "event", .string (js "message")),
  (js "msgId", .string (js "m1")), (js "from", .string (js "+15550100")),
  (js "text", .string (js "hi"))]).stringify ++ js "\n"

/-- Two sessions, each with lines that are cut across chunks. -/
def cutAcross : List Action :=
  [.connect (.ok ()), .stdout 0 (readyLine.take 9), .dispatch 0,
    .stdout 0 (readyLine.drop 9 ++ messageLine.take 12), .dispatch 0, .dispatch 0, .resume 0,
    .stdout 0 (messageLine.drop 12), .dispatch 0, .dispatch 0, .disconnect, .exit 0, .finish 1,
    .connect (.ok ()), .stdout 1 (readyLine.take 20), .dispatch 0,
    .stdout 1 (readyLine.drop 20 ++ messageLine), .dispatch 0, .dispatch 0, .dispatch 0]

theorem isolated_of_separate_readied : ∃ b, run (step (js "120000")) {} cutAcross = some b ∧
    (b.sessionEvents 0).length = 2 ∧ (b.sessionEvents 1).length = 2 ∧ b.Isolated := by
  have hany : (run (step (js "120000")) {} cutAcross).any (fun b =>
      (b.sessionEvents 0).length == 2 && (b.sessionEvents 1).length == 2) = true := by
    decide +kernel
  obtain ⟨b, hrun, hb⟩ := (Option.any_eq_true _ _).1 hany
  simp only [Bool.and_eq_true, beq_iff_eq] at hb
  exact ⟨b, hrun, hb.1, hb.2,
    isolated_of_separate (js "120000") _ b hrun (by decide +kernel)⟩

/-- A bridge dies in the middle of a line, and the next one is ready. -/
def brokenLine : List Action :=
  [.connect (.ok ()), .stdout 0 (js "\"event\":"), .dispatch 0, .exit 0, .timeout 0, .resume 0,
    .finish 0, .connect (.ok ()), .stdout 1 readyLine, .dispatch 0, .dispatch 0]

/-- What a bridge left unfinished costs the next one its first line. -/
theorem broken_line_costs_ready : ¬ ∀ (timeoutMs : JsString) (as : List Action)
    (b : WhatsAppWebBackend), run (step timeoutMs) {} as = some b → b.Isolated := by
  intro h
  have hany : (run (step (js "120000")) {} brokenLine).any (fun b => b.batch.isNone &&
      (b.sessionEvents 1).isEmpty && b.children[1]?.any fun child =>
        !(eventsOf child.output).isEmpty) = true := by
    decide +kernel
  obtain ⟨b, hrun, hb⟩ := (Option.any_eq_true _ _).1 hany
  simp only [Bool.and_eq_true, Option.isNone_iff_eq_none, List.isEmpty_iff] at hb
  obtain ⟨⟨hbatch, hnone⟩, hchild⟩ := hb
  obtain ⟨child, hchild, hevents⟩ := (Option.any_eq_true _ _).1 hchild
  rw [← h (js "120000") _ b hrun hbatch 1 child hchild, hnone] at hevents
  cases hevents

end WhatsAppWebBackend
end TheokitGateways.WhatsApp.Web
