import TheokitGateways.Gateway.HeldClient
import TheokitGateways.Line.Adapter

/-!
# LINE: sends while connected

`connect` stores the client before `getBotInfo` has judged its credential, and
`sendMessage` looks at the client that is stored. `Sequential` is the adapter whose
`connect`s and `disconnect`s are called one after another, with how they settled;
everything else may go on between them. A send goes through without a connection
only after a `getBotInfo` that failed.
-/

namespace TheokitGateways.Line
open Js Gateway Transition

/-- How a call settled. -/
inductive SettledCall where
  | connected (answer : Bool)
  | disconnected
  deriving DecidableEq

structure Sequential where
  line : LineState
  /-- The calls that have settled, the latest last. -/
  settled : List SettledCall := []

/-- The call that a step settles, if it settles one. -/
def settles (w : LineState) : Action → Option SettledCall
  | .connect => if w.adapter.connected then some (.connected true) else none
  | .clientMade made => if made then none else some (.connected false)
  | .botInfo answered => some (.connected answered)
  | .disconnect => some .disconnected
  | _ => none

def isCall : Action → Bool
  | .connect | .disconnect => true
  | _ => false

/-- What the adapter keeps of its connection. -/
def connection (w : LineState) : Nat × Nat × Bool × Bool :=
  (w.connecting, w.checking, w.adapter.client, w.adapter.connected)

/-- How many times the platform was called to send a part. -/
def platformCalls (w : LineState) : Nat :=
  w.trace.countP fun | .replied .. | .pushed .. => true | _ => false

def notConnected : SendResult :=
  .failure (js "not_connected") (js "LineAdapter.connect() not called")

section
variable (segment : JsString → List JsString)

namespace Sequential

/-- A `connect` is pending. -/
def isPending (s : Sequential) : Bool := s.line.connecting + s.line.checking ≠ 0

/-- The latest `connect` succeeded, and no `disconnect` followed. -/
def IsUp (s : Sequential) : Prop := s.settled.getLast? = some (.connected true)

instance (s : Sequential) : Decidable s.IsUp := inferInstanceAs (Decidable (_ = _))

/-- A `connect` or a `disconnect` waits until the one before it has settled. -/
def step (s : Sequential) (a : Action) : Option Sequential :=
  if isCall a && s.isPending then none
  else (s.line.step segment a).map fun line => ⟨line, s.settled ++ (settles s.line a).toList⟩

def new (opts : LineAdapterOptions) : Sequential := { line := .new opts }

/-- Once every call has settled, a send calls the platform only while the adapter is connected,
and answers `not_connected` otherwise. -/
def SendsWhileUp (s : Sequential) : Prop :=
  s.isPending = false → ∀ (out : OutboundMessage) (now : Nat), out.text ≠ [] →
    (platformCalls s.line < platformCalls (s.line.sendMessage segment out now) → s.IsUp) ∧
      (¬s.IsUp → s.line.sendMessage segment out now = s.line.answer out.channel.id notConnected)

/-- The bot's info is answered whenever it is asked for. -/
def Vouched (_ : Sequential) : Action → Prop
  | .botInfo answered => answered = true
  | _ => True

instance (s : Sequential) : ∀ a, Decidable (s.Vouched a)
  | .botInfo _ => inferInstanceAs (Decidable (_ = true))
  | .connect | .clientMade _ | .disconnect | .onInbound _ | .unsubscribe _ | .webhook ..
  | .handled .. | .reportFailed _ | .send .. | .settled .. => inferInstanceAs (Decidable True)

/-- The connection of the adapter, as its history has it. -/
def view (s : Sequential) : HeldClient where
  phase :=
    if s.line.checking ≠ 0 then .trying
    else if s.line.connecting ≠ 0 then .loading
    else if s.IsUp then .up
    else .down
  held := s.line.adapter.client

/-- What a step does to the connection. -/
def event (s : Sequential) : Action → HeldEvent
  | .connect => if s.line.adapter.connected then .idle else .loads
  | .clientMade made => if made then .creates else .fails
  | .botInfo answered => if answered then .opens else .fails
  | .disconnect => .closes true
  | _ => .idle

/-- One `connect` at most is pending, and the adapter is connected when the latest call says so. -/
structure Sound (s : Sequential) : Prop where
  single : s.line.connecting + s.line.checking ≤ 1
  connected : s.line.adapter.connected = true ↔ s.isPending = false ∧ s.IsUp

end Sequential
end

variable {segment : JsString → List JsString}

/-! ## What a step keeps of the connection -/

@[simp] theorem connection_answer (w : LineState) (target : JsString) (result : SendResult) :
    connection (w.answer target result) = connection w := rfl

theorem connection_pushPart (w : LineState) (target : JsString) (index : Nat)
    (messageId : Option JsString) (parts : List JsString) :
    connection (w.pushPart target index messageId parts) = connection w := by
  cases parts with
  | nil => rfl
  | cons part rest =>
    rw [LineState.pushPart]
    split <;> rfl

theorem connection_settlePart (w : LineState) (sending : Sending) (outcome : ApiOutcome)
    (now : Nat) :
    connection (w.settlePart sending outcome now) = connection w := by
  cases outcome with
  | resolved => exact connection_pushPart w _ _ _ _
  | rejected e => rfl
  | unreadable => rfl

theorem connection_hand (w : LineState) (event : LineMessageEvent) (handler : Option Handler) :
    connection (w.hand event handler) = connection w := by
  cases handler with
  | none => rfl
  | some handler =>
    unfold LineState.hand
    dsimp only
    split <;> rfl

theorem connection_advanceBatch (w : LineState) (batch : Batch) (now : Nat) :
    connection (w.advanceBatch batch now) = connection w := by
  unfold LineState.advanceBatch
  split
  · rfl
  · rename_i ev normalized rest _
    cases normalized with
    | none => rfl
    | some event => exact connection_hand _ event batch.handler

theorem connection_dispatchWebhookBody (w : LineState) (envelope : List LineWebhookEvent)
    (now : Nat) :
    connection (w.dispatchWebhookBody envelope now) = connection w := by
  unfold LineState.dispatchWebhookBody
  dsimp only
  split
  · rfl
  · exact connection_advanceBatch w _ now

theorem connection_takeToken (w : LineState) (target : JsString) (now : Nat) :
    connection (w.takeToken target now) = connection w := by
  unfold LineState.takeToken
  dsimp only
  split <;> rfl

theorem connection_sendFirst (w : LineState) (target : JsString) (token : Option JsString)
    (parts : List JsString) : connection (w.sendFirst target token parts) = connection w := by
  cases parts with
  | nil => rfl
  | cons part rest =>
    cases token with
    | none => exact connection_pushPart w target 0 none (part :: rest)
    | some token => rfl

theorem connection_warnFormatUnsupported (w : LineState) (format : Option Format) :
    connection { w with adapter := w.adapter.warnFormatUnsupported format } = connection w := by
  cases format with
  | none => rfl
  | some format => cases format <;> rfl

theorem connection_sendMessage (w : LineState) (out : OutboundMessage) (now : Nat) :
    connection (w.sendMessage segment out now) = connection w := by
  unfold LineState.sendMessage
  dsimp only
  split
  · rfl
  · split
    · rfl
    · rw [connection_sendFirst, connection_takeToken, connection_warnFormatUnsupported]

/-- Only a `connect` and a `disconnect` change the connection. -/
theorem connection_step {w w' : LineState} {a : Action} (h : w.step segment a = some w')
    (hconnect : a ≠ .connect) (hmade : ∀ made, a ≠ .clientMade made)
    (hinfo : ∀ answered, a ≠ .botInfo answered) (hdisconnect : a ≠ .disconnect) :
    connection w' = connection w := by
  cases a with
  | connect => contradiction
  | clientMade made => exact absurd rfl (hmade made)
  | botInfo answered => exact absurd rfl (hinfo answered)
  | disconnect => contradiction
  | onInbound handler =>
    cases h
    rfl
  | unsubscribe handler =>
    cases h
    split <;> rfl
  | webhook envelope now =>
    cases h
    exact connection_dispatchWebhookBody w envelope now
  | handled i now =>
    obtain ⟨batch, _, rfl⟩ := Option.map_eq_some_iff.1 h
    exact connection_advanceBatch _ batch now
  | reportFailed i =>
    obtain ⟨batch, _, rfl⟩ := Option.map_eq_some_iff.1 h
    rfl
  | send out now =>
    cases h
    exact connection_sendMessage w out now
  | settled i outcome now =>
    obtain ⟨sending, _, rfl⟩ := Option.map_eq_some_iff.1 h
    exact connection_settlePart _ sending outcome now

/-! ## Runs -/

namespace Sequential

variable {s s' : Sequential} {a : Action}

theorem isPending_eq_false : s.isPending = false ↔ s.line.connecting = 0 ∧ s.line.checking = 0 := by
  simp [isPending]

theorem step_eq_some (h : s.step segment a = some s') :
    (isCall a = true → s.isPending = false) ∧ s.line.step segment a = some s'.line ∧
      s'.settled = s.settled ++ (settles s.line a).toList := by
  obtain ⟨hcalm, h⟩ := Option.ite_none_left_eq_some.1 h
  obtain ⟨line, hline, rfl⟩ := Option.map_eq_some_iff.1 h
  exact ⟨fun hcall => by simpa [hcall] using hcalm, hline, rfl⟩

/-- What settles a call tells what `IsUp` is then. -/
theorem isUp_of_settles {call : SettledCall} (h : s'.settled = s.settled ++ [call]) :
    s'.IsUp ↔ call = .connected true := by
  rw [IsUp, h, List.getLast?_concat, Option.some.injEq]

theorem isUp_of_eq (h : s'.settled = s.settled) : s'.IsUp ↔ s.IsUp := by
  rw [IsUp, IsUp, h]

theorem view_of_idle (hchecking : s.line.checking = 0) (hconnecting : s.line.connecting = 0) :
    s.view = ⟨if s.IsUp then .up else .down, s.line.adapter.client⟩ := by
  simp [view, hchecking, hconnecting]

/-- A step that leaves the connection alone. -/
theorem view_of_connection (hconnection : connection s'.line = connection s.line)
    (hsettled : s'.settled = s.settled) : s'.view = s.view ∧ (s.Sound → s'.Sound) := by
  have hup := isUp_of_eq hsettled
  simp only [connection, Prod.mk.injEq] at hconnection
  obtain ⟨hconnecting, hchecking, hclient, hconnected⟩ := hconnection
  constructor
  · simp only [view, hconnecting, hchecking, hclient, hup]
  · rintro ⟨hsingle, hflag⟩
    refine ⟨by omega, ?_⟩
    rw [hconnected, hflag, hup, isPending, isPending, hconnecting, hchecking]

/-- No connection stands while a `connect` is pending. -/
theorem Sound.disconnected (h : s.Sound) (hpending : s.isPending = true) :
    s.line.adapter.connected = false := by
  refine Bool.eq_false_iff.2 fun hup => ?_
  rw [(h.connected.1 hup).1] at hpending
  cases hpending

theorem connect_spec (h : s.Sound) (hstep : s.step segment .connect = some s') :
    s.view.Enables (s.event .connect) ∧ s'.view = s.view.apply (s.event .connect) ∧ s'.Sound := by
  obtain ⟨hcalm, hline, hsettled⟩ := step_eq_some hstep
  obtain ⟨hconnecting, hchecking⟩ := isPending_eq_false.1 (hcalm rfl)
  have hup : s.line.adapter.connected = true ↔ s.IsUp := by
    rw [h.connected, and_iff_right (hcalm rfl)]
  have hview := view_of_idle hchecking hconnecting
  cases hconnected : s.line.adapter.connected with
  | true =>
    simp only [LineState.step, hconnected, if_true, Option.some.injEq] at hline
    simp only [settles, hconnected, if_true, Option.toList_some] at hsettled
    have hup' : s'.IsUp := (isUp_of_settles hsettled).2 rfl
    have hidle : s'.isPending = false := by rw [isPending, ← hline, hconnecting, hchecking]; rfl
    simp only [event, hconnected, if_true]
    refine ⟨trivial, ?_, ?_⟩
    · rw [HeldClient.apply, hview, view_of_idle (hline ▸ hchecking) (hline ▸ hconnecting),
        if_pos hup', if_pos (hup.1 hconnected), hline]
    · refine ⟨hline ▸ h.single, ?_⟩
      rw [← hline]
      simp [hconnected, hidle, hup']
  | false =>
    have hdown : ¬s.IsUp := fun hup' => by
      have := hup.2 hup'
      simp [hconnected] at this
    simp only [LineState.step, hconnected, Bool.false_eq_true, if_false, Option.some.injEq,
      hconnecting] at hline
    have hsettled : s'.settled = s.settled := by
      simpa [settles, hconnected] using hsettled
    have hpending : s'.isPending = true := by simp [isPending, ← hline]
    simp only [event, hconnected, Bool.false_eq_true, if_false]
    refine ⟨by rw [hview, if_neg hdown]; rfl, ?_, ?_⟩
    · rw [HeldClient.apply, hview]
      simp [view, ← hline, hchecking]
    · refine ⟨by simp [← hline, hchecking], ?_⟩
      simp [← hline, hconnected, hpending]

/-- The `connect` that waits for a client. -/
theorem clientMade_spec (h : s.Sound) {made : Bool}
    (hstep : s.step segment (.clientMade made) = some s') :
    s.view.phase = .loading ∧ s'.view = s.view.apply (s.event (.clientMade made)) ∧
      s'.Sound := by
  obtain ⟨_, hline, hsettled⟩ := step_eq_some hstep
  simp only [LineState.step] at hline
  split at hline
  · cases hline
  · rename_i n hconnecting
    have hsingle := h.single
    obtain ⟨rfl, hchecking⟩ : n = 0 ∧ s.line.checking = 0 := by omega
    have hconnected := h.disconnected (by simp [isPending, hconnecting])
    have hphase : s.view.phase = .loading := by simp [view, hchecking, hconnecting]
    cases made with
    | true =>
      simp only [if_true, Option.some.injEq] at hline
      refine ⟨hphase, ?_, ?_⟩
      · simp [event, HeldClient.apply, view, ← hline]
      · refine ⟨by simp [← hline, hchecking], ?_⟩
        simp [← hline, hconnected, isPending]
    | false =>
      simp only [Bool.false_eq_true, if_false, Option.some.injEq] at hline
      have hup' : ¬s'.IsUp := by
        rw [isUp_of_settles hsettled]
        simp
      refine ⟨hphase, ?_, ?_⟩
      · rw [view_of_idle (by simp [← hline, hchecking]) (by simp [← hline]), if_neg hup']
        simp [event, HeldClient.apply, view, ← hline]
      · refine ⟨by simp [← hline, hchecking], ?_⟩
        simp [← hline, hconnected, hup']

/-- The `connect` that waits for the bot's info. -/
theorem botInfo_spec (h : s.Sound) {answered : Bool}
    (hstep : s.step segment (.botInfo answered) = some s') :
    s.view.phase = .trying ∧ s'.view = s.view.apply (s.event (.botInfo answered)) ∧
      s'.Sound := by
  obtain ⟨_, hline, hsettled⟩ := step_eq_some hstep
  simp only [LineState.step] at hline
  split at hline
  · cases hline
  · rename_i n hchecking
    have hsingle := h.single
    obtain ⟨rfl, hconnecting⟩ : n = 0 ∧ s.line.connecting = 0 := by omega
    have hphase : s.view.phase = .trying := by simp [view, hchecking]
    have hup' : s'.IsUp ↔ answered = true := by
      rw [isUp_of_settles hsettled]
      simp
    cases answered with
    | true =>
      simp only [if_true, Option.some.injEq] at hline
      have hidle : s'.isPending = false := by simp [isPending, ← hline, hconnecting]
      refine ⟨hphase, ?_, ?_⟩
      · rw [view_of_idle (by simp [← hline]) (by simp [← hline, hconnecting]), if_pos (hup'.2 rfl)]
        simp [event, HeldClient.apply, view, ← hline]
      · refine ⟨by simp [← hline, hconnecting], ?_⟩
        simp [← hline, hidle, hup']
    | false =>
      simp only [Bool.false_eq_true, if_false, Option.some.injEq] at hline
      have hdown : ¬s'.IsUp := by simp [hup']
      have hconnected := h.disconnected (by simp [isPending, hchecking])
      refine ⟨hphase, ?_, ?_⟩
      · rw [view_of_idle (by simp [← hline]) (by simp [← hline, hconnecting]), if_neg hdown]
        simp [event, HeldClient.apply, view, ← hline]
      · refine ⟨by simp [← hline, hconnecting], ?_⟩
        simp [← hline, hconnected, hdown]

theorem disconnect_spec (hstep : s.step segment .disconnect = some s') :
    s.view.Enables (s.event .disconnect) ∧ s'.view = s.view.apply (s.event .disconnect) ∧
      s'.Sound := by
  obtain ⟨hcalm, hline, hsettled⟩ := step_eq_some hstep
  obtain ⟨hconnecting, hchecking⟩ := isPending_eq_false.1 (hcalm rfl)
  have hview := view_of_idle hchecking hconnecting
  have hline := Option.some.inj hline
  have hdown : ¬s'.IsUp := by
    rw [isUp_of_settles hsettled]
    simp
  refine ⟨?_, ?_, ?_⟩
  · rw [hview]
    by_cases hup : s.IsUp
    · exact .inr ⟨if_pos hup, rfl⟩
    · exact .inl (if_neg hup)
  · rw [view_of_idle (by simp [← hline, hchecking]) (by simp [← hline, hconnecting]),
      if_neg hdown]
    simp [event, HeldClient.apply, ← hline]
  · refine ⟨by simp [← hline, hconnecting, hchecking], ?_⟩
    simp [← hline, hdown]

/-- The adapter's connection moves as that of a held client does. -/
theorem realizes : Realizes (step segment) Sound view event := by
  have hspec (s : Sequential) (a : Action) (s' : Sequential) (h : s.Sound)
      (hstep : s.step segment a = some s') :
      s.view.Enables (s.event a) ∧ s'.view = s.view.apply (s.event a) ∧ s'.Sound := by
    have hother (hidle : s.event a = .idle) (hsettles : settles s.line a = none)
        (hconnection : connection s'.line = connection s.line) :
        s.view.Enables (s.event a) ∧ s'.view = s.view.apply (s.event a) ∧ s'.Sound := by
      obtain ⟨_, _, hsettled⟩ := step_eq_some hstep
      rw [hsettles, Option.toList_none, List.append_nil] at hsettled
      obtain ⟨hview, hsound⟩ := view_of_connection hconnection hsettled
      rw [hidle]
      exact ⟨trivial, hview, hsound h⟩
    obtain ⟨_, hline, _⟩ := step_eq_some hstep
    cases a with
    | connect => exact connect_spec h hstep
    | clientMade made =>
      obtain ⟨hphase, hview, hsound⟩ := clientMade_spec h hstep
      refine ⟨?_, hview, hsound⟩
      cases made with
      | true => exact .inr hphase
      | false => exact .inl hphase
    | botInfo answered =>
      obtain ⟨hphase, hview, hsound⟩ := botInfo_spec h hstep
      refine ⟨?_, hview, hsound⟩
      cases answered with
      | true => exact hphase
      | false => exact .inr hphase
    | disconnect => exact disconnect_spec hstep
    | _ =>
      exact hother rfl rfl
        (connection_step hline (by simp) (by simp) (by simp) (by simp))
  exact ⟨fun s a t h hstep => (hspec s a t h hstep).2.2,
    fun s a t h hstep => (hspec s a t h hstep).1, fun s a t h hstep => (hspec s a t h hstep).2.1⟩

theorem sound_new (opts : LineAdapterOptions) : (new opts).Sound where
  single := by simp [new, LineState.new]
  connected := by simp [new, LineState.new, IsUp]

theorem phase_eq_down : s.view.phase = .down ↔ s.isPending = false ∧ ¬s.IsUp := by
  rw [isPending_eq_false]
  unfold view
  dsimp only
  split
  · simp_all
  · split
    · simp_all
    · split <;> simp_all

theorem head?_pushPart (w : LineState) (target : JsString) (index : Nat)
    (messageId : Option JsString) (parts : List JsString) :
    (w.pushPart target index messageId parts).trace.head? ≠
      some (.answered target notConnected) := by
  cases parts with
  | nil => simp [LineState.pushPart, LineState.answer, notConnected, SendResult.failure]
  | cons part rest =>
    rw [LineState.pushPart]
    split
    · simp
    · have hcode : js "send_failed" ≠ js "not_connected" := by decide
      simp [LineState.answer, notConnected, SendResult.failure, hcode]

/-- A send that finds a client does not answer `not_connected`. -/
theorem head?_sendMessage {w : LineState} {out : OutboundMessage} {now : Nat}
    (hclient : w.adapter.client = true) (htext : out.text ≠ []) :
    (w.sendMessage segment out now).trace.head? ≠
      some (.answered out.channel.id notConnected) := by
  unfold LineState.sendMessage
  dsimp only
  rw [if_neg htext, if_neg (by simp [hclient])]
  cases splitForLine segment out.text with
  | nil => exact head?_pushPart _ _ 0 none []
  | cons part rest =>
    cases w.adapter.replyCache.held out.channel.id now with
    | none => exact head?_pushPart _ _ 0 none (part :: rest)
    | some token => simp [LineState.sendFirst]

/-- A send keeps to the connection where no client is held without one. -/
theorem sendsWhileUp_iff_gated : SendsWhileUp segment s ↔ s.view.Gated := by
  constructor
  · intro h hdown
    obtain ⟨hidle, hnot⟩ := phase_eq_down.1 hdown
    refine Bool.eq_false_iff.2 fun hheld => ?_
    have hheld : s.line.adapter.client = true := hheld
    let out : OutboundMessage := { channel := { id := [], type := .dm }, text := js "a" }
    have htext : out.text ≠ [] := by decide
    obtain ⟨_, hrefused⟩ := h hidle out 0 htext
    have hsent : (s.line.sendMessage segment out 0).trace.head? ≠
        some (.answered out.channel.id notConnected) := head?_sendMessage hheld htext
    rw [hrefused hnot] at hsent
    exact hsent rfl
  · intro h hidle out now htext
    have hrefused : ¬s.IsUp → s.line.sendMessage segment out now =
        s.line.answer out.channel.id notConnected := by
      intro hup
      have hheld : s.line.adapter.client = false := h (phase_eq_down.2 ⟨hidle, hup⟩)
      simp [LineState.sendMessage, htext, hheld, notConnected]
    refine ⟨fun hcalls => ?_, hrefused⟩
    refine Decidable.byContradiction fun hup => ?_
    rw [hrefused hup] at hcalls
    simp [platformCalls, LineState.answer] at hcalls

theorem vouched_iff_clean (h : s.Sound) (hstep : s.step segment a = some s') :
    s.Vouched a ↔ s.view.Clean (s.event a) := by
  cases a with
  | connect => exact iff_of_true trivial (by simp only [event]; split <;> trivial)
  | clientMade made =>
    have hphase := (clientMade_spec h hstep).1
    cases made with
    | true => exact Iff.rfl
    | false => exact iff_of_true trivial (by simp [event, HeldClient.Clean, hphase])
  | botInfo answered =>
    have hphase := (botInfo_spec h hstep).1
    cases answered with
    | true => exact iff_of_true rfl trivial
    | false => exact iff_of_false Bool.false_ne_true fun hclean => hclean hphase
  | _ => exact Iff.rfl

/-- Sends keep to the connection in the runs in which every bot's info is answered. -/
theorem always_sendsWhileUp_iff (opts : LineAdapterOptions) {as : List Action}
    (hrun : run (step segment) (new opts) as = some s) :
    Always (step segment) (SendsWhileUp segment) (new opts) as ↔
      Meets (step segment) Vouched (new opts) as := by
  refine realizes.always_iff_meets (fun _ _ => sendsWhileUp_iff_gated)
    (fun _ _ _ h hstep => vouched_iff_clean h hstep) (sound_new opts) ?_ hrun
  simp [HeldClient.Sound, view, new, LineState.new, IsUp]

end Sequential

end TheokitGateways.Line
