import TheokitGateways.Gateway.HeldClient
import TheokitGateways.Matrix.Send

/-!
# Matrix: sends while connected

`connect` stores the client before `whoami` has judged its token, `sendMessage`
looks at the client that is stored, and a `disconnect` without a connection leaves
it there. When `connect`s and `disconnect`s are called one after another, a send
goes through without a connection only after a `connect` that failed with its client
made.
-/

namespace TheokitGateways.Matrix
open Js Gateway Transition

namespace Call

/-- How far the calls have come when this one is the latest. -/
def phase : Call → Phase
  | .loading => .loading
  | .whoami | .starting _ => .trying
  | .connected (.ok true) => .up
  | .connected _ | .disconnected => .down

end Call

namespace MatrixState

/-- A `connect` is pending. -/
def isPending (m : MatrixState) : Bool := m.adapter.calls.any Call.isConnecting

/-- The latest `connect` succeeded, and no `disconnect` followed. -/
def IsUp (m : MatrixState) : Prop := m.adapter.calls.getLast? = some (.connected (.ok true))

def isCall : Step → Bool
  | .act (.connect _) | .act .disconnect => true
  | _ => false

/-- How many times the client was asked for a room or to send a message. -/
def platformCalls (m : MatrixState) : Nat :=
  m.trace.countP fun | .resolved _ | .sentText .. | .sentHtml .. => true | _ => false

/-- Once every call has settled, a send calls the platform, at once or when it goes on, only while
the adapter is connected, and answers `not_connected` otherwise. -/
def SendsWhileUp (m : MatrixState) : Prop :=
  m.isPending = false → ∀ out : OutboundMessage, out.text ≠ [] →
    (m.platformCalls < (m.sendMessage out).platformCalls ∨
      m.sends.length < (m.sendMessage out).sends.length → m.IsUp) ∧
      (¬m.IsUp → m.sendMessage out = m.answer out notConnected)

/-- The steps of `connect` that follow the making of a client do not fail. -/
def Vouched (_ : MatrixState) : Step → Prop
  | .act (.whoami _ result) => result.isOk = true
  | .act (.started _ result _) => result.isOk = true
  | _ => True

instance (m : MatrixState) : ∀ a, Decidable (m.Vouched a)
  | .act (.whoami ..) | .act (.started ..) => inferInstanceAs (Decidable (_ = true))
  | .act (.connect _) | .act .disconnect | .act (.loaded ..) | .act (.onInbound _)
  | .act (.offInbound _) | .send _ | .advance .. => inferInstanceAs (Decidable True)

def view (m : MatrixState) : HeldClient where
  phase := (m.adapter.calls.getLast?.map Call.phase).getD .down
  held := m.adapter.client.isSome

section
variable (kind : ClientKind) (clientFactory : Bool)

/-- A `connect` or a `disconnect` waits until the one before it has settled. -/
def sequentialStep (m : MatrixState) (a : Step) : Option MatrixState :=
  if isCall a && m.isPending then none else m.step kind clientFactory a

/-- What a step does to the connection. -/
def event (m : MatrixState) : Step → HeldEvent
  | .act (.connect made) =>
    if m.adapter.connected then .idle
    else if clientFactory then if made.isOk then .creates else .idle
    else .loads
  | .act (.loaded _ made) => if made.isOk then .creates else .fails
  | .act (.whoami _ result) => if result.isOk && m.adapter.client.isSome then .idle else .fails
  | .act (.started _ result _) => if result.isOk then .opens else .fails
  | .act .disconnect => .closes m.adapter.connected
  | .act (.onInbound _) | .act (.offInbound _) | .send _ | .advance .. => .idle

end

/-- Only the latest call may be pending, the adapter is connected when that call says so, and it
has a client when the call has made one. -/
structure Sequential (m : MatrixState) : Prop where
  settled : ∀ call ∈ m.adapter.calls.dropLast, call.isConnecting = false
  connected : m.adapter.connected = true ↔ m.IsUp
  held : m.view.phase = .trying → m.adapter.client.isSome = true

variable {kind : ClientKind} {clientFactory : Bool} {m m' : MatrixState}

/-! ## The latest call -/

theorem phase_eq_up {call : Call} : call.phase = .up ↔ call = .connected (.ok true) := by
  constructor
  · fun_cases Call.phase call <;> simp
  · rintro rfl
    rfl

theorem phase_failed (err : JsAny) : Call.phase (.connected (failed err)) = .down := by
  unfold failed
  cases thrownText err <;> rfl

theorem isConnecting_iff_phase {call : Call} :
    call.isConnecting = true ↔ call.phase = .loading ∨ call.phase = .trying := by
  fun_cases Call.phase call <;> simp [Call.isConnecting]

/-- What the adapter looks like after a call that follows calls that have settled. -/
theorem view_of_latest {front : List Call} {call : Call}
    (hcalls : m.adapter.calls = front ++ [call]) :
    m.view = ⟨call.phase, m.adapter.client.isSome⟩ := by
  simp [view, hcalls]

theorem sequential_of_latest {front : List Call} {call : Call}
    (hcalls : m.adapter.calls = front ++ [call]) (hfront : ∀ c ∈ front, c.isConnecting = false)
    (hconnected : m.adapter.connected = true ↔ call.phase = .up)
    (hheld : call.phase = .trying → m.adapter.client.isSome = true) : m.Sequential where
  settled := by rwa [hcalls, List.dropLast_concat]
  connected := by
    rw [hconnected, phase_eq_up, IsUp, hcalls, List.getLast?_concat, Option.some.injEq]
  held := by rwa [view_of_latest hcalls]

/-- A call that is pending is the latest one. -/
theorem Sequential.latest (h : m.Sequential) {i : Nat} {call : Call}
    (hi : m.adapter.calls[i]? = some call) (hpending : call.isConnecting = true) :
    m.adapter.calls = m.adapter.calls.dropLast ++ [call] ∧
      ∀ new, m.adapter.calls.set i new = m.adapter.calls.dropLast ++ [new] := by
  obtain ⟨front, last, hcalls⟩ : ∃ front last, m.adapter.calls = front ++ [last] := by
    have hne : m.adapter.calls ≠ [] := by
      rintro hnil
      simp [hnil] at hi
    exact ⟨_, _, (List.dropLast_concat_getLast hne).symm⟩
  have hsettled := h.settled
  rw [hcalls, List.dropLast_concat] at hsettled ⊢
  rw [hcalls] at hi
  obtain hlt | rfl | hgt := Nat.lt_trichotomy i front.length
  · rw [List.getElem?_append_left hlt] at hi
    rw [hsettled call (List.mem_of_getElem? hi)] at hpending
    cases hpending
  · rw [List.getElem?_concat_length, Option.some.injEq] at hi
    exact ⟨by rw [hi], fun new => by simp⟩
  · rw [List.getElem?_eq_none (by simp; omega)] at hi
    cases hi

/-- Without a pending call, every call has settled. -/
theorem settled_of_idle (h : m.isPending = false) :
    ∀ call ∈ m.adapter.calls, call.isConnecting = false := by
  simpa [isPending] using h

theorem Sequential.phase_up (h : m.Sequential) (hconnected : m.adapter.connected = true) :
    m.view.phase = .up := by
  have hup : m.adapter.calls.getLast? = some (.connected (.ok true)) := h.connected.1 hconnected
  simp [view, hup, Call.phase]

theorem Sequential.phase_down (h : m.Sequential) (hidle : m.isPending = false)
    (hconnected : m.adapter.connected = false) : m.view.phase = .down := by
  cases hlast : m.adapter.calls.getLast? with
  | none => simp [view, hlast]
  | some call =>
    have hphase : m.view.phase = call.phase := by simp [view, hlast]
    have hsettled := settled_of_idle hidle call (List.mem_of_getLast? hlast)
    have hnot : call ≠ .connected (.ok true) := by
      rintro rfl
      have hup := h.connected.2 hlast
      rw [hconnected] at hup
      cases hup
    rw [hphase]
    fun_cases Call.phase call <;> simp_all [Call.isConnecting]

/-! ## Steps -/

theorem connect_spec (h : m.Sequential) (hidle : m.isPending = false) (made : Except JsAny Unit)
    (hm : m'.adapter = m.adapter.connect clientFactory made) :
    m.view.Enables (m.event clientFactory (.act (.connect made))) ∧
      m'.view = m.view.apply (m.event clientFactory (.act (.connect made))) ∧ m'.Sequential := by
  have hfront := settled_of_idle hidle
  cases hconnected : m.adapter.connected with
  | true =>
    have hcalls : m'.adapter.calls = m.adapter.calls ++ [.connected (.ok true)] := by
      simp [hm, MatrixAdapter.connect, hconnected]
    have hphase := h.phase_up hconnected
    simp only [event, hconnected, if_true]
    refine ⟨trivial, ?_, sequential_of_latest hcalls hfront ?_ (by rintro ⟨⟩)⟩
    · rw [view_of_latest hcalls, HeldClient.apply]
      simp only [view, hm, MatrixAdapter.connect, hconnected, if_true] at hphase ⊢
      rw [hphase]
      rfl
    · simp [hm, MatrixAdapter.connect, hconnected, Call.phase]
  | false =>
    have hphase := h.phase_down hidle hconnected
    cases clientFactory with
    | false =>
      have hcalls : m'.adapter.calls = m.adapter.calls ++ [.loading] := by
        simp [hm, MatrixAdapter.connect, hconnected]
      simp only [event, hconnected, Bool.false_eq_true, if_false]
      refine ⟨hphase, ?_, sequential_of_latest hcalls hfront ?_ (by rintro ⟨⟩)⟩
      · rw [view_of_latest hcalls, HeldClient.apply]
        simp [view, hm, MatrixAdapter.connect, hconnected, Call.phase]
      · simp [hm, MatrixAdapter.connect, hconnected, Call.phase]
    | true =>
      cases made with
      | ok =>
        have hcalls : m'.adapter.calls = m.adapter.calls ++ [.whoami] := by
          simp [hm, MatrixAdapter.connect, hconnected]
        have hclient : m'.adapter.client.isSome = true := by
          simp [hm, MatrixAdapter.connect, hconnected, MatrixAdapter.create]
        refine ⟨?_, ?_, sequential_of_latest hcalls hfront ?_ fun _ => hclient⟩
        · simp only [event, hconnected]
          exact .inl hphase
        · rw [view_of_latest hcalls, hclient]
          simp [event, hconnected, HeldClient.apply, Call.phase, Except.isOk, Except.toBool]
        · simp [hm, MatrixAdapter.connect, hconnected, MatrixAdapter.create, Call.phase]
      | error err =>
        have hcalls : m'.adapter.calls = m.adapter.calls ++ [.connected (failed err)] := by
          simp [hm, MatrixAdapter.connect, hconnected]
        refine ⟨?_, ?_, sequential_of_latest hcalls hfront ?_ ?_⟩
        · simp [event, hconnected, Except.isOk, Except.toBool, HeldClient.Enables]
        · rw [view_of_latest hcalls, phase_failed, ← hphase]
          simp [event, hconnected, HeldClient.apply, view, hm, MatrixAdapter.connect, Except.isOk,
            Except.toBool]
        · simp [hm, MatrixAdapter.connect, hconnected, phase_failed]
        · simp [phase_failed]

/-- A call that is pending goes on, or settles. -/
theorem pending_spec (h : m.Sequential) {i : Nat} {old new : Call}
    (hi : m.adapter.calls[i]? = some old) (hold : old.isConnecting = true)
    (hcalls : m'.adapter.calls = m.adapter.calls.set i new)
    (hconnected : m'.adapter.connected = true ↔ new.phase = .up)
    (hheld : new.phase = .trying → m'.adapter.client.isSome = true) :
    m'.view = ⟨new.phase, m'.adapter.client.isSome⟩ ∧ m'.Sequential := by
  obtain ⟨_, hset⟩ := h.latest hi hold
  rw [hset] at hcalls
  exact ⟨view_of_latest hcalls, sequential_of_latest hcalls h.settled hconnected hheld⟩

theorem Sequential.phase_of_pending (h : m.Sequential) {i : Nat} {call : Call}
    (hi : m.adapter.calls[i]? = some call) (hpending : call.isConnecting = true) :
    m.view.phase = call.phase := by
  rw [view_of_latest (h.latest hi hpending).1]

theorem Sequential.disconnected (h : m.Sequential) {i : Nat} {call : Call}
    (hi : m.adapter.calls[i]? = some call) (hpending : call.isConnecting = true) :
    m.adapter.connected = false := by
  refine Bool.eq_false_iff.2 fun hconnected => ?_
  have hup : m.adapter.calls.getLast? = some (.connected (.ok true)) := h.connected.1 hconnected
  rw [(h.latest hi hpending).1, List.getLast?_concat, Option.some.injEq] at hup
  rw [hup] at hpending
  cases hpending

/-- A `connect` that is pending fails. -/
theorem fails_spec (h : m.Sequential) {i : Nat} {call : Call}
    (hi : m.adapter.calls[i]? = some call) (hpending : call.isConnecting = true) {err : JsAny}
    (hcalls : m'.adapter.calls = m.adapter.calls.set i (.connected (failed err)))
    (hconnected : m'.adapter.connected = m.adapter.connected)
    (hclient : m'.adapter.client = m.adapter.client) :
    m'.view = m.view.apply .fails ∧ m'.Sequential := by
  rw [h.disconnected hi hpending] at hconnected
  obtain ⟨hview, hsequential⟩ := pending_spec h hi hpending hcalls
    (by simp [hconnected, phase_failed]) (by simp [phase_failed])
  refine ⟨?_, hsequential⟩
  rw [hview, phase_failed, hclient]
  rfl

theorem loaded_spec (h : m.Sequential) {i : Nat} (hi : m.adapter.calls[i]? = some .loading)
    {made : Except JsAny Unit} (hm : m'.adapter = m.adapter.loaded i made) :
    m'.view = m.view.apply (m.event clientFactory (.act (.loaded i made))) ∧ m'.Sequential := by
  cases made with
  | ok =>
    have hconnected : m'.adapter.connected = false := by
      rw [hm]
      exact h.disconnected hi rfl
    have hclient : m'.adapter.client.isSome = true := by
      rw [hm]
      rfl
    obtain ⟨hview, hsequential⟩ := pending_spec h hi rfl
      (show m'.adapter.calls = m.adapter.calls.set i .whoami by rw [hm]; rfl)
      (by simp [hconnected, Call.phase]) fun _ => hclient
    refine ⟨?_, hsequential⟩
    rw [hview, hclient]
    rfl
  | error err =>
    exact fails_spec h hi rfl (by rw [hm]; rfl) (by rw [hm]; rfl) (by rw [hm]; rfl)

theorem whoami_spec (h : m.Sequential) {i : Nat} (hi : m.adapter.calls[i]? = some .whoami)
    {result : Except JsAny Unit} (hm : m'.adapter = m.adapter.whoami i result) :
    m'.view = m.view.apply (m.event clientFactory (.act (.whoami i result))) ∧
      m'.Sequential := by
  cases result with
  | ok =>
    have hphase : m.view.phase = .trying := h.phase_of_pending hi rfl
    obtain ⟨k, hk⟩ := Option.isSome_iff_exists.1 (h.held hphase)
    rw [MatrixAdapter.whoami, hk] at hm
    have hconnected : m'.adapter.connected = false := by
      rw [hm]
      exact h.disconnected hi rfl
    have hclient : m'.adapter.client = m.adapter.client := by
      rw [hm]
      rfl
    obtain ⟨hview, hsequential⟩ := pending_spec h hi rfl
      (show m'.adapter.calls = m.adapter.calls.set i (.starting k) by rw [hm]; rfl)
      (by simp [hconnected, Call.phase]) (by simp [hclient, hk])
    refine ⟨?_, hsequential⟩
    rw [hview, hclient]
    simp [event, hk, HeldClient.apply, Call.phase, Except.isOk, Except.toBool,
      view_of_latest (h.latest hi rfl).1]
  | error err =>
    exact fails_spec h hi rfl (by rw [hm]; rfl) (by rw [hm]; rfl) (by rw [hm]; rfl)

/-- What `startClient` that succeeds leaves. -/
theorem started_ok (s : MatrixAdapter) (i k : Nat) (running : Bool) :
    (s.started i k (.ok ()) running).calls = s.calls.set i (.connected (.ok true)) ∧
      (s.started i k (.ok ()) running).connected = true ∧
      (s.started i k (.ok ()) running).client = s.client := by
  unfold MatrixAdapter.started MatrixAdapter.attachSync
  cases hclient : s.client <;>
    simp [MatrixAdapter.setCall, MatrixAdapter.modifyClient, hclient]

theorem started_spec (h : m.Sequential) {i k : Nat}
    (hi : m.adapter.calls[i]? = some (.starting k)) {result : Except JsAny Unit} {running : Bool}
    (hm : m'.adapter = m.adapter.started i k result running) :
    m'.view = m.view.apply (m.event clientFactory (.act (.started i result running))) ∧
      m'.Sequential := by
  cases result with
  | ok =>
    obtain ⟨hcalls, hup, hclient⟩ := started_ok m.adapter i k running
    rw [← hm] at hcalls hup hclient
    obtain ⟨hview, hsequential⟩ := pending_spec h hi rfl hcalls
      (by simp [hup, Call.phase]) (by simp [Call.phase])
    refine ⟨?_, hsequential⟩
    rw [hview, hclient]
    rfl
  | error err =>
    exact fails_spec h hi rfl (by rw [hm]; rfl) (by rw [hm]; rfl) (by rw [hm]; rfl)

theorem disconnect_spec (h : m.Sequential) (hidle : m.isPending = false)
    (hm : m'.adapter = m.adapter.disconnect) :
    m.view.Enables (m.event clientFactory (.act .disconnect)) ∧
      m'.view = m.view.apply (m.event clientFactory (.act .disconnect)) ∧ m'.Sequential := by
  have hfront := settled_of_idle hidle
  have hcalls : m'.adapter.calls = m.adapter.calls ++ [.disconnected] := by
    rw [hm]
    unfold MatrixAdapter.disconnect
    split <;> rfl
  have hdown : m'.adapter.connected = false := by
    rw [hm]
    unfold MatrixAdapter.disconnect
    split
    · rfl
    · simp_all
  have hclient : m'.adapter.client.isSome =
      (m.adapter.client.isSome && !m.adapter.connected) := by
    rw [hm]
    unfold MatrixAdapter.disconnect
    split <;> simp_all
  refine ⟨?_, ?_, sequential_of_latest hcalls hfront (by simp [hdown, Call.phase])
    (by rintro ⟨⟩)⟩
  · cases hconnected : m.adapter.connected with
    | true => exact .inr ⟨h.phase_up hconnected, hconnected⟩
    | false => exact .inl (h.phase_down hidle hconnected)
  · rw [view_of_latest hcalls, hclient]
    rfl

/-! ## Sends -/

theorem adapter_warnFormatUnsupported (m : MatrixState) (format : Option Format) :
    (m.warnFormatUnsupported format).adapter = m.adapter := by
  unfold warnFormatUnsupported
  split
  · rfl
  · rfl
  · rfl
  · split <;> rfl

theorem adapter_warnEncryptedOnce (m : MatrixState) (roomId : JsString) :
    (m.warnEncryptedOnce roomId).adapter = m.adapter := by
  unfold warnEncryptedOnce
  split <;> rfl

theorem adapter_sendMessage (m : MatrixState) (out : OutboundMessage) :
    (m.sendMessage out).adapter = m.adapter := by
  unfold sendMessage
  split
  · rfl
  · split
    · rfl
    · unfold resolve
      dsimp only
      split
      · rfl
      · split
        · rfl
        · split <;> rfl

theorem adapter_sendHonouringFormat (m : MatrixState) (out : OutboundMessage) (roomId : JsString) :
    (m.sendHonouringFormat kind out roomId).adapter = m.adapter := by
  have hwarned := adapter_warnFormatUnsupported m out.format
  unfold sendHonouringFormat
  split
  · split
    · rfl
    · exact hwarned
  · split
    · exact hwarned
    · rfl

/-- A send that goes on leaves the connection alone. -/
theorem adapter_advance (m : MatrixState) (sending : Sending) (outcome : ApiOutcome) :
    (m.advance kind sending outcome).adapter = m.adapter := by
  unfold advance
  split
  · cases outcome <;> rfl
  · unfold goOn
    split
    · exact adapter_warnEncryptedOnce m _
    · exact adapter_sendHonouringFormat m _ _
  · cases outcome with
    | rejected e =>
      unfold htmlSettled
      dsimp only
      split <;> rfl
    | resolved eventId => rfl
    | unreadable thrown => rfl
  · cases outcome <;> rfl

/-- A step of the adapter without a call of `connect` or `disconnect`. -/
theorem idle_spec (h : m.Sequential) (hcalls : m'.adapter.calls = m.adapter.calls)
    (hconnected : m'.adapter.connected = m.adapter.connected)
    (hclient : m'.adapter.client = m.adapter.client) : m'.view = m.view ∧ m'.Sequential := by
  have hview : m'.view = m.view := by rw [view, view, hcalls, hclient]
  refine ⟨hview, ?_, ?_, ?_⟩
  · rw [hcalls]
    exact h.settled
  · rw [hconnected, IsUp, hcalls]
    exact h.connected
  · rw [hview, hclient]
    exact h.held

/-! ## Runs -/

theorem act_eq_some {action : Action} (h : m.act clientFactory action = some m') :
    m.adapter.step clientFactory action = some m'.adapter := by
  obtain ⟨adapter, hstep, rfl⟩ := Option.map_eq_some_iff.1 h
  exact hstep

theorem loaded_eq_some {s s' : MatrixAdapter} {i : Nat} {made : Except JsAny Unit}
    (h : s.step clientFactory (.loaded i made) = some s') :
    s.calls[i]? = some .loading ∧ s' = s.loaded i made := by
  obtain ⟨call, hi, h⟩ := Option.bind_eq_some_iff.1 h
  split at h
  · exact ⟨hi, (Option.some.inj h).symm⟩
  · cases h

theorem whoami_eq_some {s s' : MatrixAdapter} {i : Nat} {result : Except JsAny Unit}
    (h : s.step clientFactory (.whoami i result) = some s') :
    s.calls[i]? = some .whoami ∧ s' = s.whoami i result := by
  obtain ⟨call, hi, h⟩ := Option.bind_eq_some_iff.1 h
  split at h
  · exact ⟨hi, (Option.some.inj h).symm⟩
  · cases h

theorem started_eq_some {s s' : MatrixAdapter} {i : Nat} {result : Except JsAny Unit}
    {running : Bool} (h : s.step clientFactory (.started i result running) = some s') :
    ∃ k, s.calls[i]? = some (.starting k) ∧ s' = s.started i k result running := by
  obtain ⟨call, hi, h⟩ := Option.bind_eq_some_iff.1 h
  split at h
  · exact ⟨_, hi, (Option.some.inj h).symm⟩
  · cases h

theorem act_spec (h : m.Sequential) {action : Action}
    (hcalm : isCall (.act action) = true → m.isPending = false)
    (hact : m.act clientFactory action = some m') :
    m.view.Enables (m.event clientFactory (.act action)) ∧
      m'.view = m.view.apply (m.event clientFactory (.act action)) ∧ m'.Sequential := by
  have hstep := act_eq_some hact
  cases action with
  | connect made => exact connect_spec h (hcalm rfl) made (Option.some.inj hstep).symm
  | disconnect => exact disconnect_spec h (hcalm rfl) (Option.some.inj hstep).symm
  | loaded i made =>
    obtain ⟨hi, hm⟩ := loaded_eq_some hstep
    have hphase : m.view.phase = .loading := h.phase_of_pending hi rfl
    refine ⟨?_, loaded_spec h hi hm⟩
    cases made with
    | ok => exact .inr hphase
    | error err => exact .inl hphase
  | whoami i result =>
    obtain ⟨hi, hm⟩ := whoami_eq_some hstep
    have hphase : m.view.phase = .trying := h.phase_of_pending hi rfl
    refine ⟨?_, whoami_spec h hi hm⟩
    simp only [event]
    split
    · trivial
    · exact .inr hphase
  | started i result running =>
    obtain ⟨k, hi, hm⟩ := started_eq_some hstep
    have hphase : m.view.phase = .trying := h.phase_of_pending hi rfl
    refine ⟨?_, started_spec h hi hm⟩
    cases result with
    | ok => exact hphase
    | error err => exact .inr hphase
  | onInbound handler =>
    have hm := Option.some.inj hstep
    exact ⟨trivial, idle_spec h (by rw [← hm]) (by rw [← hm]) (by rw [← hm])⟩
  | offInbound handler =>
    have hm := Option.some.inj hstep
    split at hm <;> exact ⟨trivial, idle_spec h (by rw [← hm]) (by rw [← hm]) (by rw [← hm])⟩

theorem sequentialStep_eq_some {a : Step} (h : m.sequentialStep kind clientFactory a = some m') :
    (isCall a = true → m.isPending = false) ∧ m.step kind clientFactory a = some m' := by
  obtain ⟨hcalm, h⟩ := Option.ite_none_left_eq_some.1 h
  exact ⟨fun hcall => by simpa [hcall] using hcalm, h⟩

/-- The adapter's connection moves as that of a held client does. -/
theorem realizes : Realizes (sequentialStep kind clientFactory) Sequential view
    (event clientFactory) := by
  have hspec (m : MatrixState) (a : Step) (m' : MatrixState) (h : m.Sequential)
      (hstep : m.sequentialStep kind clientFactory a = some m') :
      m.view.Enables (m.event clientFactory a) ∧
        m'.view = m.view.apply (m.event clientFactory a) ∧ m'.Sequential := by
    obtain ⟨hcalm, hstep⟩ := sequentialStep_eq_some hstep
    cases a with
    | act action => exact act_spec h hcalm hstep
    | send out =>
      obtain rfl := Option.some.inj hstep
      have hadapter := adapter_sendMessage m out
      exact ⟨trivial, idle_spec h (by rw [hadapter]) (by rw [hadapter]) (by rw [hadapter])⟩
    | advance i outcome =>
      obtain ⟨sending, _, rfl⟩ := Option.map_eq_some_iff.1 hstep
      have hadapter : (advance kind { m with sends := m.sends.eraseIdx i } sending
          outcome).adapter = m.adapter := adapter_advance _ sending outcome
      exact ⟨trivial, idle_spec h (by rw [hadapter]) (by rw [hadapter]) (by rw [hadapter])⟩
  exact ⟨fun m a m' h hstep => (hspec m a m' h hstep).2.2,
    fun m a m' h hstep => (hspec m a m' h hstep).1,
    fun m a m' h hstep => (hspec m a m' h hstep).2.1⟩

theorem Sequential.phase_eq_down (h : m.Sequential) :
    m.view.phase = .down ↔ m.isPending = false ∧ ¬m.IsUp := by
  constructor
  · intro hphase
    have hnot : ¬m.IsUp := fun hup => by
      rw [h.phase_up (h.connected.2 hup)] at hphase
      cases hphase
    refine ⟨Bool.eq_false_iff.2 fun hpending => ?_, hnot⟩
    obtain ⟨call, hmem, hconnecting⟩ := List.any_eq_true.1 hpending
    obtain ⟨i, hi⟩ := List.mem_iff_getElem?.1 hmem
    rw [view_of_latest (h.latest hi hconnecting).1] at hphase
    obtain hloading | htrying := isConnecting_iff_phase.1 hconnecting
    · cases hphase.symm.trans hloading
    · cases hphase.symm.trans htrying
  · rintro ⟨hidle, hnot⟩
    refine h.phase_down hidle (Bool.eq_false_iff.2 fun hconnected => ?_)
    exact hnot (h.connected.1 hconnected)

theorem sendMessage_held {k : Nat} (hclient : m.adapter.client = some k) {out : OutboundMessage}
    (htext : out.text ≠ []) : m.sendMessage out = m.resolve out := by
  rw [sendMessage, if_neg htext, hclient]

/-- A send keeps to the connection where no client is held without one. -/
theorem sendsWhileUp_iff_gated (h : m.Sequential) : m.SendsWhileUp ↔ m.view.Gated := by
  constructor
  · intro hsends hdown
    obtain ⟨hidle, hnot⟩ := h.phase_eq_down.1 hdown
    refine Bool.eq_false_iff.2 fun hheld => ?_
    obtain ⟨k, hk⟩ := Option.isSome_iff_exists.1 hheld
    let out : OutboundMessage := { channel := { id := js "!", type := .group }, text := js "a" }
    have htext : out.text ≠ [] := by decide
    have hroom : (js "!").isPrefixOf out.channel.id = true := by decide
    obtain ⟨_, hrefused⟩ := hsends hidle out htext
    have hlength := congrArg (fun m => m.sends.length) (hrefused hnot)
    rw [sendMessage_held hk htext] at hlength
    simp [resolve, hroom, await, answer, observe] at hlength
  · intro hgated hidle out htext
    have hrefused : ¬m.IsUp → m.sendMessage out = m.answer out notConnected := by
      intro hup
      have hheld : m.adapter.client.isSome = false := hgated (h.phase_eq_down.2 ⟨hidle, hup⟩)
      have hclient : m.adapter.client = none :=
        Option.not_isSome_iff_eq_none.1 (Bool.eq_false_iff.1 hheld)
      rw [sendMessage, if_neg htext, hclient]
    refine ⟨fun hcalls => ?_, hrefused⟩
    refine Classical.byContradiction fun hup => ?_
    rw [hrefused hup] at hcalls
    simp [platformCalls, answer, observe] at hcalls

theorem vouched_iff_clean (h : m.Sequential) {a : Step}
    (hstep : m.sequentialStep kind clientFactory a = some m') :
    m.Vouched a ↔ m.view.Clean (m.event clientFactory a) := by
  obtain ⟨_, hstep⟩ := sequentialStep_eq_some hstep
  cases a with
  | send out => exact Iff.rfl
  | advance i outcome => exact Iff.rfl
  | act action =>
    have hstep := act_eq_some hstep
    cases action with
    | connect made =>
      refine iff_of_true trivial ?_
      simp only [event]
      split
      · trivial
      · split
        · split <;> trivial
        · trivial
    | disconnect => exact Iff.rfl
    | loaded i made =>
      obtain ⟨hi, _⟩ := loaded_eq_some hstep
      have hphase : m.view.phase = .loading := h.phase_of_pending hi rfl
      refine iff_of_true trivial ?_
      simp only [event]
      split
      · trivial
      · simp [HeldClient.Clean, hphase]
    | whoami i result =>
      obtain ⟨hi, _⟩ := whoami_eq_some hstep
      have hphase : m.view.phase = .trying := h.phase_of_pending hi rfl
      have hclient := h.held hphase
      cases result <;>
        simp [Vouched, event, hclient, HeldClient.Clean, hphase, Except.isOk, Except.toBool]
    | started i result running =>
      obtain ⟨k, hi, _⟩ := started_eq_some hstep
      have hphase : m.view.phase = .trying := h.phase_of_pending hi rfl
      cases result <;>
        simp [Vouched, event, HeldClient.Clean, hphase, Except.isOk, Except.toBool]
    | onInbound handler => exact Iff.rfl
    | offInbound handler => exact Iff.rfl

theorem sequential_init : Sequential {} where
  settled _ h := nomatch h
  connected := by simp [IsUp]
  held h := nomatch h

/-- Sends keep to the connection in the runs in which no `connect` fails once it has made its
client. -/
theorem always_sendsWhileUp_iff {as : List Step}
    (hrun : run (sequentialStep kind clientFactory) {} as = some m) :
    Always (sequentialStep kind clientFactory) SendsWhileUp {} as ↔
      Meets (sequentialStep kind clientFactory) Vouched {} as := by
  refine realizes.always_iff_meets (fun _ => sendsWhileUp_iff_gated)
    (fun _ _ _ h hstep => vouched_iff_clean h hstep) sequential_init ?_ hrun
  simp [HeldClient.Sound, view]

end MatrixState
end TheokitGateways.Matrix
