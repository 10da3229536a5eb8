import TheokitGateways.Js.Convert
import TheokitGateways.Records
import TheokitGateways.WhatsApp.Web.Backend

/-!
# One bridge at a time

Nothing keeps a `connect` from spawning a bridge while another one runs, and a
`disconnect` does nothing until a bridge is ready. As long as no bridge that runs
is spawned over, let go of, or ready too late, the one that runs is the one the
backend holds.
-/

namespace TheokitGateways.WhatsApp.Web
open Js Gateway Records Transition

namespace WhatsAppWebBackend

/-- No bridge is running. -/
def Unused (b : WhatsAppWebBackend) : Prop := ∀ child ∈ b.children, child.running = false

/-- One bridge runs at most, and none when the last call was a `disconnect` that has settled and
no `connect` is pending. -/
structure SingleBridge (b : WhatsAppWebBackend) : Prop where
  exclusive : ∀ (i j : Nat) (c d : Child), b.children[i]? = some c → b.children[j]? = some d →
    c.running = true → d.running = true → i = j
  stopped : b.calls.getLast? = some .disconnected →
    (∀ call ∈ b.calls, call.isConnecting = false) → b.Unused

/-- A `disconnect` that has settled. -/
def isDisconnected : Call → Bool
  | .disconnected => true
  | _ => false

/-- A `connect` other than a call is pending. -/
def othersConnect (b : WhatsAppWebBackend) (i : Nat) : Bool :=
  (b.calls.eraseIdx i).any Call.isConnecting

/-- A `connect` whose bridge is ready goes on when the last call is a `disconnect`, and it is the
only one pending. -/
def readyTooLate (b : WhatsAppWebBackend) (i : Nat) : Bool :=
  match b.calls[i]? with
  | some (.racing (some (.ok _))) => b.calls.getLast?.any isDisconnected && !b.othersConnect i
  | _ => false

/-- While a bridge runs, no other one is spawned, no call that terminates a bridge lets go of it,
no `disconnect` is ignored but for a `connect` that is pending, and none is ready too late. -/
def Attended (b : WhatsAppWebBackend) : Action → Prop
  | .connect (.ok ()) => b.connected = true ∨ b.Unused
  | .disconnect => b.connected = true ∨ b.calls.any Call.isConnecting = true ∨ b.Unused
  | .resume i => b.readyTooLate i = false ∨ b.Unused
  | .finish _ => b.Unused
  | _ => True

instance (b : WhatsAppWebBackend) : Decidable b.Unused :=
  inferInstanceAs (Decidable (∀ child ∈ b.children, child.running = false))

instance (b : WhatsAppWebBackend) : ∀ action, Decidable (b.Attended action)
  | .connect (.ok ()) | .resume _ => inferInstanceAs (Decidable (_ ∨ b.Unused))
  | .disconnect => inferInstanceAs (Decidable (_ ∨ _ ∨ b.Unused))
  | .finish _ => inferInstanceAs (Decidable b.Unused)
  | .connect (.error _) | .stdout .. | .dispatch _ | .cutShort | .timeout _ | .exit _ | .kill _
  | .onInbound _ | .offInbound _ => inferInstanceAs (Decidable True)

/-- What every step keeps under `Attended`. -/
structure Sound (b : WhatsAppWebBackend) : Prop where
  owned : ∀ (k : Nat) (child : Child), b.children[k]? = some child → child.running = true →
    b.handle = some k
  stopped : b.calls.getLast? = some .disconnected →
    (∀ call ∈ b.calls, call.isConnecting = false) → b.Unused

variable {timeoutMs : JsString} {b b' : WhatsAppWebBackend} {action : Action}

theorem Sound.singleBridge (h : b.Sound) : b.SingleBridge where
  exclusive i j c d hi hj hc hd :=
    Option.some.inj ((h.owned i c hi hc).symm.trans (h.owned j d hj hd))
  stopped := h.stopped

/-- Without a bridge that is held, none runs. -/
theorem Sound.unused_of_handle (h : b.Sound) (hnone : b.handle = none) : b.Unused := by
  intro child hmem
  obtain ⟨k, hk⟩ := List.mem_iff_getElem?.1 hmem
  refine Bool.eq_false_iff.2 fun hrunning => ?_
  rw [h.owned k child hk hrunning] at hnone
  cases hnone

/-- When none runs, whatever the calls have come to. -/
theorem Unused.sound (h : b.Unused) : b.Sound := by
  refine ⟨fun k child hk hrunning => ?_, fun _ _ => h⟩
  rw [h child (List.mem_of_getElem? hk)] at hrunning
  cases hrunning

/-! ## Steps that change no call and no bridge -/

/-- A call without how its race ended. -/
def shape : Call → Call
  | .racing _ => .racing none
  | call => call

/-- What `Sound` is about. -/
def core (b : WhatsAppWebBackend) : Option Nat × List Bool × List Call :=
  (b.handle, b.children.map (·.running), b.calls.map shape)

theorem isConnecting_shape (call : Call) : (shape call).isConnecting = call.isConnecting := by
  cases call <;> rfl

theorem eq_disconnected_of_shape {call : Call} (h : shape call = .disconnected) :
    call = .disconnected := by
  cases call <;> first | rfl | cases h

theorem Unused.of_core (h : b.Unused) (hrunning : b'.children.map (·.running) =
    b.children.map (·.running)) : b'.Unused := by
  intro child hmem
  obtain ⟨k, hk⟩ := List.mem_iff_getElem?.1 hmem
  obtain ⟨before, hbefore, hsame⟩ := exists_of_map_eq hrunning hk
  rw [← hsame]
  exact h before (List.mem_of_getElem? hbefore)

theorem Sound.of_core (h : b.Sound) (hcore : b'.core = b.core) : b'.Sound := by
  simp only [core, Prod.mk.injEq] at hcore
  obtain ⟨hhandle, hrunning, hcalls⟩ := hcore
  refine ⟨fun k child hk hup => ?_, fun hlast hnone => ?_⟩
  · obtain ⟨before, hbefore, hsame⟩ := exists_of_map_eq hrunning hk
    rw [hhandle]
    exact h.owned k before hbefore (hsame.trans hup)
  · refine (h.stopped ?_ fun call hmem => ?_).of_core hrunning
    · have hshape : (b.calls.map shape).getLast? = some .disconnected := by
        rw [← hcalls, List.getLast?_map, hlast]
        rfl
      rw [List.getLast?_map] at hshape
      obtain ⟨call, hcall, heq⟩ := Option.map_eq_some_iff.1 hshape
      rw [hcall, eq_disconnected_of_shape heq]
    · obtain ⟨i, hi⟩ := List.mem_iff_getElem?.1 hmem
      obtain ⟨call', hcall', hsame⟩ := exists_of_map_eq hcalls.symm hi
      rw [← isConnecting_shape, ← hsame, isConnecting_shape]
      exact hnone call' (List.mem_of_getElem? hcall')

theorem shape_settle (outcome : Except JsAny JsString) (call : Call) :
    shape (call.settle outcome) = shape call := by
  cases call with
  | racing race => cases race <;> rfl
  | _ => rfl

theorem core_settleAll (waiting : List Nat) (outcome : Except JsAny JsString) :
    (b.settleAll waiting outcome).core = b.core := by
  have hcalls : (b.settleAll waiting outcome).calls.map shape = b.calls.map shape := by
    refine List.ext_getElem? fun i => ?_
    simp only [settleAll, List.getElem?_map, List.getElem?_mapIdx]
    cases b.calls[i]? with
    | none => rfl
    | some call =>
      simp only [Option.map_some]
      split
      · rw [shape_settle]
      · rfl
  simp only [core, hcalls]
  rfl

theorem core_handleReady (botPhone : JsString) : (b.handleReady botPhone).core = b.core :=
  core_settleAll (b := b) b.readyResolvers (.ok botPhone)

theorem core_handleMessage (message : IpcMessage) (raw : Json) (now : JsNumber) :
    (b.handleMessage message raw now).core = b.core := by
  unfold handleMessage
  split <;> rfl

theorem core_handleBridgeError (message : JsString) (code : Option JsString) :
    (b.handleBridgeError message code).core = b.core :=
  core_settleAll (b := b) b.connectRejectors (.error (bridgeError message code))

theorem core_dispatch (event : Json) (now : JsNumber) : (b.dispatch event now).core = b.core := by
  unfold dispatch
  dsimp only
  split
  · rw [core_handleReady]
    rfl
  · rw [core_handleMessage]
    rfl
  · rw [core_handleBridgeError]
    rfl
  · rfl

/-! ## Bridges that end -/

/-- Changes of a bridge after which it runs only if it ran before. -/
theorem Sound.modifyChild (h : b.Sound) {k : Nat} {f : Child → Child}
    (hf : ∀ child, (f child).running = true → child.running = true) :
    (b.modifyChild k f).Sound := by
  have hbefore {j : Nat} {child : Child} (hj : (b.children.modify k f)[j]? = some child)
      (hup : child.running = true) : ∃ before, b.children[j]? = some before ∧
        before.running = true := by
    obtain ⟨before, hbefore, rfl⟩ := getElem?_modify_eq_some.1 hj
    refine ⟨before, hbefore, ?_⟩
    split at hup
    · exact hf before hup
    · exact hup
  refine ⟨fun j child hj hup => ?_, fun hlast hnone child hmem => ?_⟩
  · obtain ⟨before, hbefore, hrunning⟩ := hbefore hj hup
    exact h.owned j before hbefore hrunning
  · obtain ⟨j, hj⟩ := List.mem_iff_getElem?.1 hmem
    refine Bool.eq_false_iff.2 fun hup => ?_
    obtain ⟨before, hbefore, hrunning⟩ := hbefore hj hup
    rw [h.stopped hlast hnone before (List.mem_of_getElem? hbefore)] at hrunning
    cases hrunning

/-- `terminateBridge` only signals a bridge. -/
theorem core_terminateBridge (k : Nat) : (b.terminateBridge k).1.core = b.core := by
  unfold terminateBridge
  split
  · split
    · rfl
    · have hrunning : (b.children.modify k fun child => { child with killed := true }).map
          (·.running) = b.children.map (·.running) := map_modify_eq fun _ => rfl
      simp only [core, WhatsAppWebBackend.modifyChild, hrunning]
  · rfl

/-! ## Calls -/

/-- A call is made that is no `disconnect` that has settled. -/
theorem Sound.addCall (h : b.Sound) {call : Call} (hcall : isDisconnected call = false) :
    Sound { b with calls := b.calls ++ [call] } := by
  refine ⟨h.owned, fun hlast => ?_⟩
  rw [List.getLast?_concat, Option.some.injEq] at hlast
  rw [hlast] at hcall
  cases hcall

theorem sound_connect (h : b.Sound) {spawned : Except JsAny Unit}
    (hC : b.Attended (.connect spawned)) : (b.connect spawned).Sound := by
  unfold connect
  split
  · exact h.addCall rfl
  · rename_i hdown
    split
    · exact h.addCall rfl
    · have hunused : b.Unused := hC.resolve_left hdown
      refine ⟨fun k child hk hup => ?_, fun hlast => ?_⟩
      · obtain hk | ⟨rfl, _⟩ := getElem?_append_singleton.1 hk
        · rw [hunused child (List.mem_of_getElem? hk)] at hup
          cases hup
        · rfl
      · rw [List.getLast?_concat] at hlast
        cases hlast

theorem sound_disconnect (h : b.Sound) (hC : b.Attended .disconnect) : b.disconnect.Sound := by
  unfold disconnect
  split
  · exact (h.of_core (core_terminateBridge _)).addCall rfl
  · rename_i hnot
    refine ⟨h.owned, fun _ hnone => ?_⟩
    obtain hconnected | hconnecting | hunused := hC
    · refine h.unused_of_handle ?_
      cases hhandle : b.handle with
      | none => rfl
      | some k => exact (hnot k hconnected hhandle).elim
    · obtain ⟨call, hmem, hcall⟩ := List.any_eq_true.1 hconnecting
      rw [hnone call (List.mem_append_left _ hmem)] at hcall
      cases hcall
    · exact hunused

/-- A call that goes on settles; when it was the only `connect` that was pending, no bridge may
run after a last `disconnect`. -/
theorem Sound.setCall (h : b.Sound) {i : Nat} {call : Call} (hcall : isDisconnected call = false)
    (hlate : b.calls.getLast? = some .disconnected → b.othersConnect i = false → b.Unused) :
    (b.setCall i call).Sound := by
  refine ⟨h.owned, fun hlast hnone => ?_⟩
  obtain hcall' | hlast := getLast?_set_eq_some hlast
  · rw [← hcall'] at hcall
    cases hcall
  · refine hlate hlast (Bool.eq_false_iff.2 fun hothers => ?_)
    obtain ⟨other, hmem, hconnecting⟩ := List.any_eq_true.1 hothers
    rw [hnone other (mem_set_of_mem_eraseIdx hmem)] at hconnecting
    cases hconnecting

theorem sound_resume (h : b.Sound) {i : Nat} {outcome : Except JsAny JsString}
    (hi : b.calls[i]? = some (.racing (some outcome))) (hC : b.Attended (.resume i)) :
    (b.resume i outcome).Sound := by
  cases outcome with
  | ok phone =>
    have hset : (b.setCall i (.connected (.ok true))).Sound := by
      refine h.setCall rfl fun hlast hothers => hC.resolve_left ?_
      simp [readyTooLate, hi, hlast, hothers, isDisconnected]
    exact ⟨hset.owned, hset.stopped⟩
  | error err =>
    unfold resume
    dsimp only
    split
    · rename_i k _
      have hterminated := h.of_core (core_terminateBridge k)
      refine ⟨hterminated.owned, fun _ hnone => ?_⟩
      -- The call is still pending.
      have hlength : i < (b.terminateBridge k).1.calls.length := by
        have hcalls := congrArg (fun core => core.2.2.length) (core_terminateBridge (b := b) k)
        simp only [core, List.length_map] at hcalls
        rw [hcalls]
        exact (List.getElem?_eq_some_iff.1 hi).1
      cases hnone _ (List.mem_of_getElem? (List.getElem?_set_self hlength))
    · rename_i hhandle
      have hset : (b.setCall i (.connected (.error err))).Sound :=
        h.setCall rfl fun _ _ => h.unused_of_handle hhandle
      exact ⟨hset.owned, hset.stopped⟩

theorem sound_init : Sound {} := by
  apply Unused.sound
  intro child hmem
  cases hmem

theorem sound_step (h : b.Sound) (hC : b.Attended action)
    (hstep : b.step timeoutMs action = some b') : b'.Sound := by
  cases steps_of_step hstep with
  | connect spawned => exact sound_connect h hC
  | disconnect => exact sound_disconnect h hC
  | @stdout k hidle chunk =>
    have hsound := h.modifyChild (k := k) (f := fun child =>
      { child with output := child.output ++ chunk }) fun _ hup => hup
    exact ⟨hsound.owned, hsound.stopped⟩
  | dispatch => exact h.of_core (core_dispatch ..)
  | timeout i => exact h.of_core (core_settleAll ..)
  | resume hi => exact sound_resume h hi hC
  | exit | kill => exact h.modifyChild fun _ hup => nomatch hup
  | failed | finish =>
    have hunused : b.Unused := hC
    exact Unused.sound hunused
  | through | skip | cutShort | onInbound => exact h.of_core rfl
  | offInbound handler =>
    split
    · exact h.of_core rfl
    · exact h

/-- As long as every bridge that runs is attended to, one runs at most, and none once the last
`disconnect` has settled and no `connect` is pending. -/
theorem singleBridge_of_attended (timeoutMs : JsString) (as : List Action)
    (b : WhatsAppWebBackend) (hrun : run (step timeoutMs) {} as = some b)
    (hattended : Meets (step timeoutMs) Attended {} as) : b.SingleBridge :=
  (invariant_of_meets (fun _ _ _ h hC hstep => sound_step h hC hstep) sound_init hattended
    hrun).singleBridge

/-- The line that a bridge writes when it is ready. -/
def readyLine : JsString := (Json.object [(js "event", .string (js "ready")),
  (js "botPhone", .string (js "1"))]).stringify ++ [newline]

/-- The first bridge is ready, and its `connect` goes on. -/
def readied : List Action := [.stdout 0 readyLine, .dispatch 0, .dispatch 0, .resume 0]

theorem singleBridge_of_attended_stopped : ∃ b, run (step (js "120000")) {}
    ([.connect (.ok ())] ++ readied ++ [.disconnect, .exit 0, .finish 1]) = some b ∧
      b.SingleBridge := by
  have hsome : (run (step (js "120000")) {}
      ([.connect (.ok ())] ++ readied ++ [.disconnect, .exit 0, .finish 1])).isSome = true := by
    decide +kernel
  obtain ⟨b, hrun⟩ := Option.isSome_iff_exists.1 hsome
  exact ⟨b, hrun, singleBridge_of_attended (js "120000") _ b hrun (by decide +kernel)⟩

/-- A `disconnect` before the bridge is ready leaves it running. -/
theorem disconnect_leaves_bridge : ¬ ∀ (timeoutMs : JsString) (as : List Action)
    (b : WhatsAppWebBackend), run (step timeoutMs) {} as = some b → b.SingleBridge := by
  intro h
  have hany : (run (step (js "120000")) {} ([.connect (.ok ()), .disconnect] ++ readied)).any
      (fun b => (b.calls.getLast?.any isDisconnected && b.calls.all (!·.isConnecting)) &&
        b.children.any (·.running)) = true := by
    decide +kernel
  obtain ⟨b, hrun, hb⟩ := (Option.any_eq_true _ _).1 hany
  simp only [Bool.and_eq_true, List.all_eq_true, List.any_eq_true, Bool.not_eq_true'] at hb
  obtain ⟨⟨hlast, hsettled⟩, child, hchild, hrunning⟩ := hb
  obtain ⟨call, hcall, hdisconnected⟩ := (Option.any_eq_true _ _).1 hlast
  have hdown : b.Unused := by
    refine (h (js "120000") _ b hrun).stopped ?_ hsettled
    cases call <;> first | exact hcall | cases hdisconnected
  rw [hdown child hchild] at hrunning
  cases hrunning

end WhatsAppWebBackend
end TheokitGateways.WhatsApp.Web
