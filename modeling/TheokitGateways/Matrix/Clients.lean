import TheokitGateways.Matrix.Adapter
import TheokitGateways.Records

/-!
# One client at a time

A `connect` that is pending is not seen by the calls that come after it: another
one replaces the client it has created, and a `disconnect` returns at once. As
long as no client that runs is replaced, left by a `disconnect` or started too
late, the one that runs is the one the adapter holds.
-/

namespace TheokitGateways.Matrix
open Js Gateway Records Transition

namespace MatrixAdapter

/-- A client runs and has a listener on its timeline. -/
def Live (s : MatrixAdapter) (k : Nat) : Prop :=
  ∃ c, s.clients[k]? = some c ∧ c.running = true ∧ c.listeners ≠ []

/-- One client at most is live, the next `disconnect` stops it, and none runs when the last call
is a `disconnect` and no `connect` is pending. -/
structure SingleClient (clientFactory : Bool) (s : MatrixAdapter) : Prop where
  exclusive : ∀ j k, s.Live j → s.Live k → j = k
  stops : ∀ k, s.Live k → ∃ s' c, s.step clientFactory .disconnect = some s' ∧
    s'.clients[k]? = some c ∧ c.running = false
  stopped : s.calls.getLast? = some .disconnected →
    (∀ call ∈ s.calls, call.isConnecting = false) → ∀ c ∈ s.clients, c.running = false

/-- The client that is held, if any, does not run. -/
def Idle (s : MatrixAdapter) : Prop :=
  ∀ k ∈ s.client, ∀ c ∈ s.clients[k]?, c.running = false

/-- A `connect` has started the client that is held. -/
def startsHeld (s : MatrixAdapter) (i : Nat) : Bool :=
  match s.calls[i]? with
  | some (.starting k) => s.client = some k
  | _ => false

/-- A client is created, and a `disconnect` is ignored, when the one that is held does not run;
and a client that was started runs only if it is still held and no `disconnect` came last. -/
def Timely (clientFactory : Bool) (s : MatrixAdapter) : Action → Prop
  | .connect (.ok ()) => clientFactory = false ∨ s.connected = true ∨ s.Idle
  | .disconnect => s.connected = true ∨ s.Idle
  | .loaded _ (.ok ()) => s.Idle
  | .started i _ running => running = false ∨
    (s.startsHeld i = true ∧ s.calls.getLast?.any Call.isDisconnected = false)
  | _ => True

instance (s : MatrixAdapter) : Decidable s.Idle :=
  inferInstanceAs (Decidable (∀ k ∈ s.client, ∀ c ∈ s.clients[k]?, c.running = false))

instance (clientFactory : Bool) (s : MatrixAdapter) :
    ∀ action, Decidable (s.Timely clientFactory action)
  | .connect (.ok ()) => inferInstanceAs (Decidable (_ ∨ _ ∨ s.Idle))
  | .disconnect => inferInstanceAs (Decidable (_ ∨ s.Idle))
  | .loaded _ (.ok ()) => inferInstanceAs (Decidable s.Idle)
  | .started .. => inferInstanceAs (Decidable (_ ∨ (_ ∧ _)))
  | .connect (.error _) | .loaded _ (.error _) | .whoami .. | .onInbound _ | .offInbound _ =>
    inferInstanceAs (Decidable True)

/-- What every step keeps under `Timely`. -/
structure Sound (s : MatrixAdapter) : Prop where
  held : ∀ (k : Nat) (c : Client), s.clients[k]? = some c → c.running = true → s.client = some k
  listening : ∀ (k : Nat) (c : Client), s.clients[k]? = some c → c.listeners ≠ [] →
    s.client = some k → s.connected = true
  bounded : ∀ k, s.client = some k → k < s.clients.length
  gone : s.calls.getLast? = some .disconnected → ∀ c ∈ s.clients, c.running = false

variable {clientFactory : Bool} {s s' : MatrixAdapter} {action : Action}

/-- When the client that is held does not run, none does. -/
theorem Sound.stopped_of_idle (h : s.Sound) (hidle : s.Idle) :
    ∀ c ∈ s.clients, c.running = false := by
  intro c hc
  obtain ⟨k, hk⟩ := List.mem_iff_getElem?.1 hc
  refine Bool.eq_false_iff.2 fun hrunning => ?_
  have hfalse := hidle k (h.held k c hk hrunning) c hk
  rw [hrunning] at hfalse
  cases hfalse

/-! ## Steps -/

/-- A call goes on, and is no `disconnect`. -/
theorem Sound.setCall (h : s.Sound) (i : Nat) {call : Call} (hcall : call.isDisconnected = false) :
    (s.setCall i call).Sound := by
  refine ⟨h.held, h.listening, h.bounded, fun hlast => ?_⟩
  obtain hcall' | hlast := getLast?_set_eq_some hlast
  · rw [← hcall'] at hcall
    cases hcall
  · exact h.gone hlast

/-- A call is made that is no `disconnect`. -/
theorem Sound.addCall (h : s.Sound) {call : Call} (hcall : call.isDisconnected = false) :
    Sound { s with calls := s.calls ++ [call] } := by
  refine ⟨h.held, h.listening, h.bounded, fun hlast => ?_⟩
  rw [List.getLast?_concat, Option.some.injEq] at hlast
  rw [hlast] at hcall
  cases hcall

theorem sound_create (h : s.Sound) (hidle : s.Idle) : s.create.Sound := by
  have hstopped := h.stopped_of_idle hidle
  refine ⟨fun k c hc hrunning => ?_, fun k c hc hlisteners hk => ?_, fun k hk => ?_,
    fun hlast c hc => ?_⟩
  · obtain hc | ⟨_, rfl⟩ := getElem?_append_singleton.1 hc
    · rw [hstopped c (List.mem_of_getElem? hc)] at hrunning
      cases hrunning
    · cases hrunning
  · obtain rfl : s.clients.length = k := Option.some.inj hk
    obtain hc | ⟨_, rfl⟩ := getElem?_append_singleton.1 hc
    · have hlt := (List.getElem?_eq_some_iff.1 hc).1
      omega
    · exact absurd rfl hlisteners
  · obtain rfl : s.clients.length = k := Option.some.inj hk
    simp [create]
  · obtain hc | hc := List.mem_append.1 hc
    · exact hstopped c hc
    · obtain rfl := List.mem_singleton.1 hc
      rfl

theorem sound_connect (h : s.Sound) {made : Except JsAny Unit}
    (hC : s.Timely clientFactory (.connect made)) : (s.connect clientFactory made).Sound := by
  unfold connect
  split
  · exact h.addCall rfl
  · rename_i hdown
    have hfresh : Sound { s with tearingDown := false } :=
      ⟨h.held, h.listening, h.bounded, h.gone⟩
    dsimp only
    split
    · rename_i hfactory
      split
      · have hidle : s.Idle := (hC.resolve_left (by simp [hfactory])).resolve_left hdown
        exact (sound_create hfresh hidle).addCall rfl
      · exact hfresh.addCall rfl
    · exact hfresh.addCall rfl

theorem sound_loaded (h : s.Sound) (i : Nat) {made : Except JsAny Unit}
    (hC : s.Timely clientFactory (.loaded i made)) : (s.loaded i made).Sound := by
  cases made with
  | ok => exact (sound_create h hC).setCall i rfl
  | error err => exact h.setCall i rfl

theorem sound_whoami (h : s.Sound) (i : Nat) (result : Except JsAny Unit) :
    (s.whoami i result).Sound := by
  cases result with
  | ok =>
    unfold whoami
    dsimp only
    split <;> exact h.setCall i rfl
  | error err => exact h.setCall i rfl

/-- `startClient` leaves a client as it says. -/
theorem sound_modify_running (h : s.Sound) (k : Nat) (running : Bool)
    (hkept : running = true → s.client = some k ∧ s.calls.getLast? ≠ some .disconnected) :
    (s.modifyClient k fun c => { c with running := running }).Sound := by
  have hlength : (s.clients.modify k fun c => { c with running := running }).length =
      s.clients.length := List.length_modify ..
  refine ⟨fun j c hc hrunning => ?_, fun j c hc hlisteners hj => ?_, fun j hj => ?_,
    fun hlast c hc => ?_⟩
  · obtain ⟨before, hbefore, rfl⟩ := getElem?_modify_eq_some.1 hc
    split at hrunning
    · subst k
      exact (hkept hrunning).1
    · exact h.held j before hbefore hrunning
  · obtain ⟨before, hbefore, rfl⟩ := getElem?_modify_eq_some.1 hc
    refine h.listening j before hbefore ?_ hj
    split at hlisteners <;> exact hlisteners
  · have hlt := h.bounded j hj
    show j < (s.clients.modify k _).length
    omega
  · obtain ⟨j, hj⟩ := List.mem_iff_getElem?.1 hc
    obtain ⟨before, hbefore, rfl⟩ := getElem?_modify_eq_some.1 hj
    split
    · exact Bool.eq_false_iff.2 fun hrunning => (hkept hrunning).2 hlast
    · exact h.gone hlast before (List.mem_of_getElem? hbefore)

/-- A client that is subscribed to is connected. -/
theorem sound_attachSync (h : s.Sound) (listener : Nat) :
    Sound { s.attachSync listener with connected := true } := by
  unfold attachSync
  split
  · exact ⟨h.held, fun _ _ _ _ _ => rfl, h.bounded, h.gone⟩
  · rename_i k hk
    have hrunning : (s.clients.modify k fun c =>
        { c with listeners := c.listeners ++ [listener] }).map (·.running) =
        s.clients.map (·.running) := map_modify_eq fun _ => rfl
    have hlength := congrArg List.length hrunning
    rw [List.length_map, List.length_map] at hlength
    refine ⟨fun j c hc hup => ?_, fun _ _ _ _ _ => rfl, fun j hj => ?_, fun hlast c hc => ?_⟩
    · obtain ⟨before, hbefore, hsame⟩ := exists_of_map_eq hrunning hc
      exact h.held j before hbefore (hsame.trans hup)
    · have hlt := h.bounded j hj
      show j < (s.clients.modify k _).length
      omega
    · obtain ⟨j, hj⟩ := List.mem_iff_getElem?.1 hc
      obtain ⟨before, hbefore, hsame⟩ := exists_of_map_eq hrunning hj
      rw [← hsame]
      exact h.gone hlast before (List.mem_of_getElem? hbefore)

theorem sound_started (h : s.Sound) {i k : Nat} (hi : s.calls[i]? = some (.starting k))
    {result : Except JsAny Unit} {running : Bool}
    (hC : s.Timely clientFactory (.started i result running)) :
    (s.started i k result running).Sound := by
  have hkept (hrunning : running = true) :
      s.client = some k ∧ s.calls.getLast? ≠ some .disconnected := by
    obtain ⟨hheld, hlast⟩ := hC.resolve_left (by simp [hrunning])
    refine ⟨by simpa [startsHeld, hi] using hheld, fun hgone => ?_⟩
    rw [hgone] at hlast
    cases hlast
  have hmodified := sound_modify_running h k running hkept
  unfold started
  cases result with
  | ok => exact (sound_attachSync hmodified i).setCall i rfl
  | error err => exact hmodified.setCall i rfl

/-! ## A `disconnect` -/

theorem running_unsubscribe :
    s.unsubscribe.clients.map (·.running) = s.clients.map (·.running) := by
  unfold unsubscribe
  split
  · rfl
  · exact map_modify_eq fun _ => rfl

theorem client_unsubscribe : s.unsubscribe.client = s.client := by
  unfold unsubscribe
  split <;> rfl

/-- The client that is held is stopped, and the others are left as they are. -/
theorem running_stopClient {k : Nat} {c : Client}
    (hc : s.stopClient.clients[k]? = some c) :
    ∃ before, s.clients[k]? = some before ∧
      c.running = if s.client = some k then false else before.running := by
  unfold stopClient at hc
  split at hc
  · exact ⟨c, hc, by simp_all⟩
  · rename_i j hj
    obtain ⟨before, hbefore, rfl⟩ := getElem?_modify_eq_some.1 hc
    refine ⟨before, hbefore, ?_⟩
    rw [hj]
    split <;> simp_all

/-- A `disconnect` of a connected adapter stops every client. -/
theorem Sound.stopped_disconnect (h : s.Sound) {k : Nat} {c : Client}
    (hc : s.unsubscribe.stopClient.clients[k]? = some c) : c.running = false := by
  obtain ⟨middle, hmiddle, hrunning⟩ := running_stopClient hc
  obtain ⟨before, hbefore, hsame⟩ := exists_of_map_eq running_unsubscribe hmiddle
  rw [hrunning]
  split
  · rfl
  · rename_i hother
    rw [← hsame]
    refine Bool.eq_false_iff.2 fun hup => hother ?_
    rw [client_unsubscribe]
    exact h.held k before hbefore hup

/-- No client is forgotten. -/
theorem exists_stopped {k : Nat} (hk : k < s.clients.length) :
    ∃ c, s.unsubscribe.stopClient.clients[k]? = some c := by
  have hlength : s.unsubscribe.clients.length = s.clients.length := by
    simpa using congrArg List.length (@running_unsubscribe s)
  have hlength' : s.unsubscribe.stopClient.clients.length = s.unsubscribe.clients.length := by
    unfold stopClient
    split
    · rfl
    · exact List.length_modify ..
  exact ⟨_, List.getElem?_eq_getElem (by omega)⟩

theorem clients_disconnect (hconnected : s.connected = true) :
    s.disconnect.clients = s.unsubscribe.stopClient.clients := by
  have htearing : ∀ s : MatrixAdapter,
      (unsubscribe { s with tearingDown := true }).stopClient.clients =
      s.unsubscribe.stopClient.clients := by
    intro s
    unfold stopClient
    rw [client_unsubscribe, client_unsubscribe]
    unfold unsubscribe
    cases s.subscription <;> cases s.client <;> rfl
  unfold disconnect
  rw [if_pos hconnected]
  exact htearing s

theorem client_disconnect (hconnected : s.connected = true) : s.disconnect.client = none := by
  unfold disconnect
  rw [if_pos hconnected]

theorem sound_disconnect (h : s.Sound) (hC : s.Timely clientFactory .disconnect) :
    s.disconnect.Sound := by
  cases hconnected : s.connected with
  | true =>
    have hnone := client_disconnect hconnected
    have hstopped {k : Nat} {c : Client} (hc : s.disconnect.clients[k]? = some c) :
        c.running = false := by
      rw [clients_disconnect hconnected] at hc
      exact h.stopped_disconnect hc
    refine ⟨fun k c hc hup => ?_, fun k _ _ _ hk => ?_, fun k hk => ?_, fun _ c hc => ?_⟩
    · rw [hstopped hc] at hup
      cases hup
    · cases hnone.symm.trans hk
    · cases hnone.symm.trans hk
    · obtain ⟨k, hk⟩ := List.mem_iff_getElem?.1 hc
      exact hstopped hk
  | false =>
    have hidle : s.Idle := hC.resolve_left (by simp [hconnected])
    unfold disconnect
    rw [if_neg (by simp [hconnected])]
    exact ⟨h.held, h.listening, h.bounded, fun _ => h.stopped_of_idle hidle⟩

/-! ## Runs -/

theorem sound_init : Sound {} where
  held _ _ h := nomatch h
  listening _ _ h := nomatch h
  bounded _ h := nomatch h
  gone h := nomatch h

theorem sound_step (h : s.Sound) (hC : s.Timely clientFactory action)
    (hstep : s.step clientFactory action = some s') : s'.Sound := by
  cases action with
  | connect made =>
    obtain rfl := Option.some.inj hstep
    exact sound_connect h hC
  | disconnect =>
    obtain rfl := Option.some.inj hstep
    exact sound_disconnect h hC
  | loaded i made =>
    obtain ⟨call, _, hstep⟩ := Option.bind_eq_some_iff.1 hstep
    split at hstep
    · obtain rfl := Option.some.inj hstep
      exact sound_loaded h i hC
    · cases hstep
  | whoami i result =>
    obtain ⟨call, _, hstep⟩ := Option.bind_eq_some_iff.1 hstep
    split at hstep
    · obtain rfl := Option.some.inj hstep
      exact sound_whoami h i result
    · cases hstep
  | started i result running =>
    obtain ⟨call, hi, hstep⟩ := Option.bind_eq_some_iff.1 hstep
    split at hstep
    · obtain rfl := Option.some.inj hstep
      exact sound_started h hi hC
    · cases hstep
  | onInbound handler =>
    obtain rfl := Option.some.inj hstep
    exact ⟨h.held, h.listening, h.bounded, h.gone⟩
  | offInbound handler =>
    obtain rfl := Option.some.inj hstep
    split
    · exact ⟨h.held, h.listening, h.bounded, h.gone⟩
    · exact h

theorem Sound.singleClient (h : s.Sound) : s.SingleClient clientFactory where
  exclusive j k hj hk := by
    obtain ⟨c, hc, hup, _⟩ := hj
    obtain ⟨d, hd, hup', _⟩ := hk
    exact Option.some.inj ((h.held j c hc hup).symm.trans (h.held k d hd hup'))
  stops k hk := by
    obtain ⟨c, hc, hup, hlisteners⟩ := hk
    have hconnected := h.listening k c hc hlisteners (h.held k c hc hup)
    obtain ⟨stopped, hstopped⟩ := exists_stopped (List.getElem?_eq_some_iff.1 hc).1
    refine ⟨s.disconnect, stopped, rfl, ?_, h.stopped_disconnect hstopped⟩
    rw [clients_disconnect hconnected]
    exact hstopped
  stopped hlast _ := h.gone hlast

/-- As long as every step is timely, one client at most is live, and none runs after the last
`disconnect`. -/
theorem singleClient_of_timely (clientFactory : Bool) (as : List Action) (s : MatrixAdapter)
    (hrun : run (step clientFactory) {} as = some s)
    (htimely : Meets (step clientFactory) (Timely clientFactory) {} as) :
    s.SingleClient clientFactory :=
  (invariant_of_meets (fun _ _ _ h hC hstep => sound_step h hC hstep) sound_init htimely
    hrun).singleClient

/-- A `connect` fails before another one succeeds, and is disconnected. -/
def reconnected : List Action :=
  [.connect (.ok ()), .whoami 0 (.error .undefined), .connect (.ok ()), .whoami 1 (.ok ()),
    .started 1 (.ok ()) true, .disconnect]

theorem singleClient_of_timely_reconnected : ∃ s, run (step true) {} reconnected = some s ∧
    s.SingleClient true := by
  have hsome : (run (step true) {} reconnected).isSome = true := by decide +kernel
  obtain ⟨s, hrun⟩ := Option.isSome_iff_exists.1 hsome
  exact ⟨s, hrun, singleClient_of_timely true reconnected s hrun (by decide +kernel)⟩

/-- A `disconnect` that is made while a `connect` is pending leaves its client running. -/
theorem disconnect_leaves_client : ¬ ∀ (clientFactory : Bool) (as : List Action)
    (s : MatrixAdapter), run (step clientFactory) {} as = some s →
      s.SingleClient clientFactory := by
  intro h
  have hany : (run (step true) {} [.connect (.ok ()), .disconnect, .whoami 0 (.ok ()),
      .started 0 (.ok ()) true]).any (fun s => (s.calls.getLast?.any Call.isDisconnected &&
        s.calls.all (!·.isConnecting)) && s.clients.any (·.running)) = true := by
    decide +kernel
  obtain ⟨s, hrun, hs⟩ := (Option.any_eq_true _ _).1 hany
  simp only [Bool.and_eq_true, List.all_eq_true, List.any_eq_true, Bool.not_eq_true'] at hs
  obtain ⟨⟨hlast, hsettled⟩, c, hc, hrunning⟩ := hs
  obtain ⟨call, hcall, hdisconnected⟩ := (Option.any_eq_true _ _).1 hlast
  have hdown : c.running = false := by
    refine (h true _ s hrun).stopped ?_ hsettled c hc
    cases call <;> first | exact hcall | cases hdisconnected
  rw [hrunning] at hdown
  cases hdown

end MatrixAdapter
end TheokitGateways.Matrix
