import Mathlib.Data.List.Perm.Basic
import TheokitGateways.Mattermost.Adapter
import TheokitGateways.Records

/-!
# One websocket at a time

A `connect` that is pending is seen neither by the `connect`s nor by the
`disconnect`s that come after it. As long as it attaches its listener to an
adapter that is not connected, and none was disconnected since the last `connect`
was made, the websocket it has opened is the only one that is heard.
-/

namespace TheokitGateways.Mattermost
open Js Gateway Records Transition

namespace MattermostAdapter

/-- A websocket is open and has a listener. -/
def Live (s : MattermostAdapter) (w : Nat) : Prop :=
  ∃ socket, s.sockets[w]? = some socket ∧ socket.isOpen = true ∧ socket.listeners ≠ []

/-- One websocket at most is heard, no event is handed over twice, and none is open when the last
call was a `disconnect` and no `connect` is pending. -/
structure OneSocket (s : MattermostAdapter) : Prop where
  exclusive : ∀ v w, s.Live v → s.Live w → v = w
  once : (s.delivered.map Prod.snd).Nodup
  closed : s.calls.getLast? = some .disconnected → (∀ call ∈ s.calls, call.isConnecting = false) →
    ∀ socket ∈ s.sockets, socket.isOpen = false

/-- A `connect` attaches its listener only while the adapter is not connected and the last call is
no `disconnect`. -/
def Timely (s : MattermostAdapter) : Action → Prop
  | .attached _ => s.connected = false ∧ s.calls.getLast?.any Call.isDisconnected = false
  | _ => True

instance (s : MattermostAdapter) : ∀ action, Decidable (s.Timely action)
  | .attached _ => inferInstanceAs (Decidable (_ ∧ _))
  | .connect | .disconnect | .loaded .. | .authenticated .. | .posted | .processed .. | .onInbound _
  | .offInbound _ => inferInstanceAs (Decidable True)

/-- The websockets, while they are held or belong to a `connect` that has still to attach. -/
structure Sound (s : MattermostAdapter) : Prop where
  /-- An open websocket is the one that is held, or no one hears it yet. -/
  owned : ∀ (w : Nat) (socket : WebSocket), s.sockets[w]? = some socket → socket.isOpen = true →
    s.connected = true ∧ s.handle = some w ∧ (∃ i, s.wsListener = some i ∧ socket.listeners = [i]) ∨
    socket.listeners = [] ∧ ∃ i : Nat, s.calls[i]? = some (.opened w)
  /-- A `connect` that has opened a websocket is the only one that knows it. -/
  opened : ∀ i w : Nat, s.calls[i]? = some (.opened w) → s.handle ≠ some w ∧
    s.sockets[w]? = some {} ∧ ∀ j : Nat, s.calls[j]? = some (.opened w) → i = j
  bounded : ∀ w, s.handle = some w → w < s.sockets.length
  idle : s.connected = false → s.handle = none ∧ s.wsListener = none
  gone : s.calls.getLast? = some .disconnected → s.connected = false

/-- What was handed over, and what may be. -/
structure Numbered (s : MattermostAdapter) : Prop where
  bounded : ∀ e ∈ s.processing ++ s.delivered.map Prod.snd, e < s.posted
  nodup : (s.processing ++ s.delivered.map Prod.snd).Nodup

variable {s s' : MattermostAdapter} {action : Action}

/-! ## Calls -/

/-- A `connect` goes on that has no websocket. -/
theorem Sound.setCall (h : s.Sound) {i : Nat} {old new : Call} (hi : s.calls[i]? = some old)
    (hold : ∀ w, old ≠ .opened w) (hnew : ∀ w, new ≠ .opened w)
    (hconnect : new.isDisconnected = false) : (s.setCall i new).Sound := by
  refine ⟨fun w socket hw hopen => ?_, fun j w hj => ?_, h.bounded, h.idle, fun hlast => ?_⟩
  · obtain hheld | ⟨hsilent, j, hj⟩ := h.owned w socket hw hopen
    · exact .inl hheld
    · refine .inr ⟨hsilent, j, ?_⟩
      have hne : i ≠ j := by
        rintro rfl
        exact hold w (Option.some.inj (hi.symm.trans hj))
      exact (List.getElem?_set_ne hne).trans hj
  · have hbefore {j : Nat} (hj : (s.calls.set i new)[j]? = some (.opened w)) :
        s.calls[j]? = some (.opened w) := by
      obtain ⟨_, heq⟩ | ⟨_, hj⟩ := getElem?_set_eq_some hj
      · exact absurd heq.symm (hnew w)
      · exact hj
    obtain ⟨hother, hsocket, hunique⟩ := h.opened j w (hbefore hj)
    exact ⟨hother, hsocket, fun k hk => hunique k (hbefore hk)⟩
  · obtain heq | hlast := getLast?_set_eq_some hlast
    · rw [← heq] at hconnect
      cases hconnect
    · exact h.gone hlast

/-- A call is made that has no websocket. -/
theorem Sound.addCall (h : s.Sound) {call : Call} (hcall : ∀ w, call ≠ .opened w)
    (hgone : call = .disconnected → s.connected = false) :
    Sound { s with calls := s.calls ++ [call] } := by
  refine ⟨fun w socket hw hopen => ?_, fun j w hj => ?_, h.bounded, h.idle, fun hlast => ?_⟩
  · obtain hheld | ⟨hsilent, j, hj⟩ := h.owned w socket hw hopen
    · exact .inl hheld
    · exact .inr ⟨hsilent, j, getElem?_append_singleton.2 (.inl hj)⟩
  · have hbefore {j : Nat} (hj : (s.calls ++ [call])[j]? = some (.opened w)) :
        s.calls[j]? = some (.opened w) := by
      obtain hj | ⟨_, heq⟩ := getElem?_append_singleton.1 hj
      · exact hj
      · exact absurd heq.symm (hcall w)
    obtain ⟨hother, hsocket, hunique⟩ := h.opened j w (hbefore hj)
    exact ⟨hother, hsocket, fun k hk => hunique k (hbefore hk)⟩
  · rw [List.getLast?_concat, Option.some.injEq] at hlast
    exact hgone hlast

/-! ## Websockets -/

theorem sound_authenticated (h : s.Sound) {i : Nat} (hi : s.calls[i]? = some .authenticating)
    (result : Except JsAny Unit) : (s.authenticated i result).Sound := by
  cases result with
  | error err => exact h.setCall hi (by simp) (by simp) rfl
  | ok =>
    have hlt := (List.getElem?_eq_some_iff.1 hi).1
    have hbounded {w : Nat} {socket : WebSocket} (hw : s.sockets[w]? = some socket) :
        w < s.sockets.length := (List.getElem?_eq_some_iff.1 hw).1
    refine ⟨fun w socket hw hopen => ?_, fun j w hj => ?_, fun w hw => ?_, h.idle, fun hlast => ?_⟩
    · obtain hw | ⟨rfl, rfl⟩ := getElem?_append_singleton.1 hw
      · obtain hheld | ⟨hsilent, j, hj⟩ := h.owned w socket hw hopen
        · exact .inl hheld
        · refine .inr ⟨hsilent, j, ?_⟩
          have hne : i ≠ j := by
            rintro rfl
            exact absurd (hi.symm.trans hj) (by simp)
          exact (List.getElem?_set_ne hne).trans hj
      · exact .inr ⟨rfl, i, List.getElem?_set_self hlt⟩
    · obtain ⟨rfl, heq⟩ | ⟨hne, hj⟩ := getElem?_set_eq_some hj
      · obtain rfl : w = s.sockets.length := Call.opened.inj heq
        refine ⟨fun hheld => ?_, List.getElem?_concat_length, fun k hk => ?_⟩
        · exact absurd (h.bounded _ hheld) (Nat.lt_irrefl _)
        · obtain ⟨rfl, _⟩ | ⟨_, hk⟩ := getElem?_set_eq_some hk
          · rfl
          · exact absurd (hbounded (h.opened k _ hk).2.1) (Nat.lt_irrefl _)
      · obtain ⟨hother, hsocket, hunique⟩ := h.opened j w hj
        refine ⟨hother, getElem?_append_singleton.2 (.inl hsocket), fun k hk => ?_⟩
        obtain ⟨_, heq⟩ | ⟨_, hk⟩ := getElem?_set_eq_some hk
        · have hw : w = s.sockets.length := Call.opened.inj heq
          have hlt := hbounded hsocket
          omega
        · exact hunique k hk
    · have hlt := h.bounded w hw
      simp only [List.length_append, authenticated]
      omega
    · obtain heq | hlast := getLast?_set_eq_some hlast
      · cases heq
      · exact h.gone hlast

theorem sound_attached (h : s.Sound) {i w : Nat} (hi : s.calls[i]? = some (.opened w))
    (hC : s.Timely (.attached i)) : (s.attachWsListener i w).Sound := by
  obtain ⟨hdown, hlast⟩ := hC
  obtain ⟨_, hsocket, hunique⟩ := h.opened i w hi
  refine ⟨fun v socket hv hopen => ?_, fun j v hj => ?_, fun v hv => ?_, fun hup => (by cases hup),
    fun hgone => ?_⟩
  · obtain ⟨before, hbefore, rfl⟩ := getElem?_modify_eq_some.1 hv
    split at hopen
    · rename_i heq
      subst v
      obtain rfl := Option.some.inj (hsocket.symm.trans hbefore)
      refine .inl ⟨rfl, rfl, i, rfl, ?_⟩
      rw [if_pos rfl]
      rfl
    · rename_i hne
      rw [if_neg hne]
      obtain ⟨hup, _⟩ | ⟨hsilent, j, hj⟩ := h.owned v before hbefore hopen
      · exact absurd (hdown.symm.trans hup) (by simp)
      · refine .inr ⟨hsilent, j, ?_⟩
        have hij : i ≠ j := by
          rintro rfl
          exact hne (Call.opened.inj (Option.some.inj (hi.symm.trans hj)))
        exact (List.getElem?_set_ne hij).trans hj
  · obtain ⟨_, heq⟩ | ⟨hne, hj⟩ := getElem?_set_eq_some hj
    · cases heq
    · have hwv : w ≠ v := by
        rintro rfl
        exact hne (hunique j hj).symm
      obtain ⟨_, hsocket, hunique⟩ := h.opened j v hj
      refine ⟨fun hheld => hwv (Option.some.inj hheld), ?_, fun k hk => ?_⟩
      · exact (List.getElem?_modify_ne _ _ hwv).trans hsocket
      · obtain ⟨_, heq⟩ | ⟨_, hk⟩ := getElem?_set_eq_some hk
        · cases heq
        · exact hunique k hk
  · obtain rfl : w = v := Option.some.inj hv
    have hlt := (List.getElem?_eq_some_iff.1 hsocket).1
    simpa [attachWsListener, MattermostAdapter.setCall, modifySocket] using hlt
  · obtain heq | hgone := getLast?_set_eq_some hgone
    · cases heq
    · have hgone : s.calls.getLast? = some .disconnected := hgone
      rw [hgone] at hlast
      cases hlast

/-! ## A `disconnect` -/

/-- The websocket that is held is closed. -/
theorem isOpen_close {w : Nat} {socket : WebSocket} (hw : s.close.sockets[w]? = some socket)
    (hheld : s.handle = some w) : socket.isOpen = false := by
  rw [close, hheld] at hw
  obtain ⟨before, _, rfl⟩ := getElem?_modify_eq_some.1 hw
  rw [if_pos rfl]

theorem handle_removeMessageListener : s.removeMessageListener.handle = s.handle := by
  unfold removeMessageListener
  split <;> rfl

/-- The other ones are left as they are. -/
theorem sockets_close_of_ne {w : Nat} (hother : s.handle ≠ some w) :
    s.removeMessageListener.close.sockets[w]? = s.sockets[w]? := by
  have hne {v : Nat} (hv : s.handle = some v) : v ≠ w := by
    rintro rfl
    exact hother hv
  unfold close
  rw [handle_removeMessageListener]
  have hremoved : s.removeMessageListener.sockets[w]? = s.sockets[w]? := by
    unfold removeMessageListener
    split
    · exact List.getElem?_modify_ne _ _ (hne ‹_›)
    · rfl
  split
  · exact (List.getElem?_modify_ne _ _ (hne ‹_›)).trans hremoved
  · exact hremoved

theorem sound_disconnect (h : s.Sound) : s.disconnect.Sound := by
  unfold disconnect
  split
  · have hforgotten : Sound { s.removeMessageListener.close with
        handle := none, wsListener := none, connected := false, inboundHandler := none,
        calls := s.calls } := by
      refine ⟨fun w socket hw hopen => ?_, fun i w hi => ?_, fun w hw => (by cases hw),
        fun _ => ⟨rfl, rfl⟩, fun _ => rfl⟩
      · by_cases hheld : s.handle = some w
        · have hclosed := isOpen_close hw (handle_removeMessageListener.trans hheld)
          exact absurd (hopen.symm.trans hclosed) (by simp)
        · have hw' := (sockets_close_of_ne hheld).symm.trans hw
          obtain ⟨_, hheld', _⟩ | hpending := h.owned w socket hw' hopen
          · exact absurd hheld' hheld
          · exact .inr hpending
      · obtain ⟨hother, hsocket, hunique⟩ := h.opened i w hi
        exact ⟨by simp, (sockets_close_of_ne hother).trans hsocket, hunique⟩
    exact hforgotten.addCall (by simp) fun _ => rfl
  · rename_i hdown
    exact h.addCall (by simp) fun _ => Bool.eq_false_iff.2 hdown

/-! ## Posted events -/

/-- One listener at most hears of an event. -/
theorem Sound.length_heard (h : s.Sound) : (s.sockets.flatMap heard).length ≤ 1 := by
  have hheld {w : Nat} {socket : WebSocket} (hw : s.sockets[w]? = some socket)
      (hheard : heard socket ≠ []) :
      s.handle = some w ∧ ∃ i, heard socket = [i] := by
    have hopen : socket.isOpen = true := by
      apply Decidable.byContradiction
      intro hclosed
      exact hheard (if_neg hclosed)
    rw [heard, if_pos hopen] at hheard ⊢
    obtain ⟨_, hhandle, i, _, hlisteners⟩ | ⟨hsilent, _⟩ := h.owned w socket hw hopen
    · exact ⟨hhandle, i, hlisteners⟩
    · exact absurd hsilent hheard
  refine length_flatMap_le (k := s.handle.getD 0) (fun w socket hw hheard => ?_)
    fun socket hmem => ?_
  · simp [(hheld hw hheard).1]
  · obtain ⟨w, hw⟩ := List.mem_iff_getElem?.1 hmem
    by_cases hheard : heard socket = []
    · simp [hheard]
    · obtain ⟨_, i, hi⟩ := hheld hw hheard
      simp [hi]

theorem numbered_post (h : s.Sound) (hn : s.Numbered) : s.post.Numbered := by
  have hfresh : s.posted ∉ s.processing ++ s.delivered.map Prod.snd := fun hmem =>
    Nat.lt_irrefl _ (hn.bounded _ hmem)
  have hlength := h.length_heard
  unfold post
  generalize s.sockets.flatMap heard = listeners at hlength
  rcases listeners with _ | ⟨i, _ | ⟨j, listeners⟩⟩
  · refine ⟨fun e he => ?_, ?_⟩
    · have hlt := hn.bounded e (by simpa using he)
      exact Nat.lt_succ_of_lt hlt
    · simpa using hn.nodup
  · have hperm : (s.processing ++ [s.posted] ++ s.delivered.map Prod.snd).Perm
        (s.posted :: (s.processing ++ s.delivered.map Prod.snd)) := by
      rw [List.append_assoc]
      exact List.perm_middle
    refine ⟨fun e he => ?_, hperm.nodup_iff.2 (List.nodup_cons.2 ⟨hfresh, hn.nodup⟩)⟩
    obtain rfl | he := List.mem_cons.1 (hperm.mem_iff.1 he)
    · exact Nat.lt_succ_self _
    · exact Nat.lt_succ_of_lt (hn.bounded e he)
  · simp only [List.length_cons] at hlength
    omega

theorem numbered_process (hn : s.Numbered) {p e : Nat} (hp : s.processing[p]? = some e)
    (responds : Bool) : (s.process p e responds).Numbered := by
  have hdropped : Numbered { s with processing := s.processing.eraseIdx p } := by
    have hsub := (List.eraseIdx_sublist s.processing p).append_right (s.delivered.map Prod.snd)
    exact ⟨fun e he => hn.bounded e (hsub.subset he), hn.nodup.sublist hsub⟩
  unfold process
  dsimp only
  split
  · split
    · exact hdropped
    · obtain ⟨hlt, rfl⟩ := List.getElem?_eq_some_iff.1 hp
      have hperm : (s.processing.eraseIdx p ++
          (s.delivered ++ [(‹Handler›, s.processing[p])]).map Prod.snd).Perm
          (s.processing ++ s.delivered.map Prod.snd) := by
        rw [List.map_append, List.map_singleton, ← List.append_assoc]
        refine (List.perm_append_singleton _ _).trans ?_
        exact (List.getElem_cons_eraseIdx_perm hlt).append_right _
      exact ⟨fun e he => hn.bounded e (hperm.mem_iff.1 he), hperm.nodup_iff.2 hn.nodup⟩
  · exact hdropped

/-! ## Runs -/

theorem sound_init : Sound {} where
  owned _ _ hw := nomatch hw
  opened _ _ hi := nomatch hi
  bounded _ hw := nomatch hw
  idle _ := ⟨rfl, rfl⟩
  gone hlast := nomatch hlast

theorem numbered_init : Numbered {} := ⟨by simp, List.nodup_nil⟩

theorem sound_step (h : s.Sound) (hC : s.Timely action) (hstep : s.step action = some s') :
    s'.Sound := by
  cases steps_of_step hstep with
  | connect =>
    unfold connect
    split <;> exact h.addCall (by simp) (by simp)
  | disconnect => exact sound_disconnect h
  | loaded hi result => cases result <;> exact h.setCall hi (by simp) (by simp) rfl
  | authenticated hi result => exact sound_authenticated h hi result
  | attached hi => exact sound_attached h hi hC
  | posted | onInbound => exact ⟨h.owned, h.opened, h.bounded, h.idle, h.gone⟩
  | processed hp responds =>
    unfold process
    dsimp only
    split
    · split <;> exact ⟨h.owned, h.opened, h.bounded, h.idle, h.gone⟩
    · exact ⟨h.owned, h.opened, h.bounded, h.idle, h.gone⟩
  | offInbound handler =>
    split
    · exact ⟨h.owned, h.opened, h.bounded, h.idle, h.gone⟩
    · exact h

/-- A step that hands nothing over and hears of nothing. -/
theorem Numbered.of_eq (hn : s.Numbered) (hposted : s'.posted = s.posted)
    (hprocessing : s'.processing = s.processing) (hdelivered : s'.delivered = s.delivered) :
    s'.Numbered := by
  refine ⟨?_, ?_⟩
  · rw [hposted, hprocessing, hdelivered]
    exact hn.bounded
  · rw [hprocessing, hdelivered]
    exact hn.nodup

theorem numbered_disconnect (hn : s.Numbered) : s.disconnect.Numbered := by
  have hremoved : s.removeMessageListener.Numbered := by
    unfold removeMessageListener
    split <;> exact hn.of_eq rfl rfl rfl
  have hclosed : s.removeMessageListener.close.Numbered := by
    unfold close
    split <;> exact hremoved.of_eq rfl rfl rfl
  unfold disconnect
  split
  · exact hclosed.of_eq rfl rfl rfl
  · exact hn.of_eq rfl rfl rfl

theorem numbered_step (h : s.Sound) (hn : s.Numbered) (hstep : s.step action = some s') :
    s'.Numbered := by
  cases steps_of_step hstep with
  | disconnect => exact numbered_disconnect hn
  | loaded hi result | authenticated hi result => cases result <;> exact hn.of_eq rfl rfl rfl
  | connect | attached | onInbound => exact hn.of_eq rfl rfl rfl
  | posted => exact numbered_post h hn
  | processed hp responds => exact numbered_process hn hp responds
  | offInbound handler => split <;> exact hn.of_eq rfl rfl rfl

theorem Sound.oneSocket (h : s.Sound) (hn : s.Numbered) : s.OneSocket where
  exclusive v w hv hw := by
    have hheld {w : Nat} (hw : s.Live w) : s.handle = some w := by
      obtain ⟨socket, hw, hopen, hheard⟩ := hw
      obtain ⟨_, hhandle, _⟩ | ⟨hsilent, _⟩ := h.owned w socket hw hopen
      · exact hhandle
      · exact absurd hsilent hheard
    exact Option.some.inj ((hheld hv).symm.trans (hheld hw))
  once := hn.nodup.sublist (List.sublist_append_right ..)
  closed hlast hsettled socket hmem := by
    obtain ⟨w, hw⟩ := List.mem_iff_getElem?.1 hmem
    refine Bool.eq_false_iff.2 fun hopen => ?_
    obtain ⟨hup, _⟩ | ⟨_, i, hi⟩ := h.owned w socket hw hopen
    · exact absurd ((h.gone hlast).symm.trans hup) (by simp)
    · have hpending := hsettled _ (List.mem_of_getElem? hi)
      cases hpending

/-- As long as every `connect` attaches its listener in time, one websocket at most is heard. -/
theorem oneSocket_of_timely (as : List Action) (s : MattermostAdapter)
    (hrun : run step {} as = some s) (htimely : Meets step Timely {} as) : s.OneSocket := by
  have hsound : s.Sound ∧ s.Numbered :=
    invariant_of_meets (I := fun s => s.Sound ∧ s.Numbered)
      (fun _ _ _ h hC hstep => ⟨sound_step h.1 hC hstep, numbered_step h.1 h.2 hstep⟩)
      ⟨sound_init, numbered_init⟩ htimely hrun
  exact hsound.1.oneSocket hsound.2

/-- A `connect` fails beside another one, whose websocket is heard until it is disconnected. -/
def reconnected : List Action :=
  [.connect, .connect, .onInbound 0, .loaded 0 (.ok ()), .loaded 1 (.ok ()),
    .authenticated 0 (.ok ()), .attached 0, .authenticated 1 (.error .undefined), .posted,
    .processed 0 true, .disconnect]

theorem oneSocket_of_timely_reconnected : ∃ s, run step {} reconnected = some s ∧
    s.OneSocket := by
  have hsome : (run step {} reconnected).isSome = true := by decide +kernel
  obtain ⟨s, hrun⟩ := Option.isSome_iff_exists.1 hsome
  exact ⟨s, hrun, oneSocket_of_timely reconnected s hrun (by decide +kernel)⟩

/-- Two `connect`s that overlap open two websockets, and an event is handed over twice. -/
theorem overlapping_connects_deliver_twice : ¬ ∀ (as : List Action) (s : MattermostAdapter),
    run step {} as = some s → s.OneSocket := by
  intro h
  have hany : (run step {} [.onInbound 0, .connect, .connect, .loaded 0 (.ok ()),
      .loaded 1 (.ok ()), .authenticated 0 (.ok ()), .attached 0, .authenticated 1 (.ok ()),
      .attached 1, .posted, .processed 0 true, .processed 0 true]).any (fun s =>
        s.delivered == [(0, 0), (0, 0)]) = true := by
    decide +kernel
  obtain ⟨s, hrun, hs⟩ := (Option.any_eq_true _ _).1 hany
  have honce := (h _ s hrun).once
  rw [beq_iff_eq.1 hs] at honce
  exact absurd honce (by decide)

end MattermostAdapter
end TheokitGateways.Mattermost
