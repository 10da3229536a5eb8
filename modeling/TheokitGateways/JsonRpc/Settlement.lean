import TheokitGateways.Js.JsonLex
import TheokitGateways.JsonRpc.LineClient

/-!
# Every request settles once

The table, the timers and the answers given so far account for every call: it
waits with its timer running, or it was answered, once. What ends the wait is a
line with the id of the request, its own timer, or the end of the client.
-/

namespace TheokitGateways.JsonRpc
open Js Transition

namespace JsonRpcLineClient

/-- The calls are accounted for. -/
structure Accounted (c : JsonRpcLineClient) : Prop where
  issued : ∀ w ∈ c.written, ∃ n < c.nextId, w.id = .finite (n : Nat)
  distinct : (c.written.map Written.id).Nodup
  known : ∀ e ∈ c.pending.entries, ∃ w ∈ c.written, w.id = e.1 ∧ w.call = e.2
  timers : c.timers = c.pending.entries.map Prod.fst
  calls : (c.settled.map Prod.fst ++ c.pending.entries.map Prod.snd).Perm (List.range c.calls)

/-- Closed is closed: nobody waits, and `onClosed` was called. -/
structure Sound (c : JsonRpcLineClient) : Prop extends Accounted c where
  closed : c.isOpen = false → c.pending.entries = []
  notified : c.closings.length = if c.isOpen then 0 else 1

variable {keepsData : Bool} {E : Type} {onNotification : RpcNotification → Except TypeFault E}
  {c c' : JsonRpcLineClient} {id : JsNumber} {outcome : RpcOutcome} {action : Action}
  {writable : Bool}

/-! ### Settling one request, and all of them -/

theorem settle_eq (c : JsonRpcLineClient) (id : JsNumber) (outcome : RpcOutcome) :
    (c.settle id outcome).isOpen = c.isOpen ∧ (c.settle id outcome).closings = c.closings ∧
      (c.settle id outcome).written = c.written ∧ (c.settle id outcome).calls = c.calls := by
  unfold settle
  cases c.pending.get id <;> exact ⟨rfl, rfl, rfl, rfl⟩

theorem entries_settle (c : JsonRpcLineClient) (id : JsNumber) (outcome : RpcOutcome) :
    (c.settle id outcome).pending.entries = (c.pending.delete id).entries := by
  unfold settle
  cases hget : c.pending.get id with
  | none => exact (OrderedMap.delete_of_get_none hget).symm
  | some call => rfl

theorem settled_settle (c : JsonRpcLineClient) (id : JsNumber) (outcome : RpcOutcome) :
    (c.settle id outcome).settled =
      c.settled ++ ((c.pending.get id).map (·, outcome)).toList := by
  unfold settle
  cases c.pending.get id with
  | none => exact (List.append_nil _).symm
  | some call => rfl

theorem accounted_settle (id : JsNumber) (outcome : RpcOutcome) (h : Accounted c) :
    Accounted (c.settle id outcome) := by
  unfold settle
  cases hget : c.pending.get id with
  | none => exact h
  | some call =>
    refine ⟨h.issued, h.distinct, ?_, ?_, ?_⟩
    · intro e he
      exact h.known e (List.mem_filter.1 he).1
    · show c.timers.erase id = (c.pending.entries.filter _).map Prod.fst
      rw [h.timers, (c.pending.nodup).erase_eq_filter, List.filter_map]
      congr 1
      exact List.filter_congr fun e _ => by by_cases he : e.1 = id <;> simp [he]
    · have hcalls := h.calls
      have hperm := (OrderedMap.entries_perm_delete hget).map Prod.snd
      show ((c.settled ++ [(call, outcome)]).map Prod.fst ++ _).Perm _
      rw [List.map_append, List.append_assoc]
      exact ((List.Perm.append_left _ hperm).symm).trans hcalls

/-- What settling some requests as disconnected leaves, and what it adds. -/
theorem settleAll_spec (ids : List JsNumber) (h : Accounted c) :
    Accounted (c.settleAll ids) ∧ (c.settleAll ids).isOpen = c.isOpen ∧
      (c.settleAll ids).closings = c.closings ∧
      (∀ e, e ∈ (c.settleAll ids).pending.entries ↔ e ∈ c.pending.entries ∧ e.1 ∉ ids) ∧
      ∃ new, (c.settleAll ids).settled = c.settled ++ new ∧ ∀ x ∈ new, x.2 = .disconnected := by
  induction ids generalizing c with
  | nil => exact ⟨h, rfl, rfl, by simp [settleAll], [], by simp [settleAll], by simp⟩
  | cons id ids ih =>
    obtain ⟨haccounted, hopen, hclosings, hentries, new, hnew, houtcomes⟩ :=
      ih (accounted_settle id .disconnected h)
    obtain ⟨hopen', hclosings', _, _⟩ := settle_eq c id .disconnected
    refine ⟨haccounted, hopen.trans hopen', hclosings.trans hclosings', fun e => ?_,
      ((c.pending.get id).map (·, .disconnected)).toList ++ new, ?_, ?_⟩
    · refine (hentries e).trans ?_
      rw [entries_settle]
      simp only [OrderedMap.delete, List.mem_filter, List.mem_cons, not_or, decide_eq_true_eq]
      exact and_assoc
    · refine hnew.trans ?_
      rw [settled_settle, List.append_assoc]
    · intro x hx
      rcases List.mem_append.1 hx with hx | hx
      · cases hget : c.pending.get id with
        | none => simp [hget] at hx
        | some call =>
          obtain rfl : x = (call, .disconnected) := by simpa [hget] using hx
          rfl
      · exact houtcomes x hx

theorem accounted_of_closing (h : Accounted c) : Accounted { c with isOpen := false } :=
  ⟨h.issued, h.distinct, h.known, h.timers, h.calls⟩

theorem close_of_closed (h : c.isOpen = false) (reason : JsString) : c.close reason = c := by
  rw [close, h]
  rfl

/-- Closing an open client ends every wait and calls `onClosed`. -/
theorem close_spec (h : Sound c) (hopen : c.isOpen = true) (reason : JsString) :
    Sound (c.close reason) ∧ (c.close reason).isOpen = false ∧
      ∃ new, (c.close reason).settled = c.settled ++ new ∧ ∀ x ∈ new, x.2 = .disconnected := by
  obtain ⟨haccounted, hclosed, hclosings, hentries, hnew⟩ :=
    settleAll_spec (c.pending.entries.map Prod.fst) (accounted_of_closing h.toAccounted)
  have hempty : ({ c with isOpen := false }.settleAll
      (c.pending.entries.map Prod.fst)).pending.entries = [] := by
    apply List.eq_nil_iff_forall_not_mem.2
    intro e he
    obtain ⟨hmem, hnot⟩ := (hentries e).1 he
    exact hnot (List.mem_map_of_mem hmem)
  have hnone : c.closings = [] := by
    have hlength := h.notified
    rw [hopen] at hlength
    exact List.eq_nil_of_length_eq_zero hlength
  rw [close, hopen]
  refine ⟨⟨⟨haccounted.issued, haccounted.distinct, haccounted.known, haccounted.timers,
    haccounted.calls⟩, fun _ => hempty, ?_⟩, hclosed, hnew⟩
  show (_ ++ [reason]).length = if ({ c with isOpen := false }.settleAll _).isOpen then 0 else 1
  rw [hclosed, hclosings, List.length_append]
  simp [hnone]

theorem sound_close (h : Sound c) (reason : JsString) : Sound (c.close reason) := by
  cases hopen : c.isOpen with
  | true => exact (close_spec h hopen reason).1
  | false => rwa [close_of_closed hopen]

theorem isOpen_close (h : Sound c) (reason : JsString) : (c.close reason).isOpen = false := by
  cases hopen : c.isOpen with
  | true => exact (close_spec h hopen reason).2.1
  | false => rwa [close_of_closed hopen]

theorem sound_settle (h : Sound c) : Sound (c.settle id outcome) := by
  obtain ⟨hopen, hclosings, _, _⟩ := settle_eq c id outcome
  refine ⟨accounted_settle _ _ h.toAccounted, fun hclosed => ?_, ?_⟩
  · have hempty := h.closed (hopen ▸ hclosed)
    rw [entries_settle]
    show c.pending.entries.filter _ = []
    rw [hempty]
    rfl
  · rw [hclosings, hopen, h.notified]

/-! ### Calls -/

theorem request_refused (h : c.isOpen = false ∨ writable = false) (method : JsString)
    (params : Json) :
    c.request method params writable =
      { c with calls := c.calls + 1, settled := c.settled ++ [(c.calls, .disconnected)] } := by
  unfold request
  rw [if_pos (by simpa using h)]

theorem sound_request (h : Sound c) (method : JsString) (params : Json) (writable : Bool) :
    Sound (c.request method params writable) := by
  by_cases href : c.isOpen = false ∨ writable = false
  · rw [request_refused href]
    refine ⟨⟨h.issued, h.distinct, h.known, h.timers, ?_⟩, h.closed, h.notified⟩
    show ((c.settled ++ [(c.calls, _)]).map Prod.fst ++ _).Perm (List.range (c.calls + 1))
    rw [List.map_append, List.range_succ, List.append_assoc]
    exact (List.Perm.append_left _ List.perm_append_comm).trans
      (List.append_assoc .. ▸ List.Perm.append_right _ h.calls)
  · obtain ⟨hopen, hwritable⟩ := not_or.1 href
    have hfresh : ∀ w ∈ c.written, w.id ≠ .finite (c.nextId : Nat) := by
      intro w hw heq
      obtain ⟨n, hn, hid⟩ := h.issued w hw
      rw [hid, JsNumber.finite.injEq, Rat.natCast_inj] at heq
      omega
    have hnew : JsNumber.finite (c.nextId : Nat) ∉ c.pending.entries.map Prod.fst := by
      intro hmem
      obtain ⟨e, he, hkey⟩ := List.mem_map.1 hmem
      obtain ⟨w, hw, hid, _⟩ := h.known e he
      exact hfresh w hw (hid.trans hkey)
    have hentries := OrderedMap.entries_set_of_notMem hnew c.calls
    unfold request
    rw [if_neg (by simpa using href)]
    refine ⟨⟨?_, ?_, ?_, ?_, ?_⟩, fun hclosed => absurd hclosed hopen, h.notified⟩
    · intro w hw
      rcases List.mem_append.1 hw with hw | hw
      · obtain ⟨n, hn, hid⟩ := h.issued w hw
        exact ⟨n, Nat.lt_succ_of_lt hn, hid⟩
      · obtain rfl := List.mem_singleton.1 hw
        exact ⟨c.nextId, Nat.lt_succ_self _, rfl⟩
    · show ((c.written ++ [_]).map Written.id).Nodup
      rw [List.map_append, List.nodup_append]
      refine ⟨h.distinct, by simp, ?_⟩
      intro id hid id' hid'
      obtain ⟨w, hw, rfl⟩ := List.mem_map.1 hid
      obtain rfl : id' = .finite (c.nextId : Nat) := by simpa using hid'
      exact hfresh w hw
    · intro e he
      rw [hentries] at he
      rcases List.mem_append.1 he with he | he
      · obtain ⟨w, hw, hknown⟩ := h.known e he
        exact ⟨w, List.mem_append_left _ hw, hknown⟩
      · obtain rfl := List.mem_singleton.1 he
        exact ⟨_, List.mem_append_right _ List.mem_cons_self, rfl, rfl⟩
    · show c.timers ++ [_] = _
      rw [hentries, h.timers, List.map_append]
      rfl
    · show (c.settled.map Prod.fst ++ _).Perm (List.range (c.calls + 1))
      rw [hentries, List.map_append, List.range_succ, ← List.append_assoc]
      exact List.Perm.append_right _ h.calls

/-! ### Lines and timers -/

theorem onLine_cases {line : JsString} {heard : Option E}
    (h : c.onLine keepsData onNotification line = .ok (c', heard)) :
    c' = c ∨ ∃ message id outcome, jsonParse line = some message ∧ answerId message = some id ∧
      answerOutcome keepsData message = .ok outcome ∧ c' = c.settle id outcome := by
  unfold onLine at h
  split at h
  · cases h
    exact .inl rfl
  · cases hparse : jsonParse line with
    | none =>
      rw [hparse] at h
      cases h
      exact .inl rfl
    | some message =>
      rw [hparse] at h
      obtain ⟨incoming, hread, hreceive⟩ := bind_eq_ok.1 h
      obtain ⟨_, _, hread⟩ := bind_eq_ok.1 hread
      cases hnotification : notificationOf message with
      | some notification =>
        rw [hnotification] at hread
        cases hread
        obtain ⟨_, _, hreceive⟩ := bind_eq_ok.1 hreceive
        cases hreceive
        exact .inl rfl
      | none =>
        rw [hnotification] at hread
        cases hid : answerId message with
        | none =>
          simp only [hid] at hread
          cases hread
          cases hreceive
          exact .inl rfl
        | some id =>
          simp only [hid] at hread
          obtain ⟨outcome, houtcome, hread⟩ := bind_eq_ok.1 hread
          cases hread
          cases hreceive
          exact .inr ⟨message, id, outcome, rfl, hid, houtcome, rfl⟩

/-- A timer that fires is one that settling would have cleared. -/
theorem timedOut_eq (h : Accounted c) (hid : id ∈ c.timers) :
    ({ c with timers := c.timers.erase id } : JsonRpcLineClient).settle id .timeout =
      c.settle id .timeout := by
  have hnodup : c.timers.Nodup := h.timers ▸ c.pending.nodup
  have herase : (c.timers.erase id).erase id = c.timers.erase id :=
    List.erase_of_not_mem hnodup.not_mem_erase
  unfold settle
  cases hget : c.pending.get id with
  | none =>
    rw [h.timers] at hid
    obtain ⟨e, he, rfl⟩ := List.mem_map.1 hid
    have hne : e.1 ≠ e.1 := by simpa using List.lookup_eq_none_iff.1 hget e he
    exact absurd rfl hne
  | some call => simp only [herase]

theorem sound_closeFor (h : Sound c) (action : Action) : Sound (c.closeFor action) := by
  unfold closeFor
  split
  · exact sound_close h _
  · exact h

/-- What an event does while the account is in order: a request is made, or one is settled, or
the client closes. -/
inductive Steps (keepsData : Bool) (c : JsonRpcLineClient) :
    Action → JsonRpcLineClient → Prop where
  | request (method : JsString) (params : Json) (writable : Bool) :
    Steps keepsData c (.request method params writable) (c.request method params writable)
  | ignored (line : JsString) : Steps keepsData c (.line line) c
  | answered (line : JsString) (message : Json) (id : JsNumber) (outcome : RpcOutcome)
    (hparse : jsonParse line = some message) (hid : answerId message = some id)
    (houtcome : answerOutcome keepsData message = .ok outcome) :
    Steps keepsData c (.line line) (c.settle id outcome)
  | timedOut (id : JsNumber) : Steps keepsData c (.timedOut id) (c.settle id .timeout)
  | closing (action : Action) : Steps keepsData c action (c.closeFor action)

theorem steps_of_step (h : Accounted c)
    (hstep : c.step keepsData onNotification action = some c') : Steps keepsData c action c' := by
  cases action with
  | request method params writable =>
    cases hstep
    exact .request method params writable
  | line line =>
    simp only [step] at hstep
    split at hstep
    · rename_i after heard hline
      cases hstep
      obtain rfl | ⟨message, id, outcome, hparse, hid, houtcome, rfl⟩ := onLine_cases hline
      · exact .ignored line
      · exact .answered line message id outcome hparse hid houtcome
    · cases hstep
      exact .ignored line
  | timedOut id =>
    obtain ⟨hid, hstep⟩ := Option.ite_none_right_eq_some.1 hstep
    cases hstep
    rw [timedOut_eq h hid]
    exact .timedOut id
  | wrote k err =>
    obtain ⟨_, hstep⟩ := Option.ite_none_right_eq_some.1 hstep
    cases hstep
    exact .closing _
  | stdinFailed | childFailed | childClosed | close =>
    cases hstep
    exact .closing _

/-- Every event keeps the account. -/
theorem sound_step (h : Sound c) (hstep : c.step keepsData onNotification action = some c') :
    Sound c' := by
  cases steps_of_step h.toAccounted hstep with
  | request method params writable => exact sound_request h method params writable
  | ignored line => exact h
  | answered | timedOut => exact sound_settle h
  | closing => exact sound_closeFor h _

/-! ### What answers a call -/

/-- An event answers a call: it refuses it, or it is a line with the id of its request, the timer
of its request, or the end of the client. -/
inductive Answers (keepsData : Bool) (c : JsonRpcLineClient) :
    Action → Nat → RpcOutcome → Prop where
  | refused (method : JsString) (params : Json) (writable : Bool)
    (h : c.isOpen = false ∨ writable = false) :
    Answers keepsData c (.request method params writable) c.calls .disconnected
  | line (line : JsString) (message : Json) (w : Written) (outcome : RpcOutcome)
    (hw : w ∈ c.written) (hparse : jsonParse line = some message)
    (hid : answerId message = some w.id)
    (houtcome : answerOutcome keepsData message = .ok outcome) :
    Answers keepsData c (.line line) w.call outcome
  | timedOut (w : Written) (hw : w ∈ c.written) :
    Answers keepsData c (.timedOut w.id) w.call .timeout
  | closed (action : Action) (h : action.closingReason.isSome = true) (call : Nat) :
    Answers keepsData c action call .disconnected

/-- Settling a request answers nobody, or the call of a written request with that id. -/
theorem settled_settle_cases (id : JsNumber) (outcome : RpcOutcome) (h : Accounted c) :
    (c.settle id outcome).settled = c.settled ∨
      ∃ w ∈ c.written, w.id = id ∧
        (c.settle id outcome).settled = c.settled ++ [(w.call, outcome)] := by
  rw [settled_settle]
  cases hget : c.pending.get id with
  | none => exact .inl (List.append_nil _)
  | some call =>
    obtain ⟨w, hw, hid, hcall⟩ := h.known _ (OrderedMap.mem_entries_of_get hget)
    exact .inr ⟨w, hw, hid, by rw [hcall]; rfl⟩

theorem settled_closeFor (h : Sound c) (action : Action) :
    ∃ new, (c.closeFor action).settled = c.settled ++ new ∧
      ∀ x ∈ new, Answers keepsData c action x.1 x.2 := by
  unfold closeFor
  cases hreason : action.closingReason with
  | none => exact ⟨[], (List.append_nil _).symm, by simp⟩
  | some reason =>
    cases hopen : c.isOpen with
    | false =>
      have hsame : (c.close reason).settled = c.settled := by rw [close_of_closed hopen]
      exact ⟨[], hsame.trans (List.append_nil _).symm, by simp⟩
    | true =>
      obtain ⟨_, _, new, hnew, houtcomes⟩ := close_spec h hopen reason
      refine ⟨new, hnew, fun x hx => ?_⟩
      rw [houtcomes x hx]
      exact .closed action (by rw [hreason]; rfl) x.1

/-- What an event answers, it is entitled to answer. -/
theorem settled_step (h : Sound c) (hstep : c.step keepsData onNotification action = some c') :
    ∃ new, c'.settled = c.settled ++ new ∧ ∀ x ∈ new, Answers keepsData c action x.1 x.2 := by
  cases steps_of_step h.toAccounted hstep with
  | request method params writable =>
    by_cases href : c.isOpen = false ∨ writable = false
    · rw [request_refused href]
      exact ⟨_, rfl, List.forall_mem_singleton.2 (.refused method params writable href)⟩
    · refine ⟨[], ?_, by simp⟩
      unfold request
      rw [if_neg (by simpa using href)]
      exact (List.append_nil _).symm
  | ignored line => exact ⟨[], (List.append_nil _).symm, by simp⟩
  | answered line message id outcome hparse hid houtcome =>
    obtain hsame | ⟨w, hw, hwid, hnew⟩ := settled_settle_cases id outcome h.toAccounted
    · exact ⟨[], by rw [hsame, List.append_nil], by simp⟩
    · exact ⟨_, hnew, List.forall_mem_singleton.2
        (.line line message w outcome hw hparse (hwid ▸ hid) houtcome)⟩
  | timedOut id =>
    obtain hsame | ⟨w, hw, rfl, hnew⟩ := settled_settle_cases id .timeout h.toAccounted
    · exact ⟨[], by rw [hsame, List.append_nil], by simp⟩
    · exact ⟨_, hnew, List.forall_mem_singleton.2 (.timedOut w hw)⟩
  | closing => exact settled_closeFor h _

/-- A request that waits is answered by its timer, if by nothing before. -/
theorem answered_by_timer (h : Accounted c) {e : JsNumber × Nat} (he : e ∈ c.pending.entries) :
    ∃ c', c.step keepsData onNotification (.timedOut e.1) = some c' ∧
      c'.settled = c.settled ++ [(e.2, .timeout)] := by
  have htimer : e.1 ∈ c.timers := by
    rw [h.timers]
    exact List.mem_map_of_mem he
  refine ⟨_, if_pos htimer, ?_⟩
  rw [timedOut_eq h htimer, settled_settle, OrderedMap.get_of_mem_entries he]
  rfl

/-- An answer is no notification, and its line is not blank. -/
theorem readMessage_of_answer {line : JsString} {message : Json}
    (hparse : jsonParse line = some message) (hid : answerId message = some id)
    (houtcome : answerOutcome keepsData message = .ok outcome) :
    trim line ≠ [] ∧ readMessage keepsData message = .ok (.answer id outcome) := by
  have hget : message.get (js "id") = some (.number id) := by
    unfold answerId at hid
    split at hid
    · cases hid
      assumption
    · cases hid
  have hobject : message.isObject = true := by
    cases message <;> first | rfl | cases hget
  constructor
  · obtain ⟨w, ws, hline, ⟨inner, _, rfl⟩, _⟩ :=
      JsonLex.objectText_of_jsonParse hparse hobject
    have hmem : JsonParser.openBrace ∈ JsonParser.skipWs line := by
      rw [hline]
      simp
    exact trim_ne_nil_of_mem ((List.dropWhile_suffix _).subset hmem) (by decide)
  · have hnotification : notificationOf message = none := by
      unfold notificationOf
      rw [hget]
      split <;> rfl
    have hnull : message.isNull = false := by
      cases message <;> first | rfl | cases hget
    rw [readMessage, Json.read_of_not_null hnull, hnotification, hid, houtcome]
    rfl

/-- A request that waits is answered by a line with its id. -/
theorem step_answer (h : Sound c) {line : JsString} {message : Json}
    (hparse : jsonParse line = some message) (hid : answerId message = some id)
    (houtcome : answerOutcome keepsData message = .ok outcome) {call : Nat}
    (hwaits : (id, call) ∈ c.pending.entries) :
    ∃ c', c.step keepsData onNotification (.line line) = some c' ∧
      c'.settled = c.settled ++ [(call, outcome)] := by
  have hopen : c.isOpen = true := by
    refine Bool.of_not_eq_false fun hclosed => ?_
    rw [h.closed hclosed] at hwaits
    cases hwaits
  obtain ⟨hline, hread⟩ := readMessage_of_answer hparse hid houtcome
  have honLine : c.onLine keepsData onNotification line = .ok (c.settle id outcome, none) := by
    unfold onLine
    rw [hopen, if_neg (by simp [hline]), hparse]
    dsimp only
    rw [hread]
    rfl
  refine ⟨c.settle id outcome, by simp only [step, honLine], ?_⟩
  rw [settled_settle, OrderedMap.get_of_mem_entries hwaits]
  rfl

/-! ### Whole runs -/

theorem isOpen_request (method : JsString) (params : Json) :
    (c.request method params writable).isOpen = c.isOpen := by
  unfold request
  split <;> rfl

theorem isOpen_closeFor (h : Sound c) (action : Action) :
    (c.closeFor action).isOpen = (c.isOpen && action.closingReason.isNone) := by
  unfold closeFor
  cases action.closingReason with
  | none => exact (Bool.and_true _).symm
  | some reason => exact (isOpen_close h reason).trans (Bool.and_false _).symm

/-- The client is open as long as no closing event fired. -/
theorem isOpen_step (h : Sound c) (hstep : c.step keepsData onNotification action = some c') :
    c'.isOpen = (c.isOpen && action.closingReason.isNone) := by
  cases steps_of_step h.toAccounted hstep with
  | request method params writable =>
    exact (isOpen_request method params).trans (Bool.and_true _).symm
  | ignored line => exact (Bool.and_true _).symm
  | answered line message id outcome =>
    exact (settle_eq c id outcome).1.trans (Bool.and_true _).symm
  | timedOut id => exact (settle_eq c id .timeout).1.trans (Bool.and_true _).symm
  | closing => exact isOpen_closeFor h _

theorem sound_new : Sound {} :=
  ⟨⟨by simp, List.nodup_nil, by simp [OrderedMap.empty], rfl, List.Perm.refl _⟩, fun _ => rfl, rfl⟩

theorem isOpen_run {actions : List Action} (h : Sound c)
    (hrun : run (step keepsData onNotification) c actions = some c') :
    c'.isOpen = (c.isOpen && actions.all (·.closingReason.isNone)) := by
  induction actions generalizing c with
  | nil =>
    cases hrun
    exact (Bool.and_true _).symm
  | cons action actions ih =>
    obtain ⟨u, hu, hrun⟩ := run_cons_eq_some.1 hrun
    rw [ih (sound_step h hu) hrun, isOpen_step h hu, List.all_cons, Bool.and_assoc]

/-- What holds of the client after a run. -/
structure SettlesOnce (keepsData : Bool) (onNotification : RpcNotification → Except TypeFault E)
    (actions : List Action) (c : JsonRpcLineClient) : Prop where
  /-- Each call was answered once, or waits. -/
  calls : (c.settled.map Prod.fst ++ c.pending.entries.map Prod.snd).Perm (List.range c.calls)
  /-- No two requests have one id. -/
  distinct : (c.written.map Written.id).Nodup
  /-- A call that waits is answered by a line with its id, unless reading the outcome throws. -/
  heard : ∀ e ∈ c.pending.entries, ∀ line message outcome, jsonParse line = some message →
    answerId message = some e.1 → answerOutcome keepsData message = .ok outcome →
      ∃ c', c.step keepsData onNotification (.line line) = some c' ∧
        c'.settled = c.settled ++ [(e.2, outcome)]
  /-- A call that waits is answered when its timer fires. -/
  waiting : ∀ e ∈ c.pending.entries, ∃ c',
    c.step keepsData onNotification (.timedOut e.1) = some c' ∧
      c'.settled = c.settled ++ [(e.2, .timeout)]
  /-- What the next event answers, it is entitled to answer. -/
  answers : ∀ action c', c.step keepsData onNotification action = some c' →
    ∃ new, c'.settled = c.settled ++ new ∧ ∀ x ∈ new, Answers keepsData c action x.1 x.2
  /-- After a closing event nobody waits, and every new call is answered at once. -/
  closed : actions.any (·.closingReason.isSome) = true → c.isOpen = false ∧
    c.pending.entries = [] ∧ ∀ method params writable,
      (c.request method params writable).settled = c.settled ++ [(c.calls, .disconnected)]
  /-- `onClosed` was called once if any closing event fired. -/
  closings : c.closings.length = if actions.any (·.closingReason.isSome) then 1 else 0

theorem settlesOnce_of_run {actions : List Action}
    (hrun : run (step keepsData onNotification) {} actions = some c) :
    SettlesOnce keepsData onNotification actions c := by
  have hsound : Sound c := invariant (fun _ _ _ h hstep => sound_step h hstep) sound_new hrun
  have hopen : c.isOpen = !actions.any (·.closingReason.isSome) := by
    rw [isOpen_run sound_new hrun, Bool.true_and, List.not_any_eq_all_not]
    simp only [Option.not_isSome]
  refine ⟨hsound.calls, hsound.distinct,
    fun e he _ _ _ hparse hid houtcome => step_answer hsound hparse hid houtcome he,
    fun e he => answered_by_timer hsound.toAccounted he, fun _ _ hstep => settled_step hsound hstep,
      fun hclosed => ?_, ?_⟩
  · rw [hclosed] at hopen
    refine ⟨hopen, hsound.closed hopen, fun method params writable => ?_⟩
    rw [request_refused (.inl hopen)]
  · rw [hsound.notified, hopen]
    cases actions.any (·.closingReason.isSome) <;> rfl

/-- Two requests answered out of turn, one of them twice, and two closing events. -/
def crossing : List Action :=
  let send := Action.request (js "send") .null
  [send true, send true, .line (js "\x7b\"id\":2,\"result\":true\x7d"),
    .line (js "\x7b\"id\":2,\"result\":false\x7d"), send false, .timedOut (.finite 1), send true,
    .wrote 2 (some (js "EPIPE")), .childClosed (some 1) none, send true]

theorem settlesOnce_crossing :
    ∃ c, run (step true fun _ => .ok ()) {} crossing = some c ∧
      SettlesOnce true (fun _ => .ok ()) crossing c := by
  have hruns : (run (step true fun _ => .ok ()) {} crossing).isSome = true := by decide +kernel
  obtain ⟨c, hrun⟩ := Option.isSome_iff_exists.1 hruns
  exact ⟨c, hrun, settlesOnce_of_run hrun⟩

end JsonRpcLineClient

end TheokitGateways.JsonRpc
