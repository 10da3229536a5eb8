import TheokitGateways.Js.OrderedMap
import TheokitGateways.WhatsApp.Web.Bridges
import TheokitGateways.WhatsApp.Web.Commands

/-!
# Sends through the bridge

`send` writes a command with an id of its own and waits: for the acknowledgement the
bridge writes, for a timer, or for the end of a `disconnect`. `Sender` is the backend
with its sends; a call of `send` is named by its place among the calls. Whichever
comes first ends the wait, once, and a call waits exactly as long as its entry and its
timer are there (`sends_settle_once`). A call whose acknowledgement throws is settled
by nothing any more.
-/

namespace TheokitGateways.WhatsApp.Web
open Js Gateway Json Records Transition

/-- The payload of an error. What it says may be the `error` of an acknowledgement, which is not
checked. -/
structure WebError where
  code : JsString
  message : Json

/-- A `WhatsAppSendResult` of this backend, whose `wamid` is not checked either. -/
structure WebSendResult where
  ok : Bool
  wamid : Option Json := none
  error : Option WebError := none

/-- `{ ok: false, error: { code, message } }`. -/
def WebSendResult.failure (code message : JsString) : WebSendResult :=
  { ok := false, error := some ⟨code, .string message⟩ }

/-- `items.includes(text)`. -/
def includesItem (text : JsString) (items : List Json) : Bool :=
  items.any fun
    | .string s => s = text
    | _ => false

/-- The code of an error by what it includes. -/
def webErrorCode (has : JsString → Bool) : JsString :=
  if has (js "AUTHENTICATION") || has (js "UNAUTHORIZED") then js "auth_failed"
  else if has (js "RATE") || has (js "THROTTLE") then js "rate_limit"
  else if has (js "PROTOCOL") || has (js "DISCONNECT") then js "server_error"
  else if has (js "TIMEOUT") then js "timeout"
  else js "unknown"

/-- Map an error of the bridge into the canonical payload. Texts and lists have an `includes`; for
anything else the call of it throws. -/
def mapWhatsAppWebError (ipcError : Option Json) : Option WebError :=
  match coalesce ipcError (some (.string (js "unknown bridge error"))) with
  | some (.string msg) => some ⟨webErrorCode (includes · msg), .string msg⟩
  | some (.array items) => some ⟨webErrorCode (includesItem · items), .array items⟩
  | _ => none

/-- What is read of a `send_ack`. -/
structure SendAck where
  /-- The text of its id; no call waits for anything else. -/
  msgId : Option JsString
  success : Bool
  wamid : Option Json
  error : Option Json

/-- The acknowledgement that an event is, if it is one. -/
def SendAck.ofJson (event : Json) : Option SendAck :=
  if textMember event (js "event") = js "send_ack" then
    some {
      msgId := optString (event.get (js "msgId"))
      success := (event.get (js "success")).any truthy
      wamid := event.get (js "wamid")
      error := event.get (js "error") }
  else none

/-- What an acknowledgement settles a send with, unless it throws. -/
def SendAck.result (ack : SendAck) : Option WebSendResult :=
  if ack.success then some { ok := true, wamid := ack.wamid }
  else (mapWhatsAppWebError ack.error).map fun error => { ok := false, error := some error }

/-- A call of `send`. -/
structure SendCall where
  message : WhatsAppOutboundMessage
  /-- The id of its command, unless the backend was not connected. -/
  msgId : Option JsString
  result : Option WebSendResult
  /-- Its acknowledgement has thrown. -/
  lost : Bool := false

structure Sender where
  backend : WhatsAppWebBackend := {}
  msgIdCounter : Nat := 0
  /-- The call that waits for an id. -/
  pending : OrderedMap JsString Nat := .empty
  /-- The calls whose timers have not fired or been cleared. -/
  timers : List Nat := []
  sends : List SendCall := []
  /-- The commands, with the bridge each was written to. -/
  written : List (Nat × IpcCommand) := []
  /-- An acknowledgement has thrown, which ends the loop over the lines. -/
  thrown : Bool := false

inductive SendAction where
  /-- Whatever else happens to the backend, by whether the bridge's stdin takes a command. -/
  | backend (action : Action) (stdin : Bool)
  /-- A call of `send`, by whether the bridge has a stdin, and whether writing to it throws. -/
  | send (message : WhatsAppOutboundMessage) (stdin : Bool) (write : Except JsString Unit)
  /-- The timer of a call fires. -/
  | sendTimeout (i : Nat)

/-- The loop over the lines ends early. -/
def SendAction.isCutShort : SendAction → Bool
  | .backend .cutShort _ => true
  | _ => false

def notConnected : WebSendResult := .failure (js "not_connected") (js "Bridge not connected.")

def bridgeDisconnected : WebSendResult := .failure (js "server_error") (js "Bridge disconnected.")

def sendTimedOut (timeoutMs : JsString) : WebSendResult :=
  .failure (js "timeout") (js "Bridge send timed out after " ++ timeoutMs ++ js "ms.")

namespace SendCall

/-- Its promise has not settled, and something may still settle it. -/
def waits (call : SendCall) : Bool := call.result.isNone && !call.lost

/-- A call settles, unless it has. -/
def settle (result : WebSendResult) (call : SendCall) : SendCall :=
  match call.result with
  | none => { call with result := some result }
  | some _ => call

/-- An acknowledgement comes for a call. -/
def acknowledge (ack : SendAck) (call : SendCall) : SendCall :=
  match ack.result with
  | some result => call.settle result
  | none => { call with lost := true }

/-- A change of calls that ends their wait. -/
structure Ends (f : SendCall → SendCall) : Prop where
  message : ∀ call, (f call).message = call.message
  msgId : ∀ call, (f call).msgId = call.msgId
  ended : ∀ call, (f call).waits = false
  settled : ∀ call, call.result.isSome = true → (f call).result.isSome = true

theorem isSome_settle (result : WebSendResult) (call : SendCall) :
    (call.settle result).result.isSome = true := by
  unfold settle
  split
  · rfl
  · rename_i h
    rw [h]
    rfl

theorem waits_of_isSome {call : SendCall} (h : call.result.isSome = true) : call.waits = false := by
  obtain ⟨r, hr⟩ := Option.isSome_iff_exists.1 h
  rw [waits, hr]
  rfl

theorem result_of_waits {call : SendCall} (h : call.waits = true) : call.result = none :=
  Option.isNone_iff_eq_none.1 (Bool.and_eq_true_iff.1 h).1

theorem ends_settle (result : WebSendResult) : Ends (settle result) where
  message call := by
    unfold settle
    split <;> rfl
  msgId call := by
    unfold settle
    split <;> rfl
  ended call := waits_of_isSome (call.isSome_settle result)
  settled call _ := call.isSome_settle result

theorem ends_acknowledge (ack : SendAck) : Ends (acknowledge ack) := by
  unfold acknowledge
  split
  · exact ends_settle _
  · exact ⟨fun _ => rfl, fun _ => rfl, fun _ => Bool.and_false _, fun _ h => h⟩

theorem settle_of_settled {call : SendCall} {r : WebSendResult} (h : call.result = some r)
    (result : WebSendResult) : call.settle result = call := by
  unfold settle
  rw [h]

end SendCall

namespace Sender

def modifySend (s : Sender) (i : Nat) (f : SendCall → SendCall) : Sender :=
  { s with sends := s.sends.modify i f }

/-- A promise is resolved. -/
def settle (s : Sender) (i : Nat) (result : WebSendResult) : Sender :=
  s.modifySend i (SendCall.settle result)

/-- The entry of an id and the timer of its call go. -/
def clear (s : Sender) (msgId : JsString) (i : Nat) : Sender :=
  { s with pending := s.pending.delete msgId, timers := s.timers.filter (· ≠ i) }

def nextMsgId (s : Sender) : JsString := js "out-" ++ natText (s.msgIdCounter + 1)

/-- A call that waits, under the next id. -/
def register (s : Sender) (message : WhatsAppOutboundMessage) : Sender :=
  { s with
    msgIdCounter := s.msgIdCounter + 1
    pending := s.pending.set s.nextMsgId s.sends.length
    timers := s.timers ++ [s.sends.length]
    sends := s.sends ++ [⟨message, some s.nextMsgId, none, false⟩] }

/-- `send(message)` up to its promise. -/
def send (s : Sender) (message : WhatsAppOutboundMessage) (stdin : Bool)
    (write : Except JsString Unit) : Sender :=
  match s.backend.connected, s.backend.handle, stdin with
  | true, some k, true =>
    match write with
    | .ok () =>
      { s.register message with
        written := s.written ++ [(k, .send s.nextMsgId message.recipient message.text)] }
    | .error err =>
      ((s.register message).clear s.nextMsgId s.sends.length).settle s.sends.length
        { ok := false, error := mapWhatsAppWebError (some (.string err)) }
  | _, _, _ => { s with sends := s.sends ++ [⟨message, none, some notConnected, false⟩] }

/-- `handleSendAck`. -/
def handleSendAck (s : Sender) (ack : SendAck) : Sender :=
  match ack.msgId with
  | none => s
  | some msgId =>
    match s.pending.get msgId with
    | some i =>
      { (s.clear msgId i).modifySend i (SendCall.acknowledge ack) with thrown := ack.result.isNone }
    | none => s

/-- The last steps of `disconnect`: reject any pending sends. -/
def rejectPending (s : Sender) : Sender :=
  let waiting := s.pending.entries.map Prod.snd
  { s with
    pending := .empty
    timers := s.timers.filter fun i => !waiting.contains i
    sends := waiting.foldl (fun sends i => sends.modify i (SendCall.settle bridgeDisconnected))
      s.sends }

/-- The acknowledgement that the loop over the lines dispatches next. -/
def nextAck (b : WhatsAppWebBackend) : Action → Option SendAck
  | .dispatch _ => match b.batch with
    | some (line :: _) => (parseEvent line).bind SendAck.ofJson
    | _ => none
  | _ => none

/-- A `disconnect` ends. -/
def endsDisconnect (b : WhatsAppWebBackend) : Action → Bool
  | .finish i => match b.calls[i]? with
    | some (.disconnecting _) => true
    | _ => false
  | _ => false

/-- What `disconnect` writes to the bridge before it terminates it. -/
def shutdownCommand (b : WhatsAppWebBackend) (stdin : Bool) : Action → List (Nat × IpcCommand)
  | .disconnect => match b.connected, b.handle, stdin with
    | true, some k, true => [(k, .shutdown)]
    | _, _, _ => []
  | _ => []

/-- What comes of the sends when the backend takes an action. -/
def afterBackend (s : Sender) (b : WhatsAppWebBackend) (action : Action) (stdin : Bool) : Sender :=
  let s' := { s with
    backend := b
    written := s.written ++ shutdownCommand s.backend stdin action
    thrown := false }
  match nextAck s.backend action with
  | some ack => s'.handleSendAck ack
  | none => if endsDisconnect s.backend action then s'.rejectPending else s'

section
-- The connect timeout and the send timeout, as the errors name them.
variable (connectTimeoutMs sendTimeoutMs : JsString)

def step (s : Sender) (action : SendAction) : Option Sender :=
  if s.thrown && !action.isCutShort then none
  else
    match action with
    | .backend action stdin => do
      let b ← s.backend.step connectTimeoutMs action
      some (s.afterBackend b action stdin)
    | .send message stdin write => some (s.send message stdin write)
    | .sendTimeout i => do
      let call ← s.sends[i]?
      let msgId ← call.msgId
      if s.timers.contains i then
        some ((s.clear msgId i).settle i (sendTimedOut sendTimeoutMs))
      else none

end

/-- What every step keeps: a call waits exactly as long as its entry and its timer are there, and no
two calls have one id. -/
structure Sound (s : Sender) : Prop where
  waits : ∀ (msgId : JsString) (i : Nat), s.pending.get msgId = some i ↔
    ∃ message, s.sends[i]? = some ⟨message, some msgId, none, false⟩
  timed : ∀ i, i ∈ s.timers ↔ ∃ msgId, s.pending.get msgId = some i
  named : ∀ (i : Nat) (call : SendCall) (msgId : JsString), s.sends[i]? = some call →
    call.msgId = some msgId → ∃ n ≤ s.msgIdCounter, msgId = js "out-" ++ natText n
  distinct : ∀ (i j : Nat) (c d : SendCall) (msgId : JsString), s.sends[i]? = some c →
    s.sends[j]? = some d → c.msgId = some msgId → d.msgId = some msgId → i = j
  refused : ∀ call ∈ s.sends, call.msgId = none → call.result.isSome = true

variable {s : Sender} {i : Nat} {msgId : JsString} {f : SendCall → SendCall}

theorem sound_init : Sound {} where
  waits _ _ := ⟨fun h => (nomatch h), fun ⟨_, h⟩ => (nomatch h)⟩
  timed _ := ⟨fun h => (nomatch h), fun ⟨_, h⟩ => (nomatch h)⟩
  named _ _ _ h := nomatch h
  distinct _ _ _ _ _ h := nomatch h
  refused _ h := nomatch h

/-- No call has the next id. -/
theorem Sound.nextMsgId_new (h : s.Sound) {call : SendCall} (hi : s.sends[i]? = some call) :
    call.msgId ≠ some s.nextMsgId := by
  intro hid
  obtain ⟨n, hn, heq⟩ := h.named i call _ hi hid
  have hnum : s.msgIdCounter + 1 = n := natText_inj (List.append_cancel_left heq)
  omega

theorem Sound.get_nextMsgId (h : s.Sound) : s.pending.get s.nextMsgId = none := by
  cases hget : s.pending.get s.nextMsgId with
  | none => rfl
  | some i =>
    obtain ⟨message, hi⟩ := (h.waits _ i).1 hget
    exact (h.nextMsgId_new hi rfl).elim

theorem Sound.register (h : s.Sound) (message : WhatsAppOutboundMessage) :
    (s.register message).Sound where
  waits msgId i := by
    simp only [Sender.register, OrderedMap.get_set, getElem?_append_singleton]
    by_cases hid : msgId = s.nextMsgId
    · subst hid
      rw [if_pos rfl]
      constructor
      · rintro ⟨⟩
        exact ⟨message, .inr ⟨rfl, rfl⟩⟩
      · rintro ⟨_, hold | ⟨rfl, _⟩⟩
        · exact (h.nextMsgId_new hold rfl).elim
        · rfl
    · rw [if_neg hid, h.waits]
      constructor
      · rintro ⟨message, hi⟩
        exact ⟨message, .inl hi⟩
      · rintro ⟨_, hold | ⟨_, ⟨⟩⟩⟩
        · exact ⟨_, hold⟩
        · exact (hid rfl).elim
  timed i := by
    simp only [Sender.register, OrderedMap.get_set, List.mem_append, List.mem_singleton, h.timed]
    constructor
    · rintro (⟨msgId, hget⟩ | rfl)
      · refine ⟨msgId, ?_⟩
        rw [if_neg, hget]
        rintro rfl
        rw [h.get_nextMsgId] at hget
        cases hget
      · exact ⟨s.nextMsgId, if_pos rfl⟩
    · rintro ⟨msgId, hget⟩
      split at hget
      · exact .inr (Option.some.inj hget).symm
      · exact .inl ⟨msgId, hget⟩
  named i call msgId hi hid := by
    obtain hold | ⟨rfl, rfl⟩ := getElem?_append_singleton.1 hi
    · obtain ⟨n, hn, heq⟩ := h.named i call msgId hold hid
      exact ⟨n, Nat.le_succ_of_le hn, heq⟩
    · cases hid
      exact ⟨_, Nat.le_refl _, rfl⟩
  distinct i j c d msgId hi hj hc hd := by
    obtain hi | ⟨rfl, rfl⟩ := getElem?_append_singleton.1 hi
    · obtain hj | ⟨rfl, rfl⟩ := getElem?_append_singleton.1 hj
      · exact h.distinct i j c d msgId hi hj hc hd
      · cases hd
        exact (h.nextMsgId_new hi hc).elim
    · obtain hj | ⟨rfl, rfl⟩ := getElem?_append_singleton.1 hj
      · cases hc
        exact (h.nextMsgId_new hj hd).elim
      · rfl
  refused call hcall hid := by
    obtain hcall | hcall := List.mem_append.1 hcall
    · exact h.refused call hcall hid
    · cases List.mem_singleton.1 hcall
      cases hid

theorem modifySend_eq_some {call : SendCall} {j : Nat} :
    (s.modifySend i f).sends[j]? = some call ↔ ∃ old, s.sends[j]? = some old ∧
      call = if i = j then f old else old := getElem?_modify_eq_some

theorem msgId_modifySend (hf : SendCall.Ends f) {call : SendCall} {j : Nat}
    (h : ((s.clear msgId i).modifySend i f).sends[j]? = some call) :
    ∃ old, s.sends[j]? = some old ∧ old.msgId = call.msgId := by
  obtain ⟨old, hold, rfl⟩ := modifySend_eq_some.1 h
  refine ⟨old, hold, ?_⟩
  split
  · exact (hf.msgId old).symm
  · rfl

/-- An id belongs to one call at most, and a call to one id. -/
theorem Sound.eq_of_get (h : s.Sound) {msgId' : JsString} (hget : s.pending.get msgId = some i)
    (hget' : s.pending.get msgId' = some i) : msgId' = msgId := by
  obtain ⟨_, hi⟩ := (h.waits _ _).1 hget
  obtain ⟨_, hi'⟩ := (h.waits _ _).1 hget'
  cases Option.some.inj (hi.symm.trans hi')
  rfl

/-- An entry goes together with its timer, and the wait of its call ends. -/
theorem Sound.ended (h : s.Sound) (hget : s.pending.get msgId = some i) (hf : SendCall.Ends f) :
    ((s.clear msgId i).modifySend i f).Sound where
  waits msgId' j := by
    simp only [modifySend_eq_some]
    show (s.pending.delete msgId).get msgId' = some j ↔ ∃ message, ∃ old, s.sends[j]? = some old ∧ _
    rw [OrderedMap.get_delete]
    by_cases hj : i = j
    · subst hj
      simp only [if_true]
      constructor
      · intro hget'
        obtain ⟨hne, hget'⟩ := Option.ite_none_left_eq_some.1 hget'
        exact (hne (h.eq_of_get hget hget')).elim
      · rintro ⟨message, old, _, heq⟩
        have hover := hf.ended old
        rw [← heq] at hover
        cases hover
    · simp only [if_neg hj]
      constructor
      · intro hget'
        obtain ⟨message, hmem⟩ := (h.waits _ _).1 (Option.ite_none_left_eq_some.1 hget').2
        exact ⟨message, _, hmem, rfl⟩
      · rintro ⟨message, _, hmem, rfl⟩
        have hget' := (h.waits _ _).2 ⟨message, hmem⟩
        refine Option.ite_none_left_eq_some.2 ⟨?_, hget'⟩
        rintro rfl
        exact hj (Option.some.inj (hget.symm.trans hget'))
  timed j := by
    show j ∈ s.timers.filter (· ≠ i) ↔ ∃ msgId', (s.pending.delete msgId).get msgId' = some j
    simp only [List.mem_filter, decide_eq_true_eq, h.timed, OrderedMap.get_delete,
      Option.ite_none_left_eq_some]
    constructor
    · rintro ⟨⟨msgId', hget'⟩, hne⟩
      refine ⟨msgId', ?_, hget'⟩
      rintro rfl
      exact hne (Option.some.inj (hget'.symm.trans hget))
    · rintro ⟨msgId', hne, hget'⟩
      refine ⟨⟨msgId', hget'⟩, ?_⟩
      rintro rfl
      exact hne (h.eq_of_get hget hget')
  named j call msgId' hj hid := by
    obtain ⟨old, hold, hold'⟩ := msgId_modifySend hf hj
    exact h.named j old msgId' hold (hold'.trans hid)
  distinct j k c d msgId' hj hk hc hd := by
    obtain ⟨old, hold, hold'⟩ := msgId_modifySend hf hj
    obtain ⟨other, hother, hother'⟩ := msgId_modifySend hf hk
    exact h.distinct j k old other msgId' hold hother (hold'.trans hc) (hother'.trans hd)
  refused call hcall hid := by
    obtain ⟨j, hj⟩ := List.getElem?_of_mem hcall
    obtain ⟨old, hold, rfl⟩ := modifySend_eq_some.1 hj
    by_cases hij : i = j
    · rw [if_pos hij] at hid ⊢
      rw [hf.msgId] at hid
      exact hf.settled old (h.refused old (List.mem_of_getElem? hold) hid)
    · rw [if_neg hij] at hid ⊢
      exact h.refused old (List.mem_of_getElem? hold) hid

/-- Changing several records, each in the same way however often. -/
theorem getElem?_foldl_modify {α : Type} {f : α → α} (hf : ∀ x, f (f x) = f x) (is : List Nat)
    (xs : List α) (j : Nat) : (is.foldl (fun xs i => xs.modify i f) xs)[j]? =
      xs[j]?.map fun x => if j ∈ is then f x else x := by
  induction is generalizing xs with
  | nil => simp
  | cons i is ih =>
    rw [List.foldl_cons, ih, List.getElem?_modify]
    cases xs[j]? with
    | none => rfl
    | some x => grind

theorem rejected_eq_some {call : SendCall} {j : Nat} :
    s.rejectPending.sends[j]? = some call ↔ ∃ old, s.sends[j]? = some old ∧
      call = if j ∈ s.pending.entries.map Prod.snd then old.settle bridgeDisconnected else old := by
  have hsettled (call : SendCall) : (call.settle bridgeDisconnected).settle bridgeDisconnected =
      call.settle bridgeDisconnected := by
    obtain ⟨r, hr⟩ := Option.isSome_iff_exists.1 (call.isSome_settle bridgeDisconnected)
    exact SendCall.settle_of_settled hr _
  rw [rejectPending, getElem?_foldl_modify hsettled, Option.map_eq_some_iff]
  exact exists_congr fun old => and_congr_right fun _ => eq_comm

theorem mem_waiting : i ∈ s.pending.entries.map Prod.snd ↔
    ∃ msgId, s.pending.get msgId = some i := by
  rw [List.mem_map]
  constructor
  · rintro ⟨e, he, rfl⟩
    exact ⟨e.1, OrderedMap.get_of_mem_entries he⟩
  · rintro ⟨msgId, hget⟩
    exact ⟨(msgId, i), OrderedMap.mem_entries_of_get hget, rfl⟩

theorem msgId_rejected {call : SendCall} {j : Nat} (h : s.rejectPending.sends[j]? = some call) :
    ∃ old, s.sends[j]? = some old ∧ old.msgId = call.msgId := by
  obtain ⟨old, hold, rfl⟩ := rejected_eq_some.1 h
  refine ⟨old, hold, ?_⟩
  split
  · exact ((SendCall.ends_settle bridgeDisconnected).msgId old).symm
  · rfl

/-- Nothing waits any more. -/
theorem Sound.rejectPending (h : s.Sound) : s.rejectPending.Sound where
  waits msgId j := by
    simp only [rejected_eq_some]
    constructor
    · intro hget
      cases hget
    · rintro ⟨message, old, hold, heq⟩
      exfalso
      by_cases hj : j ∈ s.pending.entries.map Prod.snd
      · rw [if_pos hj] at heq
        have hsome := old.isSome_settle bridgeDisconnected
        rw [← heq] at hsome
        cases hsome
      · rw [if_neg hj] at heq
        subst heq
        exact hj (mem_waiting.2 ⟨msgId, (h.waits _ _).2 ⟨message, hold⟩⟩)
  timed j := by
    constructor
    · intro hj
      obtain ⟨hj, hnot⟩ := List.mem_filter.1 hj
      have hwaiting := mem_waiting.2 ((h.timed j).1 hj)
      simp [hwaiting] at hnot
    · rintro ⟨msgId, hget⟩
      cases hget
  named j call msgId hj hid := by
    obtain ⟨old, hold, hold'⟩ := msgId_rejected hj
    exact h.named j old msgId hold (hold'.trans hid)
  distinct j k c d msgId hj hk hc hd := by
    obtain ⟨old, hold, hold'⟩ := msgId_rejected hj
    obtain ⟨other, hother, hother'⟩ := msgId_rejected hk
    exact h.distinct j k old other msgId hold hother (hold'.trans hc) (hother'.trans hd)
  refused call hcall hid := by
    obtain ⟨j, hj⟩ := List.getElem?_of_mem hcall
    obtain ⟨old, hold, rfl⟩ := rejected_eq_some.1 hj
    by_cases hwaiting : j ∈ s.pending.entries.map Prod.snd
    · rw [if_pos hwaiting]
      exact old.isSome_settle bridgeDisconnected
    · rw [if_neg hwaiting] at hid ⊢
      exact h.refused old (List.mem_of_getElem? hold) hid

theorem Sound.refuse (h : s.Sound) (message : WhatsAppOutboundMessage) :
    { s with sends := s.sends ++ [⟨message, none, some notConnected, false⟩] : Sender }.Sound where
  waits msgId j := by
    simp only [getElem?_append_singleton, h.waits]
    refine exists_congr fun _ => ⟨.inl, fun hmem => hmem.resolve_right ?_⟩
    rintro ⟨_, heq⟩
    cases heq
  timed := h.timed
  named j call msgId hj hid := by
    obtain hj | ⟨_, rfl⟩ := getElem?_append_singleton.1 hj
    · exact h.named j call msgId hj hid
    · cases hid
  distinct j k c d msgId hj hk hc hd := by
    obtain hj | ⟨_, rfl⟩ := getElem?_append_singleton.1 hj
    · obtain hk | ⟨_, rfl⟩ := getElem?_append_singleton.1 hk
      · exact h.distinct j k c d msgId hj hk hc hd
      · cases hd
    · cases hc
  refused call hcall hid := by
    obtain hcall | hcall := List.mem_append.1 hcall
    · exact h.refused call hcall hid
    · cases List.mem_singleton.1 hcall
      rfl

/-- The backend, its commands and its loop over the lines are not what `Sound` is about. -/
theorem Sound.with_backend (h : s.Sound) (b : WhatsAppWebBackend)
    (written : List (Nat × IpcCommand)) (thrown : Bool) :
    { s with backend := b, written := written, thrown := thrown : Sender }.Sound where
  waits := h.waits
  timed := h.timed
  named := h.named
  distinct := h.distinct
  refused := h.refused

theorem Sound.handleSendAck (h : s.Sound) (ack : SendAck) : (s.handleSendAck ack).Sound := by
  unfold Sender.handleSendAck
  split
  · exact h
  · split
    · exact (h.ended ‹_› (SendCall.ends_acknowledge ack)).with_backend _ _ _
    · exact h

theorem Sound.send (h : s.Sound) (message : WhatsAppOutboundMessage) (stdin : Bool)
    (write : Except JsString Unit) : (s.send message stdin write).Sound := by
  unfold Sender.send
  split
  · split
    · exact (h.register message).with_backend _ _ _
    · exact (h.register message).ended (by simp [Sender.register]) (SendCall.ends_settle _)
  · exact h.refuse message

theorem Sound.afterBackend (h : s.Sound) (b : WhatsAppWebBackend) (action : Action)
    (stdin : Bool) : (s.afterBackend b action stdin).Sound := by
  have h' := h.with_backend b (s.written ++ shutdownCommand s.backend stdin action) false
  unfold Sender.afterBackend
  dsimp only
  split
  · exact h'.handleSendAck _
  · split
    · exact h'.rejectPending
    · exact h'

variable {connectTimeoutMs sendTimeoutMs : JsString} {s' : Sender} {action : SendAction}

/-- What an action does. -/
inductive Steps (connectTimeoutMs sendTimeoutMs : JsString) (s : Sender) :
    SendAction → Sender → Prop where
  | backend {action : Action} {b : WhatsAppWebBackend}
    (hstep : s.backend.step connectTimeoutMs action = some b) (stdin : Bool) :
    Steps connectTimeoutMs sendTimeoutMs s (.backend action stdin) (s.afterBackend b action stdin)
  | send (message : WhatsAppOutboundMessage) (stdin : Bool) (write : Except JsString Unit) :
    Steps connectTimeoutMs sendTimeoutMs s (.send message stdin write) (s.send message stdin write)
  | sendTimeout {i : Nat} {call : SendCall} {msgId : JsString} (hi : s.sends[i]? = some call)
    (hid : call.msgId = some msgId) (htimer : i ∈ s.timers) :
    Steps connectTimeoutMs sendTimeoutMs s (.sendTimeout i)
      ((s.clear msgId i).settle i (sendTimedOut sendTimeoutMs))

theorem steps_of_step (hstep : s.step connectTimeoutMs sendTimeoutMs action = some s') :
    Steps connectTimeoutMs sendTimeoutMs s action s' := by
  obtain ⟨_, hstep⟩ := Option.ite_none_left_eq_some.1 hstep
  cases action with
  | backend action stdin =>
    obtain ⟨b, hb, hstep⟩ := Option.bind_eq_some_iff.1 hstep
    cases hstep
    exact .backend hb stdin
  | send message stdin write =>
    cases hstep
    exact .send message stdin write
  | sendTimeout i =>
    obtain ⟨call, hi, hstep⟩ := Option.bind_eq_some_iff.1 hstep
    obtain ⟨msgId, hid, hstep⟩ := Option.bind_eq_some_iff.1 hstep
    obtain ⟨htimer, hstep⟩ := Option.ite_none_right_eq_some.1 hstep
    cases hstep
    exact .sendTimeout hi hid (List.contains_iff_mem.1 htimer)

/-- The call whose timer fires is the one that waits under its id. -/
theorem Sound.get_of_timer (h : s.Sound) {call : SendCall} (hi : s.sends[i]? = some call)
    (hid : call.msgId = some msgId) (htimer : i ∈ s.timers) : s.pending.get msgId = some i := by
  obtain ⟨msgId', hget⟩ := (h.timed i).1 htimer
  obtain ⟨_, hi'⟩ := (h.waits _ _).1 hget
  cases Option.some.inj (hi.symm.trans hi')
  cases hid
  exact hget

theorem sound_step (h : s.Sound) (hstep : s.step connectTimeoutMs sendTimeoutMs action = some s') :
    s'.Sound := by
  cases steps_of_step hstep with
  | backend _ stdin => exact h.afterBackend _ _ stdin
  | send message stdin write => exact h.send message stdin write
  | sendTimeout hi hid htimer =>
    exact h.ended (h.get_of_timer hi hid htimer) (SendCall.ends_settle _)

/-- A call waits as long as its timer and its entry are there. -/
theorem Sound.waits_iff (h : s.Sound) {call : SendCall} (hi : s.sends[i]? = some call) :
    (call.waits = true ↔ i ∈ s.timers) ∧
      (call.waits = true ↔ ∃ msgId, call.msgId = some msgId ∧ s.pending.get msgId = some i) := by
  have hwaits : call.waits = true ↔ ∃ msgId, call.msgId = some msgId ∧
      s.pending.get msgId = some i := by
    constructor
    · intro hwaits
      obtain ⟨message, _ | msgId, result, lost⟩ := call
      · have hsettled := SendCall.waits_of_isSome (h.refused _ (List.mem_of_getElem? hi) rfl)
        rw [hwaits] at hsettled
        cases hsettled
      · cases result with
        | some r => cases hwaits
        | none =>
          cases lost with
          | true => cases hwaits
          | false => exact ⟨msgId, rfl, (h.waits _ _).2 ⟨message, hi⟩⟩
    · rintro ⟨msgId, _, hget⟩
      obtain ⟨message, hi'⟩ := (h.waits _ _).1 hget
      cases Option.some.inj (hi.symm.trans hi')
      rfl
  refine ⟨?_, hwaits⟩
  rw [h.timed]
  constructor
  · intro hcall
    obtain ⟨msgId, _, hget⟩ := hwaits.1 hcall
    exact ⟨msgId, hget⟩
  · rintro ⟨msgId, hget⟩
    obtain ⟨message, hi'⟩ := (h.waits _ _).1 hget
    cases Option.some.inj (hi.symm.trans hi')
    rfl

/-- What becomes of a call. -/
def callAfter (sendTimeoutMs : JsString) (s : Sender) (i : Nat) (call : SendCall) :
    SendAction → SendCall
  | .backend action _ =>
    match nextAck s.backend action with
    | some ack => if call.waits ∧ ack.msgId = call.msgId then call.acknowledge ack else call
    | none =>
      if call.waits ∧ endsDisconnect s.backend action then call.settle bridgeDisconnected else call
  | .send .. => call
  | .sendTimeout j =>
    if call.waits ∧ j = i then call.settle (sendTimedOut sendTimeoutMs) else call

/-- A call stays as it is, or its wait ends. -/
theorem callAfter_eq (call : SendCall) : callAfter sendTimeoutMs s i call action = call ∨
    ∃ f, SendCall.Ends f ∧ callAfter sendTimeoutMs s i call action = f call := by
  cases action with
  | send => exact .inl rfl
  | backend action stdin =>
    unfold callAfter
    dsimp only
    split
    · split
      · exact .inr ⟨_, SendCall.ends_acknowledge _, rfl⟩
      · exact .inl rfl
    · split
      · exact .inr ⟨_, SendCall.ends_settle _, rfl⟩
      · exact .inl rfl
  | sendTimeout j =>
    unfold callAfter
    dsimp only
    split
    · exact .inr ⟨_, SendCall.ends_settle _, rfl⟩
    · exact .inl rfl

/-- An acknowledgement is for the call that waits under its id. -/
theorem Sound.sends_handleSendAck (h : s.Sound) {call : SendCall} (hi : s.sends[i]? = some call)
    (ack : SendAck) : (s.handleSendAck ack).sends[i]? =
      some (if call.waits ∧ ack.msgId = call.msgId then call.acknowledge ack else call) := by
  obtain ⟨_, hwaits⟩ := h.waits_iff hi
  unfold Sender.handleSendAck
  split
  · next hnone =>
    rw [if_neg, hi]
    rintro ⟨hcall, hid⟩
    obtain ⟨msgId, hmsgId, _⟩ := hwaits.1 hcall
    rw [hnone, hmsgId] at hid
    cases hid
  · next msgId hid =>
    split
    · next j hget =>
      refine modifySend_eq_some.2 ⟨call, hi, ?_⟩
      by_cases hj : j = i
      · subst hj
        obtain ⟨message, hi'⟩ := (h.waits _ _).1 hget
        cases Option.some.inj (hi.symm.trans hi')
        rw [if_pos ⟨rfl, hid⟩, if_pos rfl]
      · rw [if_neg hj, if_neg]
        rintro ⟨hcall, hsame⟩
        obtain ⟨msgId', hmsgId, hget'⟩ := hwaits.1 hcall
        cases hid.symm.trans (hsame.trans hmsgId)
        exact hj (Option.some.inj (hget.symm.trans hget'))
    · next hnone =>
      rw [if_neg, hi]
      rintro ⟨hcall, hsame⟩
      obtain ⟨msgId', hmsgId, hget⟩ := hwaits.1 hcall
      cases hid.symm.trans (hsame.trans hmsgId)
      rw [hnone] at hget
      cases hget

/-- The end of a `disconnect` is for the calls that wait. -/
theorem Sound.sends_rejectPending (h : s.Sound) {call : SendCall} (hi : s.sends[i]? = some call) :
    s.rejectPending.sends[i]? =
      some (if call.waits then call.settle bridgeDisconnected else call) := by
  refine rejected_eq_some.2 ⟨call, hi, ?_⟩
  by_cases hcall : call.waits = true
  · obtain ⟨msgId, _, hget⟩ := (h.waits_iff hi).2.1 hcall
    rw [if_pos hcall, if_pos (mem_waiting.2 ⟨msgId, hget⟩)]
  · have hnot : i ∉ s.pending.entries.map Prod.snd := by
      intro hmem
      obtain ⟨msgId, hget⟩ := mem_waiting.1 hmem
      exact hcall ((h.waits_iff hi).1.2 ((h.timed i).2 ⟨msgId, hget⟩))
    rw [if_neg hcall, if_neg hnot]

theorem Sound.sends_afterBackend (h : s.Sound) {call : SendCall} (hi : s.sends[i]? = some call)
    (b : WhatsAppWebBackend) (action : Action) (stdin : Bool) :
    (s.afterBackend b action stdin).sends[i]? =
      some (callAfter sendTimeoutMs s i call (.backend action stdin)) := by
  have h' := h.with_backend b (s.written ++ shutdownCommand s.backend stdin action) false
  unfold Sender.afterBackend callAfter
  dsimp only
  cases nextAck s.backend action with
  | some ack => exact h'.sends_handleSendAck hi ack
  | none =>
    by_cases hend : endsDisconnect s.backend action = true
    · simp only [hend, if_true, and_true]
      exact h'.sends_rejectPending hi
    · simp only [hend, Bool.false_eq_true, if_false, and_false]
      exact hi

theorem Sound.sends_step (h : s.Sound)
    (hstep : s.step connectTimeoutMs sendTimeoutMs action = some s') {call : SendCall}
    (hi : s.sends[i]? = some call) :
    s'.sends[i]? = some (callAfter sendTimeoutMs s i call action) := by
  cases steps_of_step hstep with
  | backend _ stdin => exact h.sends_afterBackend hi _ _ _
  | send message stdin write =>
    have hkeeps (new : SendCall) : (s.sends ++ [new])[i]? = some call :=
      getElem?_append_singleton.2 (.inl hi)
    have hlt := (List.getElem?_eq_some_iff.1 hi).1
    rw [callAfter]
    unfold Sender.send
    split
    · split
      · exact hkeeps _
      · refine modifySend_eq_some.2 ⟨call, hkeeps _, ?_⟩
        rw [if_neg (by omega)]
    · exact hkeeps _
  | @sendTimeout j other msgId hj hid htimer =>
    refine modifySend_eq_some.2 ⟨call, hi, ?_⟩
    rw [callAfter]
    by_cases hij : j = i
    · subst hij
      rw [if_pos ⟨(h.waits_iff hi).1.2 htimer, rfl⟩, if_pos rfl]
    · rw [if_neg (fun hcall => hij hcall.2), if_neg hij]

/-- After a `disconnect` no call waits. -/
theorem over_of_endsDisconnect (h : s.Sound) {action : Action} {stdin : Bool}
    (hend : endsDisconnect s.backend action = true)
    (hstep : s.step connectTimeoutMs sendTimeoutMs (.backend action stdin) = some s') :
    ∀ call ∈ s'.sends, call.waits = false := by
  intro call hcall
  have hsound := sound_step h hstep
  obtain ⟨i, hi⟩ := List.getElem?_of_mem hcall
  refine Bool.eq_false_iff.2 fun hwaits => ?_
  obtain ⟨msgId, _, hget⟩ := (hsound.waits_iff hi).2.1 hwaits
  cases action with
  | finish k =>
    cases steps_of_step hstep with
    | backend _ _ =>
      simp only [afterBackend, nextAck, hend, if_true] at hget
      cases hget
  | _ => cases hend

/-- A call of `send` waits as long as its entry and its timer are there. Once it does not, it stays
as it is; while it does, a step changes it when an acknowledgement comes under its own id, when its
own timer fires, or at the end of a `disconnect`, which leaves none waiting. -/
theorem sends_settle_once (connectTimeoutMs sendTimeoutMs : JsString) (as : List SendAction)
    (s : Sender) (hrun : run (step connectTimeoutMs sendTimeoutMs) {} as = some s) :
    (∀ (i : Nat) (call : SendCall), s.sends[i]? = some call →
      (call.waits = true ↔ i ∈ s.timers) ∧
        (call.waits = true ↔ ∃ msgId, call.msgId = some msgId ∧ s.pending.get msgId = some i)) ∧
    ∀ (action : SendAction) (s' : Sender),
      s.step connectTimeoutMs sendTimeoutMs action = some s' →
      (∀ (i : Nat) (call : SendCall), s.sends[i]? = some call →
        s'.sends[i]? = some (callAfter sendTimeoutMs s i call action)) ∧
      ∀ (a : Action) (stdin : Bool), action = .backend a stdin → endsDisconnect s.backend a = true →
        ∀ call ∈ s'.sends, call.waits = false := by
  have h : s.Sound := invariant (fun _ _ _ h hstep => sound_step h hstep) sound_init hrun
  refine ⟨fun i call hi => h.waits_iff hi, fun action s' hstep => ⟨?_, ?_⟩⟩
  · exact fun i call hi => h.sends_step hstep hi
  · rintro a stdin rfl hend
    exact over_of_endsDisconnect h hend hstep

/-- The line of an acknowledgement. -/
def ackLine (members : List (JsString × Json)) : JsString :=
  (Json.object ((js "event", .string (js "send_ack")) :: members)).stringify ++ [newline]

/-- The backend connects and sends twice; the bridge acknowledges the first send, and the second
with an error that is no text. -/
def acknowledged : List SendAction :=
  (Action.connect (.ok ()) :: WhatsAppWebBackend.readied).map (.backend · true) ++
    [.send ⟨js "1", false, js "hi"⟩ true (.ok ()), .send ⟨js "2", false, js "ho"⟩ true (.ok ()),
      .backend (.stdout 0 (ackLine [(js "msgId", .string (js "out-1")),
        (js "success", .bool true)] ++
        ackLine [(js "msgId", .string (js "out-2")), (js "success", .bool false),
          (js "error", .number (.finite 5))])) true,
      .backend (.dispatch 0) true, .backend (.dispatch 0) true, .backend .cutShort true]

theorem sends_settle_once_acknowledged : ∃ s,
    run (step (js "120000") (js "30000")) {} acknowledged = some s ∧
      (∀ (i : Nat) (call : SendCall), s.sends[i]? = some call →
        (call.waits = true ↔ i ∈ s.timers)) ∧
      s.sends.map (fun call => (call.result.map (·.ok), call.lost)) =
        [(some true, false), (none, true)] := by
  have hsome : (run (step (js "120000") (js "30000")) {} acknowledged).any (fun s =>
      s.sends.map (fun call => (call.result.map (·.ok), call.lost)) =
        [(some true, false), (none, true)]) = true := by
    decide +kernel
  obtain ⟨s, hrun, hsends⟩ := (Option.any_eq_true _ _).1 hsome
  have hwaits := (sends_settle_once (js "120000") (js "30000") acknowledged s hrun).1
  exact ⟨s, hrun, fun i call hi => (hwaits i call hi).1, of_decide_eq_true hsends⟩

end Sender

end TheokitGateways.WhatsApp.Web
