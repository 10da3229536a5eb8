import Mathlib.Data.List.Basic
import TheokitGateways.Js.JsonText
import TheokitGateways.Js.LineStream
import TheokitGateways.JsonRpc.Settlement
import TheokitGateways.Records

/-!
# The client and its child

`Conversation` is a client with the child at the other end of the pipes. The child
reads what the client has written in chunks of any size and at any time later, and
answers the requests it has read in any order, once or more than once or never; what
it writes comes to the client line by line. Whatever the order of events, the child
reads the requests as the calls made them, and a call that is answered has the
child's reply to its own request (`conversation_faithful`).
-/

namespace TheokitGateways.JsonRpc
open Js Transition

structure Request where
  id : JsNumber
  method : JsString
  params : Option Json

/-- The message of a request. -/
def Request.message (request : Request) : Json :=
  .ofOptional [(js "jsonrpc", some (.string (js "2.0"))),
    (js "method", some (.string request.method)),
    (js "params", request.params), (js "id", some (.number request.id))]

/-- The line of a request. -/
def Request.text (request : Request) : JsString := request.message.stringify

/-- The request that the child reads from a line. -/
def readRequest (line : JsString) : Option Request := do
  let message ← jsonParse line
  let method ← optString (message.get (js "method"))
  let id ← answerId message
  return ⟨id, method, message.get (js "params")⟩

/-- What the child answers a request. -/
inductive Reply where
  | result (value : Json)
  | error (code : JsNumber) (message : JsString) (data : Option Json)

/-- The error member of a reply. -/
def errorMember (code : JsNumber) (message : JsString) (data : Option Json) : Json :=
  .ofOptional [(js "code", some (.number code)), (js "message", some (.string message)),
    (js "data", data)]

/-- The message of a reply. -/
def Reply.message (id : JsNumber) : Reply → Json
  | .result value => .object [(js "jsonrpc", .string (js "2.0")), (js "id", .number id),
      (js "result", value)]
  | .error code message data => .object [(js "jsonrpc", .string (js "2.0")), (js "id", .number id),
      (js "error", errorMember code message data)]

/-- How a reply ends a request. -/
def Reply.outcome (keepsData : Bool) : Reply → RpcOutcome
  | .result value => .result (some value)
  | .error code message data =>
    .error (.number code) (.string message) (if keepsData then data else none)

/-- A reply that JSON carries in full. -/
def Reply.Writable : Reply → Prop
  | .result value => value.Writable
  | .error code message data => (errorMember code message data).Writable

instance : ∀ reply : Reply, Decidable reply.Writable
  | .result value => inferInstanceAs (Decidable value.Writable)
  | .error code message data =>
    inferInstanceAs (Decidable (errorMember code message data).Writable)

/-- The outcome comes from the child. -/
def RpcOutcome.isAnswer : RpcOutcome → Bool
  | .result _ | .error .. => true
  | .timeout | .disconnected => false

/-- A line of the child: its reply to a request, or another one. -/
inductive Said where
  | answer (request : Request) (reply : Reply)
  | other (line : JsString)

def Said.line : Said → JsString
  | .answer request reply => (reply.message request.id).stringify
  | .other line => line

/-- The child. -/
structure Daemon where
  /-- What it has read from its stdin. -/
  input : JsString := []
  /-- The part of it that is a line which has not ended. -/
  buffer : JsString := []
  requests : List Request := []
  said : List Said := []

/-- What the child does with a chunk. -/
def Daemon.read (ends : UInt16 → Bool) (daemon : Daemon) (chunk : JsString) : Daemon :=
  let (lines, buffer) := cutLinesBy ends (daemon.buffer ++ chunk)
  { daemon with
    input := daemon.input ++ chunk
    buffer := buffer
    requests := daemon.requests ++ lines.filterMap readRequest }

structure Conversation where
  client : JsonRpcLineClient := {}
  daemon : Daemon := {}
  /-- What `request` was called with, in turn. -/
  requested : List (JsString × Json) := []
  /-- How many lines of the child have come to the client. -/
  heard : Nat := 0

inductive ConversationAction where
  | client (action : Action)
  | daemonReads (chunk : JsString)
  /-- The child answers one of the requests it has read. -/
  | answers (i : Nat) (reply : Reply)
  /-- The child writes another line. -/
  | logs (line : JsString)

/-- What an event calls `request` with. -/
def Action.asks : Action → List (JsString × Json)
  | .request method params _ => [(method, params)]
  | _ => []

/-- The line that an event brings. -/
def Action.hears : Action → Option JsString
  | .line text => some text
  | _ => none

/-- The request that was written for a call. -/
def Written.request (requested : List (JsString × Json)) (w : Written) : Option Request :=
  requested[w.call]?.map fun call => ⟨w.id, call.1, some call.2⟩

namespace Conversation

/-- The requests that were written, in turn. -/
def sent (x : Conversation) : List Request :=
  x.client.written.filterMap (Written.request x.requested)

/-- A line that comes to the client is the next one of the child. -/
def Delivers (x : Conversation) (action : Action) : Prop :=
  ∀ line, action.hears = some line → x.daemon.said[x.heard]?.map Said.line = some line

instance (x : Conversation) (action : Action) : Decidable (x.Delivers action) :=
  match h : action.hears with
  | none => .isTrue fun line hline => by rw [h] at hline; cases hline
  | some line => decidable_of_iff (x.daemon.said[x.heard]?.map Said.line = some line)
      ⟨fun heq line' hline => by rw [h] at hline; cases hline; exact heq, fun hall => hall line h⟩

section
-- The units that end a line to the child.
variable (ends : UInt16 → Bool) (keepsData : Bool) {E : Type}
  (onNotification : RpcNotification → Except TypeFault E)

def step (x : Conversation) : ConversationAction → Option Conversation
  | .client action =>
    if x.Delivers action then do
      let client ← x.client.step keepsData onNotification action
      some { x with
        client := client
        requested := x.requested ++ action.asks
        heard := x.heard + action.hears.toList.length }
    else none
  | .daemonReads chunk =>
    if x.daemon.input ++ chunk <+: x.client.written.flatMap Written.line then
      some { x with daemon := x.daemon.read ends chunk }
    else none
  | .answers i reply => do
    let request ← x.daemon.requests[i]?
    some { x with daemon := { x.daemon with said := x.daemon.said ++ [.answer request reply] } }
  | .logs line =>
    some { x with daemon := { x.daemon with said := x.daemon.said ++ [.other line] } }

end

/-- What is called with and answered is JSON, the ids have not run out of safe integers, and the
child answers by `answers` only. -/
def Proper (x : Conversation) : ConversationAction → Prop
  | .client (.request _ params _) => params.Writable ∧ x.client.nextId < 9007199254740992
  | .answers _ reply => reply.Writable
  | .logs line => (jsonParse line).bind answerId = none
  | _ => True

instance (x : Conversation) : ∀ action, Decidable (x.Proper action)
  | .client (.request _ params _) =>
    inferInstanceAs (Decidable (params.Writable ∧ x.client.nextId < 9007199254740992))
  | .answers _ reply => inferInstanceAs (Decidable reply.Writable)
  | .logs line => decidable_of_iff (((jsonParse line).bind answerId).isNone = true)
      Option.isNone_iff_eq_none
  | .client (.line _) | .client (.timedOut _) | .client (.wrote ..) | .client (.stdinFailed _)
  | .client (.childFailed _) | .client (.childClosed ..) | .client (.close _) | .daemonReads _ =>
    inferInstanceAs (Decidable True)

end Conversation

variable {ends : UInt16 → Bool} {keepsData : Bool} {E : Type}
  {onNotification : RpcNotification → Except TypeFault E}

/-! ### The messages -/

theorem readRequest_stringify {request : Request} (h : request.message.Writable) :
    readRequest request.text = some request := by
  rw [readRequest, Request.text, jsonParse_stringify h]
  obtain ⟨id, method, params⟩ := request
  cases params <;> rfl

theorem Reply.Writable.message {reply : Reply} (h : reply.Writable) {id : JsNumber}
    (hid : (Json.number id).Writable) : (reply.message id).Writable := by
  have hkeys : [js "jsonrpc", js "id", js "result"].Nodup ∧
      [js "jsonrpc", js "id", js "error"].Nodup := by decide
  cases reply with
  | result value => exact ⟨hkeys.1, trivial, hid, h, trivial⟩
  | error code message data => exact ⟨hkeys.2, trivial, hid, h, trivial⟩

theorem Reply.answerId_message (reply : Reply) (id : JsNumber) :
    answerId (reply.message id) = some id := by
  cases reply <;> rfl

/-- The client has the reply as it was given. -/
theorem Reply.answerOutcome_message (reply : Reply) (id : JsNumber) :
    answerOutcome keepsData (reply.message id) = .ok (reply.outcome keepsData) := by
  cases reply with
  | result value => rfl
  | error code message data => cases data <;> cases keepsData <;> rfl

/-! ### The client -/

namespace JsonRpcLineClient

variable {c c' : JsonRpcLineClient} {action : Action}

theorem settleAll_eq (ids : List JsNumber) (c : JsonRpcLineClient) :
    (c.settleAll ids).written = c.written ∧ (c.settleAll ids).calls = c.calls := by
  induction ids generalizing c with
  | nil => exact ⟨rfl, rfl⟩
  | cons id ids ih =>
    obtain ⟨hwritten, hcalls⟩ := ih (c.settle id .disconnected)
    obtain ⟨_, _, hwritten', hcalls'⟩ := settle_eq c id .disconnected
    exact ⟨hwritten.trans hwritten', hcalls.trans hcalls'⟩

theorem closeFor_eq (c : JsonRpcLineClient) (action : Action) :
    (c.closeFor action).written = c.written ∧ (c.closeFor action).calls = c.calls := by
  unfold closeFor
  split
  · unfold close
    split
    · exact ⟨rfl, rfl⟩
    · exact settleAll_eq _ { c with isOpen := false }
  · exact ⟨rfl, rfl⟩

/-- An event that makes no request writes none. -/
theorem unasked_step (h : Accounted c) (hasks : action.asks = [])
    (hstep : c.step keepsData onNotification action = some c') :
    c'.written = c.written ∧ c'.calls = c.calls := by
  cases steps_of_step h hstep with
  | request method params writable => cases hasks
  | ignored line => exact ⟨rfl, rfl⟩
  | answered line message id outcome =>
    exact ⟨(settle_eq c id outcome).2.2.1, (settle_eq c id outcome).2.2.2⟩
  | timedOut id => exact ⟨(settle_eq c id .timeout).2.2.1, (settle_eq c id .timeout).2.2.2⟩
  | closing => exact closeFor_eq c action

/-- What a request writes, if it is not refused. -/
theorem request_eq (c : JsonRpcLineClient) (method : JsString) (params : Json) (writable : Bool) :
    (c.request method params writable).calls = c.calls + 1 ∧
      ((c.request method params writable).written = c.written ∨
        (c.request method params writable).written = c.written ++
          [⟨c.calls, .finite c.nextId, requestLine method params (.finite c.nextId)⟩]) := by
  unfold request
  split
  · exact ⟨rfl, .inl rfl⟩
  · exact ⟨rfl, .inr rfl⟩

/-- What an event answers from the child is what the line it brings says. -/
theorem answered_step (h : Sound c) (hstep : c.step keepsData onNotification action = some c')
    {call : Nat} {outcome : RpcOutcome} (hsettled : (call, outcome) ∈ c'.settled)
    (hanswer : outcome.isAnswer = true) : (call, outcome) ∈ c.settled ∨
      ∃ line message, ∃ w ∈ c.written, action = .line line ∧ w.call = call ∧
        jsonParse line = some message ∧ answerId message = some w.id ∧
        answerOutcome keepsData message = .ok outcome := by
  obtain ⟨new, hnew, hanswers⟩ := settled_step h hstep
  rw [hnew] at hsettled
  obtain hold | hmem := List.mem_append.1 hsettled
  · exact .inl hold
  · cases hanswers _ hmem with
    | line line message w outcome hw hparse hid houtcome =>
      exact .inr ⟨line, message, w, hw, rfl, rfl, hparse, hid, houtcome⟩
    | refused | timedOut | closed => cases hanswer

end JsonRpcLineClient

/-! ### Requests -/

theorem Written.request_append {requested new : List (JsString × Json)} {w : Written}
    (h : w.call < requested.length) : w.request (requested ++ new) = w.request requested := by
  rw [Written.request, Written.request, List.getElem?_append_left h]

theorem Written.id_of_request {requested : List (JsString × Json)} {w : Written} {request : Request}
    (h : w.request requested = some request) : request.id = w.id := by
  obtain ⟨call, _, rfl⟩ := Option.map_eq_some_iff.1 h
  rfl

theorem Request.unbroken (hends : ∀ c, ends c = true → c < 0x20) (request : Request) :
    ∀ c ∈ request.text, ends c = false := by
  intro c hc
  have hvisible := Json.visible_stringify request.message c hc
  exact Bool.of_not_eq_true fun hend => UInt16.not_le.2 (hends c hend) hvisible

namespace Conversation

/-- A call has the child's reply to its own request, which has come. -/
def Answered (keepsData : Bool) (x : Conversation) (call : Nat) (outcome : RpcOutcome) : Prop :=
  ∃ w ∈ x.client.written, ∃ request ∈ x.daemon.requests, ∃ reply, w.call = call ∧
    w.request x.requested = some request ∧
    Said.answer request reply ∈ x.daemon.said.take x.heard ∧ outcome = reply.outcome keepsData

/-- The two ends agree about what was written. -/
structure Coherent (ends : UInt16 → Bool) (keepsData : Bool) (x : Conversation) : Prop where
  client : x.client.Sound
  calls : x.requested.length = x.client.calls
  called : ∀ w ∈ x.client.written, w.call < x.client.calls
  written : x.client.written.flatMap Written.line = x.sent.flatMap fun r => r.text ++ [unit '\n']
  writable : ∀ request ∈ x.sent, request.message.Writable
  read : x.daemon.input <+: x.client.written.flatMap Written.line
  buffer : x.daemon.buffer = (cutLinesBy ends x.daemon.input).2
  requests : x.daemon.requests = (cutLinesBy ends x.daemon.input).1.filterMap readRequest
  asked : ∀ request reply, Said.answer request reply ∈ x.daemon.said →
    request ∈ x.daemon.requests ∧ reply.Writable
  others : ∀ line, Said.other line ∈ x.daemon.said → (jsonParse line).bind answerId = none
  answered : ∀ call outcome, (call, outcome) ∈ x.client.settled → outcome.isAnswer = true →
    x.Answered keepsData call outcome

variable {x x' : Conversation}

theorem coherent_init : Coherent ends keepsData {} where
  client := JsonRpcLineClient.sound_new
  calls := rfl
  called _ h := nomatch h
  written := rfl
  writable _ h := nomatch h
  read := List.prefix_rfl
  buffer := rfl
  requests := rfl
  asked _ _ h := nomatch h
  others _ h := nomatch h
  answered _ _ h := nomatch h

/-- The child has read the first of the requests that were written, each as it was. -/
theorem Coherent.requests_prefix (h : x.Coherent ends keepsData)
    (hnewline : ends (unit '\n') = true)
    (hends : ∀ c, ends c = true → c < 0x20) : x.daemon.requests <+: x.sent := by
  have hread := h.read
  rw [h.written] at hread
  have hprefix := filterMap_cutLinesBy_mono hnewline (fun r _ => Request.unbroken hends r)
    (fun r hr => readRequest_stringify (h.writable r hr)) hread
  rw [List.map_id'] at hprefix
  rw [h.requests]
  exact hprefix

theorem mem_sent {request : Request} (h : request ∈ x.sent) :
    ∃ w ∈ x.client.written, w.request x.requested = some request :=
  List.mem_filterMap.1 h

/-- Two requests with one id are one request. -/
theorem Coherent.eq_of_id (h : x.Coherent ends keepsData) {w w' : Written}
    (hw : w ∈ x.client.written) (hw' : w' ∈ x.client.written) (hid : w.id = w'.id) : w = w' := by
  have hdistinct := h.client.distinct
  rw [← List.filterMap_eq_map] at hdistinct
  exact Records.eq_of_nodup_filterMap hdistinct hw hw' rfl (congrArg some hid.symm)

theorem Answered.mono {call : Nat} {outcome : RpcOutcome} (h : x.Answered keepsData call outcome)
    (hwritten : ∀ w ∈ x.client.written,
      w ∈ x'.client.written ∧ w.request x'.requested = w.request x.requested)
    (hrequests : ∀ request ∈ x.daemon.requests, request ∈ x'.daemon.requests)
    (hsaid : ∀ said ∈ x.daemon.said.take x.heard, said ∈ x'.daemon.said.take x'.heard) :
    x'.Answered keepsData call outcome := by
  obtain ⟨w, hw, request, hrequest, reply, hcall, hwrote, hcame, houtcome⟩ := h
  obtain ⟨hw', hsame⟩ := hwritten w hw
  exact ⟨w, hw', request, hrequests request hrequest, reply, hcall, hsame.trans hwrote,
    hsaid _ hcame, houtcome⟩

/-- The child reads a chunk. -/
theorem Coherent.reads (h : x.Coherent ends keepsData) {chunk : JsString}
    (hread : x.daemon.input ++ chunk <+: x.client.written.flatMap Written.line) :
    Coherent ends keepsData { x with daemon := x.daemon.read ends chunk } := by
  have hcut : cutLinesBy ends (x.daemon.input ++ chunk) = _ :=
    cutLinesBy_append x.daemon.input chunk
  rw [← h.buffer] at hcut
  have hrequests : ∀ request ∈ x.daemon.requests,
      request ∈ (x.daemon.read ends chunk).requests :=
    fun request hrequest => List.mem_append_left _ hrequest
  constructor
  · exact h.client
  · exact h.calls
  · exact h.called
  · exact h.written
  · exact h.writable
  · exact hread
  · show (cutLinesBy ends (x.daemon.buffer ++ chunk)).2 =
      (cutLinesBy ends (x.daemon.input ++ chunk)).2
    rw [hcut]
  · show x.daemon.requests ++ (cutLinesBy ends (x.daemon.buffer ++ chunk)).1.filterMap readRequest =
      (cutLinesBy ends (x.daemon.input ++ chunk)).1.filterMap readRequest
    rw [hcut, h.requests, List.filterMap_append]
  · exact fun request reply hsaid => (h.asked request reply hsaid).imp_left (hrequests request)
  · exact h.others
  · exact fun call outcome hsettled hanswer => (h.answered call outcome hsettled hanswer).mono
      (fun w hw => ⟨hw, rfl⟩) hrequests fun _ hsaid => hsaid

/-- The child writes a line. -/
theorem Coherent.speaks (h : x.Coherent ends keepsData) {said : Said}
    (hasked : ∀ request reply, said = .answer request reply →
      request ∈ x.daemon.requests ∧ reply.Writable)
    (hother : ∀ line, said = .other line → (jsonParse line).bind answerId = none) :
    Coherent ends keepsData
      { x with daemon := { x.daemon with said := x.daemon.said ++ [said] } } := by
  constructor
  · exact h.client
  · exact h.calls
  · exact h.called
  · exact h.written
  · exact h.writable
  · exact h.read
  · exact h.buffer
  · exact h.requests
  · intro request reply hmem
    obtain hmem | hmem := List.mem_append.1 hmem
    · exact h.asked request reply hmem
    · exact hasked request reply (List.mem_singleton.1 hmem).symm
  · intro line hmem
    obtain hmem | hmem := List.mem_append.1 hmem
    · exact h.others line hmem
    · exact hother line (List.mem_singleton.1 hmem).symm
  · refine fun call outcome hsettled hanswer => (h.answered call outcome hsettled hanswer).mono
      (fun w hw => ⟨hw, rfl⟩) (fun _ hrequest => hrequest) fun s hs => ?_
    show s ∈ (x.daemon.said ++ [said]).take x.heard
    rw [List.take_append]
    exact List.mem_append_left _ hs

theorem sent_append {requested new : List (JsString × Json)} {written : List Written}
    (h : ∀ w ∈ written, w.call < requested.length) :
    written.filterMap (Written.request (requested ++ new)) =
      written.filterMap (Written.request requested) :=
  List.filterMap_congr fun w hw => Written.request_append (h w hw)

/-- The client reads a reply as it was given. -/
theorem Coherent.jsonParse_answer (h : x.Coherent ends keepsData) {request : Request}
    (hsent : request ∈ x.sent) {reply : Reply} (hwritable : reply.Writable) :
    jsonParse (Said.answer request reply).line = some (reply.message request.id) := by
  have hmessage := h.writable request hsent
  refine jsonParse_stringify (hwritable.message ?_)
  obtain ⟨id, method, params⟩ := request
  cases params with
  | none => exact hmessage.2.2.2.1
  | some params => exact hmessage.2.2.2.2.1

/-- A call that is answered with the line that has come has the reply to its own request. -/
theorem Coherent.hears (h : x.Coherent ends keepsData) (hnewline : ends (unit '\n') = true)
    (hends : ∀ c, ends c = true → c < 0x20) {line : JsString}
    (hline : x.daemon.said[x.heard]?.map Said.line = some line) {message : Json} {w : Written}
    (hw : w ∈ x.client.written) (hparse : jsonParse line = some message)
    (hid : answerId message = some w.id) {outcome : RpcOutcome}
    (houtcome : answerOutcome keepsData message = .ok outcome) : ∃ request reply,
      request ∈ x.daemon.requests ∧ x.daemon.said[x.heard]? = some (.answer request reply) ∧
        w.request x.requested = some request ∧ outcome = reply.outcome keepsData := by
  obtain ⟨said, hsaid, rfl⟩ := Option.map_eq_some_iff.1 hline
  have hmem := List.mem_of_getElem? hsaid
  cases said with
  | other line =>
    have hnone := h.others line hmem
    have hparse' : jsonParse line = some message := hparse
    rw [hparse', Option.bind_some, hid] at hnone
    cases hnone
  | answer request reply =>
    obtain ⟨hrequest, hwritable⟩ := h.asked request reply hmem
    have hsent := (h.requests_prefix hnewline hends).mem hrequest
    have hsame : message = reply.message request.id :=
      Option.some.inj (hparse.symm.trans (h.jsonParse_answer hsent hwritable))
    subst hsame
    obtain ⟨w', hw', hwrote⟩ := mem_sent hsent
    rw [reply.answerId_message, Written.id_of_request hwrote] at hid
    obtain rfl := h.eq_of_id hw' hw (Option.some.inj hid)
    rw [reply.answerOutcome_message] at houtcome
    exact ⟨request, reply, hrequest, hsaid, hwrote, (Except.ok.inj houtcome).symm⟩

/-- What an event writes, and the requests that come of it. -/
structure Writes (x : Conversation) (action : Action) (client : JsonRpcLineClient)
    (new : List Request) : Prop where
  calls : client.calls = x.client.calls + action.asks.length
  kept : x.client.written <+: client.written
  called : ∀ w ∈ client.written, w.call < client.calls
  written : client.written.flatMap Written.line =
    x.client.written.flatMap Written.line ++ new.flatMap fun r => r.text ++ [unit '\n']
  sent : client.written.filterMap (Written.request (x.requested ++ action.asks)) = x.sent ++ new
  writable : ∀ request ∈ new, request.message.Writable

theorem Coherent.writes (h : x.Coherent ends keepsData) {action : Action}
    (hproper : x.Proper (.client action)) {client : JsonRpcLineClient}
    (hstep : x.client.step keepsData onNotification action = some client) :
    ∃ new, x.Writes action client new := by
  have hcalled : ∀ w ∈ x.client.written, w.call < x.requested.length := by
    rw [h.calls]
    exact h.called
  have hnothing (hcalls : client.calls = x.client.calls + action.asks.length)
      (hsame : client.written = x.client.written) : x.Writes action client [] := by
    refine ⟨hcalls, ?_, fun w hw => ?_, ?_, ?_, fun _ hr => (nomatch hr)⟩
    · exact hsame ▸ List.prefix_rfl
    · rw [hsame] at hw
      have := h.called w hw
      omega
    · rw [hsame, List.flatMap_nil, List.append_nil]
    · rw [hsame, sent_append hcalled, List.append_nil]
      rfl
  cases action with
  | request method params writable =>
    cases hstep
    obtain ⟨hcalls, hsame | hnew⟩ :=
      JsonRpcLineClient.request_eq x.client method params writable
    · exact ⟨[], hnothing hcalls hsame⟩
    · refine ⟨[⟨.finite x.client.nextId, method, some params⟩], hcalls, ?_, fun w hw => ?_, ?_, ?_,
        ?_⟩
      · rw [hnew]
        exact List.prefix_append _ _
      · rw [hnew] at hw
        obtain hw | hw := List.mem_append.1 hw
        · have := h.called w hw
          omega
        · cases List.mem_singleton.1 hw
          exact hcalls ▸ Nat.lt_succ_self _
      · rw [hnew, List.flatMap_append, List.flatMap_singleton, List.flatMap_singleton]
        rfl
      · have hlast : (⟨x.client.calls, .finite x.client.nextId,
            requestLine method params (.finite x.client.nextId)⟩ : Written).request
              (x.requested ++ [(method, params)]) =
            some ⟨.finite x.client.nextId, method, some params⟩ := by
          rw [Written.request, ← h.calls, List.getElem?_concat_length]
          rfl
        rw [hnew, List.filterMap_append, sent_append hcalled]
        exact congrArg (x.sent ++ ·) (List.filterMap_cons_some hlast)
      · have hkeys : [js "jsonrpc", js "method", js "params", js "id"].Nodup := by decide
        exact List.forall_mem_singleton.2 ⟨hkeys, trivial, trivial, hproper.1,
          ⟨_, rfl, JsNumber.round_natCast hproper.2⟩, trivial⟩
  | _ =>
    obtain ⟨hwritten, hcalls⟩ :=
      JsonRpcLineClient.unasked_step h.client.toAccounted rfl hstep
    exact ⟨[], hnothing hcalls hwritten⟩

/-- The client takes an event. -/
theorem Coherent.client_step (h : x.Coherent ends keepsData) (hnewline : ends (unit '\n') = true)
    (hends : ∀ c, ends c = true → c < 0x20) {action : Action} (hdelivers : x.Delivers action)
    (hproper : x.Proper (.client action)) {client : JsonRpcLineClient}
    (hstep : x.client.step keepsData onNotification action = some client) :
    Coherent ends keepsData { x with
      client := client
      requested := x.requested ++ action.asks
      heard := x.heard + action.hears.toList.length } := by
  obtain ⟨new, hwrites⟩ := h.writes hproper hstep
  have hkept : ∀ w ∈ x.client.written, w ∈ client.written ∧
      w.request (x.requested ++ action.asks) = w.request x.requested := by
    refine fun w hw => ⟨hwrites.kept.mem hw, Written.request_append ?_⟩
    rw [h.calls]
    exact h.called w hw
  constructor
  · exact JsonRpcLineClient.sound_step h.client hstep
  · show (x.requested ++ action.asks).length = client.calls
    rw [List.length_append, h.calls, hwrites.calls]
  · exact hwrites.called
  · show client.written.flatMap Written.line = (client.written.filterMap _).flatMap _
    rw [hwrites.written, hwrites.sent, h.written, List.flatMap_append]
  · intro request hrequest
    have hmem : request ∈ x.sent ++ new := hwrites.sent ▸ hrequest
    exact (List.mem_append.1 hmem).elim (h.writable request) (hwrites.writable request)
  · show x.daemon.input <+: client.written.flatMap Written.line
    rw [hwrites.written]
    exact h.read.trans (List.prefix_append _ _)
  · exact h.buffer
  · exact h.requests
  · exact h.asked
  · exact h.others
  · intro call outcome hsettled hanswer
    obtain hold | ⟨line, message, w, hw, rfl, rfl, hparse, hid, houtcome⟩ :=
      JsonRpcLineClient.answered_step h.client hstep hsettled hanswer
    · refine (h.answered call outcome hold hanswer).mono hkept (fun _ hr => hr) fun said hsaid => ?_
      exact (List.take_prefix_take_left (Nat.le_add_right _ _)).mem hsaid
    · obtain ⟨request, reply, hrequest, hsaid, hwrote, hsame⟩ :=
        h.hears hnewline hends (hdelivers line rfl) hw hparse hid houtcome
      obtain ⟨hw', hsame'⟩ := hkept w hw
      refine ⟨w, hw', request, hrequest, reply, rfl, hsame'.trans hwrote, ?_, hsame⟩
      show Said.answer request reply ∈ x.daemon.said.take (x.heard + 1)
      rw [List.take_add_one, hsaid]
      simp

theorem coherent_step (h : x.Coherent ends keepsData) (hnewline : ends (unit '\n') = true)
    (hends : ∀ c, ends c = true → c < 0x20) {action : ConversationAction}
    (hproper : x.Proper action) (hstep : x.step ends keepsData onNotification action = some x') :
    x'.Coherent ends keepsData := by
  cases action with
  | client action =>
    obtain ⟨hdelivers, hstep⟩ := Option.ite_none_right_eq_some.1 hstep
    obtain ⟨client, hclient, hstep⟩ := Option.bind_eq_some_iff.1 hstep
    cases hstep
    exact h.client_step hnewline hends hdelivers hproper hclient
  | daemonReads chunk =>
    obtain ⟨hread, hstep⟩ := Option.ite_none_right_eq_some.1 hstep
    cases hstep
    exact h.reads hread
  | answers i reply =>
    obtain ⟨request, hi, hstep⟩ := Option.bind_eq_some_iff.1 hstep
    cases hstep
    refine h.speaks (fun _ _ heq => ?_) fun _ heq => nomatch heq
    cases heq
    exact ⟨List.mem_of_getElem? hi, hproper⟩
  | logs line =>
    cases hstep
    refine h.speaks (fun _ _ heq => nomatch heq) fun _ heq => ?_
    cases heq
    exact hproper

/-- A call that waits is answered when the reply to it comes. -/
theorem Coherent.step_reply (h : x.Coherent ends keepsData) (hnewline : ends (unit '\n') = true)
    (hends : ∀ c, ends c = true → c < 0x20) {request : Request} {reply : Reply} {call : Nat}
    (hsaid : x.daemon.said[x.heard]? = some (.answer request reply))
    (hwaits : (request.id, call) ∈ x.client.pending.entries) :
    ∃ x', x.step ends keepsData onNotification
        (.client (.line (Said.answer request reply).line)) = some x' ∧
      x'.client.settled = x.client.settled ++ [(call, reply.outcome keepsData)] := by
  obtain ⟨hrequest, hwritable⟩ := h.asked request reply (List.mem_of_getElem? hsaid)
  have hparse := h.jsonParse_answer ((h.requests_prefix hnewline hends).mem hrequest) hwritable
  have hdelivers : x.Delivers (.line (Said.answer request reply).line) := by
    intro line hline
    cases hline
    rw [hsaid]
    rfl
  obtain ⟨client, hclient, hsettled⟩ : ∃ client, x.client.step keepsData onNotification
      (.line (Said.answer request reply).line) = some client ∧
      client.settled = x.client.settled ++ [(call, reply.outcome keepsData)] :=
    JsonRpcLineClient.step_answer h.client hparse (reply.answerId_message _)
      (reply.answerOutcome_message _) hwaits
  refine ⟨{ x with
    client := client
    requested := x.requested ++ []
    heard := x.heard + 1 }, ?_, hsettled⟩
  rw [step, if_pos hdelivers, hclient]
  rfl

/-- Whatever the order of events: the child has read the first of the requests that were written,
each once and as its call made it; no call is answered twice; one that the child answered has the
reply to its own request, and one that waits has it as soon as it comes. -/
theorem conversation_faithful (hnewline : ends (unit '\n') = true)
    (hends : ∀ c, ends c = true → c < 0x20) (actions : List ConversationAction) (x : Conversation)
    (hrun : run (step ends keepsData onNotification) {} actions = some x)
    (hproper : Meets (step ends keepsData onNotification) Proper {} actions) :
    (x.daemon.requests <+: x.sent ∧ (x.client.written.map Written.id).Nodup) ∧
      (x.client.settled.map Prod.fst).Nodup ∧
      (∀ call outcome, (call, outcome) ∈ x.client.settled → outcome.isAnswer = true →
        x.Answered keepsData call outcome) ∧
      ∀ request reply call, x.daemon.said[x.heard]? = some (.answer request reply) →
        (request.id, call) ∈ x.client.pending.entries →
        ∃ x', x.step ends keepsData onNotification
            (.client (.line (Said.answer request reply).line)) = some x' ∧
          x'.client.settled = x.client.settled ++ [(call, reply.outcome keepsData)] := by
  have h : x.Coherent ends keepsData := invariant_of_meets
    (fun _ _ _ h hC hstep => coherent_step h hnewline hends hC hstep) coherent_init hproper hrun
  have honce : (x.client.settled.map Prod.fst).Nodup := by
    have hnodup := h.client.calls.nodup_iff.2 List.nodup_range
    exact (List.nodup_append.1 hnodup).1
  exact ⟨⟨h.requests_prefix hnewline hends, h.client.distinct⟩, honce, h.answered,
    fun request reply call hsaid hwaits => h.step_reply hnewline hends hsaid hwaits⟩

/-- The lines of the two calls below. -/
def pairOfLines : JsString :=
  requestLine (js "send") (.string (js "a")) (.finite 1) ++
    requestLine (js "send") (.string (js "b")) (.finite 2)

/-- Two calls, which the child reads in two chunks and answers out of turn. -/
def outOfTurn : List ConversationAction :=
  [.client (.request (js "send") (.string (js "a")) true),
    .client (.request (js "send") (.string (js "b")) true),
    .daemonReads (pairOfLines.take 40), .logs (js "ready"), .daemonReads (pairOfLines.drop 40),
    .answers 1 (.result (.bool true)), .client (.line (js "ready")),
    .client (.line ((Reply.result (.bool true)).message (.finite 2)).stringify)]

theorem conversation_faithful_outOfTurn : ∃ x,
    run (step (· = unit '\n') true fun _ => .ok ()) {} outOfTurn = some x ∧
      ∀ call outcome, (call, outcome) ∈ x.client.settled → outcome.isAnswer = true →
        x.Answered true call outcome := by
  have hsome : (run (step (· = unit '\n') true fun _ => .ok ()) {} outOfTurn).isSome = true := by
    decide +kernel
  obtain ⟨x, hrun⟩ := Option.isSome_iff_exists.1 hsome
  have hproper : Meets (step (· = unit '\n') true fun _ => .ok ()) Proper {} outOfTurn := by
    decide +kernel
  have hends : ∀ c : UInt16, decide (c = unit '\n') = true → c < 0x20 := by
    intro c hc
    rw [of_decide_eq_true hc]
    decide
  exact ⟨x, hrun, (conversation_faithful (by decide) hends outOfTurn x hrun hproper).2.2.1⟩

example : (run (step (· = unit '\n') true fun _ => .ok ()) {} outOfTurn).map
    (fun x => x.client.settled.map Prod.fst) = some [1] := by
  decide +kernel

end Conversation

end TheokitGateways.JsonRpc
