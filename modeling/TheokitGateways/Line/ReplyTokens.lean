import TheokitGateways.Line.Adapter

/-!
# LINE: where a reply token leads

A reply token leads into the conversation its message came from. A send to a
channel takes the token that is cached under that id, and tokens are cached
under the ids of their senders, so the token a send takes is that of the latest
message of a user with the id of the channel. It stays in its conversation
exactly when that message was written in the channel the send addresses.
-/

namespace TheokitGateways.Line
open Js Gateway Transition

/-- The message that last brought a reply token under a sender id. -/
def originOf : List Observed → JsString → Option LineMessageEvent
  | [], _ => none
  | .heard e :: past, x =>
    if e.replyToken.isSome ∧ e.sender.id = x then some e else originOf past x
  | _ :: past, x => originOf past x

/-- Every token a send took came with a message of the channel the send addressed. -/
def TokensStayHome : List Observed → Prop
  | [] => True
  | .took target token :: past =>
    (∃ e, originOf past target = some e ∧ e.replyToken = some token ∧ e.channel.id = target) ∧
      TokensStayHome past
  | _ :: past => TokensStayHome past

/-- A send finds no live token under the id of its channel, or one whose message was written
in that channel. -/
def AddressedHome (w : LineState) : Action → Prop
  | .send out now =>
    out.text ≠ [] → w.adapter.client = true →
      (w.adapter.replyCache.held out.channel.id now).isSome = true →
        ∀ e, originOf w.trace out.channel.id = some e → e.channel.id = out.channel.id
  | _ => True

/-- A webhook event and what it was normalised to. -/
def Normalized (p : LineWebhookEvent × Option LineMessageEvent) : Prop :=
  ∀ e, p.2 = some e → e.replyToken = p.1.replyToken ∧ e.sender.id ≠ []

/-- A cached token is that of the latest message with a token under its sender id. -/
structure Consistent (w : LineState) : Prop where
  cached : ∀ x entry, w.adapter.replyCache.cache.get x = some entry →
    ∃ e, originOf w.trace x = some e ∧ e.replyToken = some entry.token
  normalized : ∀ b ∈ w.batches, ∀ p ∈ b.rest, Normalized p

theorem normalized_lineEvent (ev : LineWebhookEvent) (now : Nat) :
    Normalized (ev, lineEventToMessageEvent ev now) := by
  intro e he
  refine ⟨?_, sender_ne_nil he⟩
  simp only [lineEventToMessageEvent, Option.ite_none_left_eq_some] at he
  obtain ⟨_, he⟩ := he
  split at he
  · simp only [Option.ite_none_left_eq_some, Option.map_eq_some_iff] at he
    obtain ⟨_, _, _, rfl⟩ := he
    rfl
  · simp at he

theorem consistent_new (opts : LineAdapterOptions) : Consistent (LineState.new opts) where
  cached x entry h := by simp [LineState.new, ReplyTokenCache.new] at h
  normalized b hb := by simp [LineState.new] at hb

/-- What a step without a message and without a send may change. -/
structure Keeps (w w' : LineState) : Prop where
  cache : ∀ x entry, w'.adapter.replyCache.cache.get x = some entry →
    w.adapter.replyCache.cache.get x = some entry
  batches : ∀ b ∈ w'.batches, b ∈ w.batches
  origin : originOf w'.trace = originOf w.trace
  home : TokensStayHome w'.trace ↔ TokensStayHome w.trace

namespace Keeps

variable {w w' w'' : LineState}

theorem refl (w : LineState) : Keeps w w := ⟨fun _ _ h => h, fun _ h => h, rfl, Iff.rfl⟩

theorem trans (h : Keeps w w') (h' : Keeps w' w'') : Keeps w w'' where
  cache x entry hx := h.cache x entry (h'.cache x entry hx)
  batches b hb := h.batches b (h'.batches b hb)
  origin := h'.origin.trans h.origin
  home := h'.home.trans h.home

theorem consistent (h : Keeps w w') (hw : Consistent w) : Consistent w' where
  cached x entry hx := by
    rw [h.origin]
    exact hw.cached x entry (h.cache x entry hx)
  normalized b hb := hw.normalized b (h.batches b hb)

theorem answer (w : LineState) (target : JsString) (result : SendResult) :
    Keeps w (w.answer target result) :=
  ⟨fun _ _ h => h, fun _ h => h, rfl, Iff.rfl⟩

theorem pushPart (w : LineState) (target : JsString) (index : Nat) (messageId : Option JsString)
    (parts : List JsString) : Keeps w (w.pushPart target index messageId parts) := by
  cases parts with
  | nil => exact answer w target _
  | cons part rest =>
    by_cases hc : w.adapter.client = true <;> simp only [LineState.pushPart, hc, if_true] <;>
      exact ⟨fun _ _ h => h, fun _ h => h, rfl, Iff.rfl⟩

theorem settlePart (w : LineState) (sending : Sending) (outcome : ApiOutcome) (now : Nat) :
    Keeps w (w.settlePart sending outcome now) := by
  cases outcome with
  | resolved => exact pushPart w _ _ _ _
  | rejected e => exact answer w _ _
  | unreadable => exact ⟨fun _ _ h => h, fun _ h => h, rfl, Iff.rfl⟩

theorem hand (w : LineState) (event : LineMessageEvent) (handler : Option Handler) :
    Keeps w (w.hand event handler) := by
  cases handler with
  | none => exact refl w
  | some handler =>
    by_cases hg : passesMentionGuard w.adapter event = true <;>
      simp only [LineState.hand, hg, if_true] <;>
      exact ⟨fun _ _ h => h, fun _ h => h, rfl, Iff.rfl⟩

theorem sendFirst (w : LineState) (target : JsString) (token : Option JsString)
    (parts : List JsString) : Keeps w (w.sendFirst target token parts) := by
  cases parts with
  | nil => exact pushPart w target 0 none []
  | cons part rest =>
    cases token with
    | none => exact pushPart w target 0 none (part :: rest)
    | some token => exact ⟨fun _ _ h => h, fun _ h => h, rfl, Iff.rfl⟩

end Keeps

variable {segment : JsString → List JsString}

theorem originOf_heard (e : LineMessageEvent) (past : List Observed) (x : JsString) :
    originOf (.heard e :: past) x =
      if e.replyToken.isSome ∧ e.sender.id = x then some e else originOf past x := rfl

/-- Hearing a message caches its token under its sender, whose latest message it is. -/
theorem hear_consistent {w : LineState} (hw : Consistent w) {ev : LineWebhookEvent}
    {event : LineMessageEvent} (hn : Normalized (ev, some event)) (now : Nat) :
    Consistent (w.hear ev event now) := by
  obtain ⟨htoken, hsender⟩ := hn event rfl
  refine ⟨fun x entry h => ?_, hw.normalized⟩
  simp only [LineState.hear, originOf_heard, htoken] at h ⊢
  cases hev : ev.replyToken with
  | none =>
    rw [hev] at h
    simpa using hw.cached x entry h
  | some token =>
    simp only [hev, hsender, ne_eq, not_false_eq_true, if_true] at h
    obtain ⟨rfl, hentry⟩ | ⟨hx, hget⟩ := ReplyTokenCache.get_put _ _ _ _ _ _ h
    · exact ⟨event, by simp, by rw [htoken, hev, hentry]⟩
    · simpa [Ne.symm hx] using hw.cached x entry hget

theorem dispatchSingleEvent_consistent {w : LineState} (hw : Consistent w) {ev : LineWebhookEvent}
    {normalized : Option LineMessageEvent} (hn : Normalized (ev, normalized))
    (handler : Option Handler) (now : Nat) :
    Consistent (w.dispatchSingleEvent ev normalized handler now) ∧
      (TokensStayHome (w.dispatchSingleEvent ev normalized handler now).trace ↔
        TokensStayHome w.trace) := by
  cases normalized with
  | none => exact ⟨hw, Iff.rfl⟩
  | some event =>
    have hhand := Keeps.hand (w.hear ev event now) event handler
    exact ⟨hhand.consistent (hear_consistent hw hn now), hhand.home⟩

theorem advanceBatch_consistent {w : LineState} (hw : Consistent w) {batch : Batch}
    (hb : ∀ p ∈ batch.rest, Normalized p) (now : Nat) :
    Consistent (w.advanceBatch batch now) ∧
      (TokensStayHome (w.advanceBatch batch now).trace ↔ TokensStayHome w.trace) := by
  unfold LineState.advanceBatch
  split
  · exact ⟨hw, Iff.rfl⟩
  · rename_i ev normalized rest hrest
    rw [hrest, List.forall_mem_cons] at hb
    have hw' : Consistent { w with batches := ⟨batch.handler, rest⟩ :: w.batches } := by
      refine ⟨hw.cached, fun b hmem => ?_⟩
      obtain rfl | hmem := List.mem_cons.1 hmem
      · exact hb.2
      · exact hw.normalized b hmem
    exact dispatchSingleEvent_consistent hw' hb.1 batch.handler now

theorem dispatchWebhookBody_consistent {w : LineState} (hw : Consistent w)
    (envelope : List LineWebhookEvent) (now : Nat) :
    Consistent (w.dispatchWebhookBody envelope now) ∧
      (TokensStayHome (w.dispatchWebhookBody envelope now).trace ↔ TokensStayHome w.trace) := by
  simp only [LineState.dispatchWebhookBody]
  split
  · exact ⟨hw, Iff.rfl⟩
  · refine advanceBatch_consistent hw (fun p hp => ?_) now
    obtain ⟨ev, _, rfl⟩ := List.mem_map.1 hp
    exact normalized_lineEvent ev now

/-- A send takes the token of the message its channel's id last sent. -/
theorem takeToken_consistent {w : LineState} (hw : Consistent w) (target : JsString) (now : Nat) :
    Consistent (w.takeToken target now) ∧
      (TokensStayHome (w.takeToken target now).trace ↔ TokensStayHome w.trace ∧
        ((w.adapter.replyCache.held target now).isSome = true →
          ∀ e, originOf w.trace target = some e → e.channel.id = target)) := by
  have htake := ReplyTokenCache.take_snd w.adapter.replyCache target now
  have hcached (x : JsString) (entry : Entry)
      (h : (w.adapter.replyCache.take target now).1.cache.get x = some entry) :=
    hw.cached x entry (ReplyTokenCache.get_take _ _ _ _ _ h)
  cases hheld : w.adapter.replyCache.held target now with
  | none =>
    simp only [LineState.takeToken, htake, hheld]
    exact ⟨⟨hcached, hw.normalized⟩, by simp⟩
  | some token =>
    obtain ⟨entry, hget, rfl⟩ := ReplyTokenCache.get_of_held hheld
    obtain ⟨e, he, htoken⟩ := hw.cached target entry hget
    simp only [LineState.takeToken, htake, hheld]
    refine ⟨⟨hcached, hw.normalized⟩, ?_⟩
    simp [TokensStayHome, he, htoken, and_comm]

theorem sendMessage_consistent {w : LineState} (hw : Consistent w) (out : OutboundMessage)
    (now : Nat) :
    Consistent (w.sendMessage segment out now) ∧
      (TokensStayHome (w.sendMessage segment out now).trace ↔
        TokensStayHome w.trace ∧ AddressedHome w (.send out now)) := by
  by_cases htext : out.text = []
  · simp only [LineState.sendMessage, htext, if_true]
    have hkeeps := Keeps.answer w out.channel.id
      (.failure (js "empty_text") (js "outbound text is empty"))
    exact ⟨hkeeps.consistent hw, by simp [hkeeps.home, AddressedHome, htext]⟩
  by_cases hclient : w.adapter.client = true
  · simp only [LineState.sendMessage, htext, hclient, if_false, Bool.not_true, Bool.false_eq_true]
    have hw' : Consistent { w with adapter := w.adapter.warnFormatUnsupported out.format } :=
      ⟨by simpa using hw.cached, hw.normalized⟩
    obtain ⟨hcons, hhome⟩ := takeToken_consistent hw' out.channel.id now
    have hkeeps := Keeps.sendFirst
      (LineState.takeToken { w with adapter := w.adapter.warnFormatUnsupported out.format }
        out.channel.id now) out.channel.id (w.adapter.replyCache.held out.channel.id now)
        (splitForLine segment out.text)
    refine ⟨hkeeps.consistent hcons, hkeeps.home.trans (hhome.trans ?_)⟩
    simp [AddressedHome, htext, hclient]
  · simp only [LineState.sendMessage, htext, hclient, if_false, Bool.not_false, if_true]
    have hkeeps := Keeps.answer w out.channel.id
      (.failure (js "not_connected") (js "LineAdapter.connect() not called"))
    exact ⟨hkeeps.consistent hw, by simp [hkeeps.home, AddressedHome, hclient]⟩

theorem step_consistent {w w' : LineState} (hw : Consistent w) {a : Action}
    (h : w.step segment a = some w') :
    Consistent w' ∧ (TokensStayHome w'.trace ↔ TokensStayHome w.trace ∧ AddressedHome w a) := by
  have hkeeps (hk : Keeps w w') (ha : AddressedHome w a) :
      Consistent w' ∧ (TokensStayHome w'.trace ↔ TokensStayHome w.trace ∧ AddressedHome w a) :=
    ⟨hk.consistent hw, by simp [hk.home, ha]⟩
  cases a with
  | connect =>
    obtain ⟨⟩ := h
    exact hkeeps (by split <;> exact ⟨fun _ _ h => h, fun _ h => h, rfl, Iff.rfl⟩) trivial
  | clientMade made =>
    simp only [LineState.step] at h
    split at h
    · contradiction
    · obtain ⟨⟩ := h
      exact hkeeps (by split <;> exact ⟨fun _ _ h => h, fun _ h => h, rfl, Iff.rfl⟩) trivial
  | botInfo answered =>
    simp only [LineState.step] at h
    split at h
    · contradiction
    · obtain ⟨⟩ := h
      exact hkeeps (by split <;> exact ⟨fun _ _ h => h, fun _ h => h, rfl, Iff.rfl⟩) trivial
  | disconnect =>
    obtain ⟨⟩ := h
    exact hkeeps ⟨by simp [ReplyTokenCache.clear], fun _ h => h, rfl, Iff.rfl⟩ trivial
  | onInbound handler =>
    obtain ⟨⟩ := h
    exact hkeeps ⟨fun _ _ h => h, fun _ h => h, rfl, Iff.rfl⟩ trivial
  | unsubscribe handler =>
    obtain ⟨⟩ := h
    exact hkeeps (by split <;> exact ⟨fun _ _ h => h, fun _ h => h, rfl, Iff.rfl⟩) trivial
  | webhook envelope now =>
    obtain ⟨⟩ := h
    simpa [AddressedHome] using dispatchWebhookBody_consistent hw envelope now
  | handled i now =>
    obtain ⟨batch, hb, rfl⟩ := Option.map_eq_some_iff.1 h
    have hw' : Consistent { w with batches := w.batches.eraseIdx i } :=
      ⟨hw.cached, fun b hb => hw.normalized b (List.mem_of_mem_eraseIdx hb)⟩
    have hbatch := hw.normalized batch (List.mem_of_getElem? hb)
    simpa [AddressedHome] using advanceBatch_consistent hw' hbatch now
  | reportFailed i =>
    obtain ⟨batch, hb, rfl⟩ := Option.map_eq_some_iff.1 h
    exact hkeeps ⟨fun _ _ h => h, fun _ h => List.mem_of_mem_eraseIdx h, rfl, Iff.rfl⟩ trivial
  | send out now =>
    obtain ⟨⟩ := h
    exact sendMessage_consistent hw out now
  | settled i outcome now =>
    obtain ⟨sending, hs, rfl⟩ := Option.map_eq_some_iff.1 h
    have hk : Keeps w { w with sends := w.sends.eraseIdx i } :=
      ⟨fun _ _ h => h, fun _ h => h, rfl, Iff.rfl⟩
    exact hkeeps (hk.trans (Keeps.settlePart _ sending outcome now)) trivial

/-- In every run the tokens stay in their conversations exactly when every send was addressed
to where the token under its channel's id came from. -/
theorem tokensStayHome_iff (segment : JsString → List JsString) (opts : LineAdapterOptions)
    (as : List Action) (w : LineState)
    (hrun : run (LineState.step segment) (LineState.new opts) as = some w) :
    TokensStayHome w.trace ↔
      Meets (LineState.step segment) AddressedHome (LineState.new opts) as := by
  have hiff := holds_iff_meets (P := fun w => TokensStayHome w.trace) (C := AddressedHome)
    (fun _ _ _ hs h => (step_consistent hs h).1) (fun _ _ _ hs h => (step_consistent hs h).2)
    (consistent_new opts) hrun
  simpa [LineState.new, TokensStayHome] using hiff

/-- A message to everyone in a place, with a reply token. -/
def textFrom (source : LineSource) (replyToken : JsString) : LineWebhookEvent where
  type := js "message"
  timestamp := some 0
  source := some source
  replyToken := some replyToken
  message := some { type := js "text", id := some (js "1"), text := some (js "hi") }

/-- The adapter connects, hears one message and then writes to a user. -/
def writeAfter (source : LineSource) (target : JsString) : List Action :=
  [.connect, .clientMade true, .botInfo true, .onInbound 0,
    .webhook [textFrom source (js "token")] 0,
    .send { channel := { id := target, type := .dm }, text := js "hello" } 1]

def noSegments (_ : JsString) : List JsString := []

theorem tokensStayHome_iff_direct :
    TokensStayHome ((run (LineState.step noSegments) (LineState.new {})
        (writeAfter { type := js "user", userId := some (js "U1") } (js "U1"))).get
          (by rfl)).trace ↔
      Meets (LineState.step noSegments) AddressedHome (LineState.new {})
        (writeAfter { type := js "user", userId := some (js "U1") } (js "U1")) :=
  tokensStayHome_iff noSegments {}
    (writeAfter { type := js "user", userId := some (js "U1") } (js "U1")) _
    (Option.some_get _).symm

def groupSource : LineSource :=
  { type := js "group", userId := some (js "U1"), groupId := some (js "G1") }

def groupEvent : LineMessageEvent :=
  (lineEventToMessageEvent (textFrom groupSource (js "token")) 0).get rfl

/-- A user speaks in a group and is then written to: the reply goes to the group. -/
theorem token_leaves_group :
    ¬ ∀ (segment : JsString → List JsString) (opts : LineAdapterOptions) (as : List Action)
      (w : LineState), run (LineState.step segment) (LineState.new opts) as = some w →
        TokensStayHome w.trace := by
  intro h
  have hhome := h noSegments {} (writeAfter groupSource (js "U1")) _ (Option.some_get rfl).symm
  have htrace : ((run (LineState.step noSegments) (LineState.new {})
      (writeAfter groupSource (js "U1"))).get rfl).trace =
      [.replied (js "token") (js "hello"), .took (js "U1") (js "token"),
        .handed 0 groupEvent, .heard groupEvent] := rfl
  rw [htrace] at hhome
  obtain ⟨⟨e, he, _, hchannel⟩, _⟩ := hhome
  obtain rfl : groupEvent = e := Option.some.inj he
  exact absurd hchannel (by decide)

end TheokitGateways.Line
