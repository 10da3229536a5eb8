import TheokitGateways.Line.Ingest

/-!
# When `ingest` fails

The envelope check looks no deeper than the events: a null inside one of them, or
an object that hides its text, throws while the batch is read, and the good events
beside it are lost. `ingest` keeps its word exactly when every event of the batch
is `readable` and, unless the batch is refused, every sender whose token is cached
has a length and every error of the handler has a text.
-/

namespace TheokitGateways.Line.Ingest
open Js Gateway

/-! ### Which events can be read -/

/-- Its user id, if any, has a length. -/
def readableMention (m : Json) : Bool := !m.isNull && (m.get (js "userId")).all Json.measurable

def readableMentions (message : Json) : Bool :=
  match (Json.orElse (message.get (js "mentionees")) (.array [])).iterate with
  | .ok items => items.all readableMention
  | .error _ => false

/-- It has an id, or its time has a text. -/
def readableId (event message : Json) : Bool :=
  (Json.coalesce (message.get (js "id")) none).isSome ||
    (Json.orElse (event.get (js "timestamp")) .null).converts

def sourceIds (source : Json) : SourceIds :=
  ⟨source.get (js "userId"), source.get (js "groupId"), source.get (js "roomId")⟩

def readableFrom (event message source : Json) : Bool :=
  !source.isNull &&
    match (sourceIds source).sourceId with
    | none => true
    | some sourceId =>
      !sourceId.isNull &&
        if Json.isZero sourceId.lengthOf then true
        else readableMentions message && readableId event message

/-- Reading the event throws nothing. -/
def readable (event : Json) : Bool :=
  if !Json.isText (event.get (js "type")) (js "message") then true
  else
    match event.get (js "message") with
    | none => true
    | some message =>
      !message.isNull &&
        if !Json.isText (message.get (js "type")) (js "text") then true
        else (event.get (js "source")).all (readableFrom event message)

def senderFrom (source : Json) : Option Json :=
  match (sourceIds source).sourceId with
  | none => none
  | some sourceId =>
    if Json.isZero sourceId.lengthOf then none else some ((sourceIds source).sender sourceId)

/-- The sender of a text message from a source with an id. -/
def senderOf (event : Json) : Option Json :=
  if !Json.isText (event.get (js "type")) (js "message") then none
  else
    match event.get (js "message") with
    | none => none
    | some message =>
      if !Json.isText (message.get (js "type")) (js "text") then none
      else (event.get (js "source")).bind senderFrom

/-- Caching the event's reply token throws nothing. -/
def cacheable (event : Json) : Bool :=
  (event.get (js "replyToken")).isNone || (senderOf event).all Json.measurable

/-- The message events of a batch that the handler is to get. -/
def deliverable (opts : LineAdapterOptions) (envelope : List Json) (now : Nat) :
    List LineJsonEvent :=
  (envelope.filterMap fun ev => (lineEventToMessageEvent ev now).toOption.join).filter
    (passesMentionGuard opts)

variable {event message source sourceId : Json} {ids : SourceIds} {now : Nat}

theorem isOk_mentioneeId (m : Json) : (mentioneeId m).isOk = readableMention m := by
  unfold mentioneeId readableMention
  cases hnull : m.isNull with
  | true =>
    rw [Json.read_null hnull]
    rfl
  | false =>
    rw [Json.read_of_not_null hnull]
    cases m.get (js "userId") with
    | none => rfl
    | some userId =>
      rw [Option.all_some, ← Json.isOk_measure]
      cases hlength : userId.readLength with
      | error e => simp [hlength, bind, Except.bind, Except.isOk, Except.toBool]
      | ok v =>
        cases hpos : Json.isPositive v <;>
          simp [hlength, hpos, bind, Except.bind, pure, Except.pure, Except.isOk, Except.toBool]

theorem isOk_mentioneeIds (hnull : message.isNull = false) :
    (mentioneeIds message).isOk = readableMentions message := by
  unfold mentioneeIds readableMentions
  rw [Json.read_of_not_null hnull]
  cases hitems : (Json.orElse (message.get (js "mentionees")) (.array [])).iterate with
  | error e => simp [hitems, bind, Except.bind, Except.isOk, Except.toBool]
  | ok items =>
    have hmap : (items.mapM mentioneeId).isOk = items.all readableMention := by
      rw [Bool.eq_iff_iff, isOk_mapM, List.all_eq_true]
      simp only [isOk_mentioneeId]
    refine Eq.trans ?_ hmap
    cases hids : items.mapM mentioneeId <;>
      simp [hitems, hids, bind, Except.bind, pure, Except.pure, Except.isOk, Except.toBool]

theorem isOk_eventId (now : Nat) (hnull : message.isNull = false) :
    (eventId event message now).isOk = readableId event message := by
  unfold eventId readableId
  rw [Json.read_of_not_null hnull]
  cases hid : Json.coalesce (message.get (js "id")) none with
  | some id => simp [hid, bind, Except.bind, pure, Except.pure, Except.isOk, Except.toBool]
  | none =>
    -- What stands for a missing time has a text either way.
    have htime : (Json.orElse (event.get (js "timestamp")) .null).converts =
        (Json.orElse (event.get (js "timestamp")) (.number (.ofInt now))).converts := by
      rcases event.get (js "timestamp") with _ | ⟨_ | _ | _ | _ | _ | _⟩ <;> rfl
    rw [htime, ← Json.isOk_interpolate]
    cases htext : (Json.orElse (event.get (js "timestamp")) (.number (.ofInt now))).interpolate <;>
      simp [hid, htext, bind, Except.bind, pure, Except.pure, Except.isOk, Except.toBool]

theorem isOk_messageEvent (source : Json) (ids : SourceIds) (sourceId : Json) (now : Nat)
    (hnull : message.isNull = false) :
    (messageEvent event message source ids sourceId now).isOk =
      (readableMentions message && readableId event message) := by
  rw [← isOk_mentioneeIds hnull, ← isOk_eventId now hnull]
  unfold messageEvent
  cases mentioneeIds message with
  | error e => rfl
  | ok mentionees => cases eventId event message now <;> rfl

theorem messageEvent_eq {e : LineJsonEvent}
    (h : messageEvent event message source ids sourceId now = .ok e) :
    e.sender = ids.sender sourceId ∧ e.replyToken = event.get (js "replyToken") := by
  unfold messageEvent at h
  obtain ⟨mentionees, _, h⟩ := bind_eq_ok.1 h
  obtain ⟨id, _, h⟩ := bind_eq_ok.1 h
  cases h
  exact ⟨rfl, rfl⟩

/-- How reading an event with this reply token goes, by whether it can be read and by its
sender. -/
inductive ReadsAs (token : Option Json) :
    Except TypeFault (Option LineJsonEvent) → Bool → Option Json → Prop where
  | failed (fault : TypeFault) (sender : Option Json) : ReadsAs token (.error fault) false sender
  | skipped : ReadsAs token (.ok none) true none
  | read (e : LineJsonEvent) (htoken : e.replyToken = token) :
    ReadsAs token (.ok (some e)) true (some e.sender)

theorem readsAs_messageEvent (event source : Json) (ids : SourceIds) (sourceId : Json) (now : Nat)
    (hnull : message.isNull = false) :
    ReadsAs (event.get (js "replyToken"))
      ((messageEvent event message source ids sourceId now).map some)
      (readableMentions message && readableId event message) (some (ids.sender sourceId)) := by
  rw [← isOk_messageEvent source ids sourceId now hnull]
  cases hread : messageEvent event message source ids sourceId now with
  | error fault => exact .failed _ _
  | ok e =>
    obtain ⟨hsender, htoken⟩ := messageEvent_eq hread
    rw [← hsender]
    exact .read e htoken

theorem SourceIds.read_of_not_null (hnull : source.isNull = false) :
    SourceIds.read source = .ok (sourceIds source) := by
  unfold SourceIds.read
  simp only [Json.read_of_not_null hnull]
  rfl

theorem readsAs_sourceEvent (hnull : message.isNull = false) :
    ReadsAs (event.get (js "replyToken")) (sourceEvent event message source now)
      (readableFrom event message source) (senderFrom source) := by
  unfold sourceEvent readableFrom senderFrom
  cases hsource : source.isNull with
  | true =>
    unfold SourceIds.read
    rw [Json.read_null hsource]
    exact .failed _ _
  | false =>
    rw [SourceIds.read_of_not_null hsource]
    show ReadsAs _ (match (sourceIds source).sourceId with | none => _ | some _ => _) _ _
    cases (sourceIds source).sourceId with
    | none => exact .skipped
    | some sourceId =>
      cases hid : sourceId.isNull with
      | true =>
        cases sourceId <;> first | exact .failed _ _ | cases hid
      | false =>
        simp only [Json.readLength_of_not_null hid, hid]
        show ReadsAs _ (if Json.isZero sourceId.lengthOf then .ok none
          else (messageEvent event message source (sourceIds source) sourceId now).bind
            (.ok ∘ some)) _ _
        cases Json.isZero sourceId.lengthOf with
        | true => exact .skipped
        | false =>
          have hread :=
            readsAs_messageEvent event source (sourceIds source) sourceId now hnull
          cases hevent : messageEvent event message source (sourceIds source) sourceId now with
          | error fault => rw [hevent] at hread; exact hread
          | ok e => rw [hevent] at hread; exact hread

theorem readsAs_lineEventToMessageEvent (event : Json) (now : Nat) :
    ReadsAs (event.get (js "replyToken")) (lineEventToMessageEvent event now) (readable event)
      (senderOf event) := by
  unfold lineEventToMessageEvent readable senderOf
  cases Json.isText (event.get (js "type")) (js "message") with
  | false => exact .skipped
  | true =>
    show ReadsAs _ (match event.get (js "message") with | none => _ | some _ => _) _ _
    cases event.get (js "message") with
    | none => exact .skipped
    | some message =>
      cases hnull : message.isNull with
      | true =>
        simp only [Json.read_null hnull, hnull]
        exact .failed _ _
      | false =>
        simp only [Json.read_of_not_null hnull, hnull]
        show ReadsAs _ (if !Json.isText (message.get (js "type")) (js "text") then .ok none
          else match event.get (js "source") with | none => _ | some _ => _) _ _
        cases Json.isText (message.get (js "type")) (js "text") with
        | false => exact .skipped
        | true =>
          cases event.get (js "source") with
          | none => exact .skipped
          | some source => exact readsAs_sourceEvent hnull

/-! ### Which batches are dispatched to their end -/

/-- The event's reply token can be cached. -/
def TokenKept (event : LineJsonEvent) : Prop :=
  event.replyToken = none ∨ event.sender.measurable = true

/-- The events among those of a batch that pass the mention guard. -/
def passed (opts : LineAdapterOptions) (events : List (Option LineJsonEvent)) :
    List LineJsonEvent :=
  (events.filterMap id).filter (passesMentionGuard opts)

def handedTo (handler : Option Handler) (events : List LineJsonEvent) :
    List (Handler × LineJsonEvent) :=
  handler.elim [] fun handler => events.map (handler, ·)

/-- What the handler throws at the events, `n` of them after the first `k`, is written out. -/
def Printing (handler : Option Handler) (results : Nat → Except JsAny Unit) (k n : Nat) : Prop :=
  handler.isSome = true → ∀ i < n, Prints (results (k + i))

variable {opts : LineAdapterOptions} {handler : Option Handler}
  {results : Nat → Except JsAny Unit} {d : Done} {e : LineJsonEvent}

theorem printing_add {k m n : Nat} :
    Printing handler results k (m + n) ↔
      Printing handler results k m ∧ Printing handler results (k + m) n := by
  constructor
  · intro h
    constructor
    · intro hsome i hi
      exact h hsome i (by omega)
    · intro hsome i hi
      have hprints := h hsome (m + i) (by omega)
      rwa [← Nat.add_assoc] at hprints
  · rintro ⟨hm, hn⟩ hsome i hi
    rcases Nat.lt_or_ge i m with hlt | hge
    · exact hm hsome i hlt
    · have hprints := hn hsome (i - m) (by omega)
      rwa [Nat.add_assoc, Nat.add_sub_cancel' hge] at hprints

theorem passed_cons (normalized : Option LineJsonEvent) (events : List (Option LineJsonEvent)) :
    passed opts (normalized :: events) = passed opts [normalized] ++ passed opts events := by
  cases normalized <;> simp [passed, List.filter_cons]
  split <;> rfl

theorem handedTo_append (events rest : List LineJsonEvent) :
    handedTo handler (events ++ rest) = handedTo handler events ++ handedTo handler rest := by
  cases handler <;> simp [handedTo]

theorem isOk_cacheReplyToken : (cacheReplyToken d e).isOk = true ↔ TokenKept e := by
  unfold cacheReplyToken TokenKept
  cases htoken : e.replyToken with
  | none => simp [Except.isOk, Except.toBool]
  | some token =>
    rw [← Json.isOk_measure]
    cases hlength : e.sender.readLength with
    | error fault => simp [bind, Except.bind, Except.isOk, Except.toBool]
    | ok v =>
      cases hpos : Json.isPositive v with
      | error fault => simp [hpos, bind, Except.bind, Except.isOk, Except.toBool]
      | ok b =>
        cases b <;> simp [hpos, bind, Except.bind, pure, Except.pure, Except.isOk, Except.toBool]

theorem handed_cacheReplyToken {d' : Done} (h : cacheReplyToken d e = .ok d') :
    d'.handed = d.handed := by
  unfold cacheReplyToken at h
  cases htoken : e.replyToken with
  | none =>
    rw [htoken] at h
    cases h
    rfl
  | some token =>
    rw [htoken] at h
    obtain ⟨v, _, h⟩ := bind_eq_ok.1 h
    obtain ⟨b, _, h⟩ := bind_eq_ok.1 h
    cases b <;> cases h <;> rfl

theorem isOk_hand :
    (hand opts handler results d e).2.isOk = true ↔
      Printing handler results d.handed.length (passed opts [some e]).length := by
  unfold hand Printing passed
  cases handler with
  | none => simp [Except.isOk, Except.toBool]
  | some handler =>
    cases hpass : passesMentionGuard opts e with
    | false => simp [hpass, Except.isOk, Except.toBool]
    | true =>
      cases hresult : results d.handed.length with
      | ok a => simp [hpass, hresult, Prints, Except.isOk, Except.toBool]
      | error err =>
        have hprinted : (((thrownText err).map fun _ => ()).mapError Fault.handler).isOk =
            (thrownText err).isOk := by
          cases thrownText err <;> rfl
        simp [hpass, hresult, Prints, hprinted]

theorem handed_hand :
    (hand opts handler results d e).1.handed =
      d.handed ++ handedTo handler (passed opts [some e]) := by
  unfold hand handedTo passed
  cases handler with
  | none => simp
  | some handler =>
    cases hpass : passesMentionGuard opts e with
    | false => simp [hpass]
    | true => cases results d.handed.length <;> simp [hpass]

theorem isOk_dispatchSingleEvent (normalized : Option LineJsonEvent) :
    (dispatchSingleEvent opts handler results d normalized).2.isOk = true ↔
      (∀ e, normalized = some e → TokenKept e) ∧
        Printing handler results d.handed.length (passed opts [normalized]).length := by
  cases normalized with
  | none => simp [dispatchSingleEvent, Printing, passed, Except.isOk, Except.toBool]
  | some e =>
    have hkept := isOk_cacheReplyToken (d := d) (e := e)
    unfold dispatchSingleEvent
    cases hcached : cacheReplyToken d e with
    | error fault =>
      have hlost : ¬ TokenKept e := by
        rw [← hkept, hcached]
        simp [Except.isOk, Except.toBool]
      simp [hcached, hlost, Except.isOk, Except.toBool]
    | ok d' =>
      have htoken : TokenKept e := by
        rw [← hkept, hcached]
        rfl
      simp only [hcached, isOk_hand, handed_cacheReplyToken hcached]
      simp [htoken]

theorem handed_dispatchSingleEvent (normalized : Option LineJsonEvent)
    (h : (dispatchSingleEvent opts handler results d normalized).2.isOk = true) :
    (dispatchSingleEvent opts handler results d normalized).1.handed =
      d.handed ++ handedTo handler (passed opts [normalized]) := by
  cases normalized with
  | none => cases handler <;> simp [dispatchSingleEvent, passed, handedTo]
  | some e =>
    unfold dispatchSingleEvent at h ⊢
    cases hcached : cacheReplyToken d e with
    | error fault => simp [hcached, Except.isOk, Except.toBool] at h
    | ok d' => simp only [hcached, handed_hand, handed_cacheReplyToken hcached]

theorem dispatchEvents_cons (normalized : Option LineJsonEvent)
    (rest : List (Option LineJsonEvent)) :
    dispatchEvents opts handler results d (normalized :: rest) =
      if (dispatchSingleEvent opts handler results d normalized).2.isOk then
        dispatchEvents opts handler results
          (dispatchSingleEvent opts handler results d normalized).1 rest
      else dispatchSingleEvent opts handler results d normalized := by
  rw [dispatchEvents]
  rcases dispatchSingleEvent opts handler results d normalized with ⟨d', _ | ⟨⟨⟩⟩⟩ <;> rfl

theorem printing_handedTo {k n : Nat} (events : List LineJsonEvent) :
    Printing handler results (k + (handedTo handler events).length) n ↔
      Printing handler results (k + events.length) n := by
  cases handler <;> simp [Printing, handedTo]

/-- A batch is dispatched to its end when every token is kept and every error printed. -/
theorem isOk_dispatchEvents (events : List (Option LineJsonEvent)) :
    (dispatchEvents opts handler results d events).2.isOk = true ↔
      (∀ e, some e ∈ events → TokenKept e) ∧
        Printing handler results d.handed.length (passed opts events).length := by
  induction events generalizing d with
  | nil => simp [dispatchEvents, Printing, passed, Except.isOk, Except.toBool]
  | cons normalized rest ih =>
    have hsingle : (dispatchSingleEvent opts handler results d normalized).2.isOk = true ↔ _ :=
      isOk_dispatchSingleEvent normalized
    rw [dispatchEvents_cons, passed_cons, List.length_append, printing_add]
    by_cases hok : (dispatchSingleEvent opts handler results d normalized).2.isOk = true
    · obtain ⟨htoken, hprinting⟩ := hsingle.1 hok
      rw [if_pos hok, ih, handed_dispatchSingleEvent normalized hok, List.length_append,
        printing_handedTo]
      constructor
      · rintro ⟨hrest, hafter⟩
        refine ⟨fun e he => ?_, hprinting, hafter⟩
        rcases List.mem_cons.1 he with heq | hmem
        · exact htoken e heq.symm
        · exact hrest e hmem
      · rintro ⟨hall, _, hafter⟩
        exact ⟨fun e he => hall e (List.mem_cons_of_mem _ he), hafter⟩
    · rw [if_neg hok]
      constructor
      · exact fun h => absurd h hok
      · rintro ⟨hall, hprinting, _⟩
        exact hsingle.2 ⟨fun e he => hall e (he ▸ List.mem_cons_self), hprinting⟩

/-- Then the handler has got, in order, the events that passed. -/
theorem handed_dispatchEvents (events : List (Option LineJsonEvent))
    (h : (dispatchEvents opts handler results d events).2.isOk = true) :
    (dispatchEvents opts handler results d events).1.handed =
      d.handed ++ handedTo handler (passed opts events) := by
  induction events generalizing d with
  | nil => cases handler <;> simp [dispatchEvents, passed, handedTo]
  | cons normalized rest ih =>
    rw [dispatchEvents_cons] at h ⊢
    split at h
    · rename_i hok
      rw [if_pos hok, ih h, handed_dispatchSingleEvent normalized hok,
        passed_cons normalized rest, handedTo_append, List.append_assoc]
    · contradiction

/-! ### Which payloads are taken -/

/-- `ingest` resolves. What it reports as delivered was handed over, event by event, to the
handler it read; what it refuses has left no trace. -/
structure Settles (opts : LineAdapterOptions) (handler : Option Handler)
    (results : Nat → Except JsAny Unit) (payload : Json) (now : Nat) : Prop where
  resolves : ∃ result, (ingest opts handler results payload now).2 = .ok result
  delivered : (ingest opts handler results payload now).2 = .ok .delivered →
    ∃ envelope, envelopeOf payload = some envelope ∧
      (ingest opts handler results payload now).1.handed.map Prod.snd =
        deliverable opts envelope now ∧
      ∀ given ∈ (ingest opts handler results payload now).1.handed, handler = some given.1
  refused : ∀ result, result ≠ .delivered →
    (ingest opts handler results payload now).2 = .ok result →
    (ingest opts handler results payload now).1 = {}

/-- Every event can be read, and unless the batch is refused, every reply token can be cached and
everything the handler throws can be printed. -/
def Readable (opts : LineAdapterOptions) (handler : Option Handler)
    (results : Nat → Except JsAny Unit) (envelope : List Json) (now : Nat) : Prop :=
  (∀ event ∈ envelope, readable event = true) ∧
    (handler = none ∧ deliverable opts envelope now ≠ [] ∨
      (∀ event ∈ envelope, cacheable event = true) ∧
        Printing handler results 0 (deliverable opts envelope now).length)

variable {envelope : List Json} {events : List (Option LineJsonEvent)} {payload : Json}

theorem isOk_lineEventToMessageEvent :
    (lineEventToMessageEvent event now).isOk = readable event := by
  have hread := readsAs_lineEventToMessageEvent event now
  generalize lineEventToMessageEvent event now = result at hread ⊢
  generalize readable event = r at hread ⊢
  generalize senderOf event = sender at hread
  cases hread <;> rfl

/-- An event's token can be cached when that of the message event can. -/
theorem cacheable_iff {normalized : Option LineJsonEvent}
    (h : lineEventToMessageEvent event now = .ok normalized) :
    cacheable event = true ↔ ∀ e, normalized = some e → TokenKept e := by
  have hread := readsAs_lineEventToMessageEvent event now
  unfold cacheable
  rw [h] at hread
  generalize senderOf event = sender at hread ⊢
  generalize readable event = r at hread
  cases hread with
  | skipped => simp
  | read e htoken => simp [TokenKept, htoken]

theorem deliverable_eq (h : envelope.mapM (lineEventToMessageEvent · now) = .ok events) :
    deliverable opts envelope now = passed opts events := by
  have hmap := map_eq_of_mapM h
  have hread : envelope.filterMap (fun ev => (lineEventToMessageEvent ev now).toOption.join) =
      (envelope.map (lineEventToMessageEvent · now)).filterMap fun r => r.toOption.join := by
    rw [List.filterMap_map]
    rfl
  unfold deliverable passed
  rw [hread, hmap, List.filterMap_map]
  rfl

theorem forall_cacheable_iff (h : envelope.mapM (lineEventToMessageEvent · now) = .ok events) :
    (∀ event ∈ envelope, cacheable event = true) ↔ ∀ e, some e ∈ events → TokenKept e := by
  have hmap := map_eq_of_mapM h
  constructor
  · intro hall e he
    have hmem : .ok (some e) ∈ envelope.map (lineEventToMessageEvent · now) := by
      rw [hmap]
      exact List.mem_map_of_mem he
    obtain ⟨event, hevent, hread⟩ := List.mem_map.1 hmem
    exact (cacheable_iff hread).1 (hall event hevent) e rfl
  · intro hall event hevent
    have hmem := List.mem_map_of_mem (f := (lineEventToMessageEvent · now)) hevent
    rw [hmap] at hmem
    obtain ⟨normalized, hnormalized, hread⟩ := List.mem_map.1 hmem
    exact (cacheable_iff hread.symm).2 fun e he => hall e (he ▸ hnormalized)

/-- The batch waits for a handler: it has an event to deliver and nobody to deliver it to. -/
theorem waits_iff (h : envelope.mapM (lineEventToMessageEvent · now) = .ok events) :
    (handler.isNone && events.any (·.any (passesMentionGuard opts))) = true ↔
      handler = none ∧ deliverable opts envelope now ≠ [] := by
  rw [deliverable_eq h, Bool.and_eq_true, Option.isNone_iff_eq_none]
  refine and_congr_right fun _ => ?_
  simp only [passed, List.any_eq_true, Option.any_eq_true, ne_eq, List.filter_eq_nil_iff]
  constructor
  · rintro ⟨_, hmem, e, rfl, hpass⟩ hnone
    exact hnone e (List.mem_filterMap.2 ⟨_, hmem, rfl⟩) hpass
  · intro hsome
    refine Classical.byContradiction fun hnot => hsome fun e he hpass => ?_
    obtain ⟨_, hmem, rfl⟩ := List.mem_filterMap.1 he
    exact hnot ⟨_, hmem, e, rfl, hpass⟩

theorem dispatchWebhookBody_of_readable
    (h : envelope.mapM (lineEventToMessageEvent · now) = .ok events) :
    dispatchWebhookBody opts handler results envelope now =
      if handler = none ∧ deliverable opts envelope now ≠ [] then ({}, .ok .noHandler)
      else ((dispatchEvents opts handler results {} events).1,
        (dispatchEvents opts handler results {} events).2.map fun _ => .ok) := by
  unfold dispatchWebhookBody
  simp only [h]
  split
  · rename_i hwaits
    rw [if_pos ((waits_iff h).1 hwaits)]
  · rename_i hgoes
    rw [if_neg fun hwaits => hgoes ((waits_iff h).2 hwaits)]

/-- The dispatch resolves exactly for a readable batch. -/
theorem isOk_dispatchWebhookBody :
    (dispatchWebhookBody opts handler results envelope now).2.isOk = true ↔
      Readable opts handler results envelope now := by
  have hreadable : (∀ event ∈ envelope, readable event = true) ↔
      (envelope.mapM (lineEventToMessageEvent · now)).isOk = true := by
    simp only [isOk_mapM, isOk_lineEventToMessageEvent]
  unfold Readable
  rw [hreadable]
  cases hread : envelope.mapM (lineEventToMessageEvent · now) with
  | error fault => simp [dispatchWebhookBody, hread, Except.isOk, Except.toBool]
  | ok events =>
    rw [dispatchWebhookBody_of_readable hread, forall_cacheable_iff hread]
    by_cases hwaits : handler = none ∧ deliverable opts envelope now ≠ []
    · simp [hwaits, Except.isOk, Except.toBool]
    · have hdispatch : (dispatchEvents opts handler results {} events).2.isOk = true ↔ _ :=
        isOk_dispatchEvents events
      have hmap (r : Except Fault Unit) :
          (r.map fun _ => DispatchResult.ok).isOk = r.isOk := by
        cases r <;> rfl
      rw [if_neg hwaits, hmap, hdispatch, deliverable_eq hread]
      rw [deliverable_eq hread] at hwaits
      simp [hwaits, Except.isOk, Except.toBool]

theorem settles_of_readable (henvelope : envelopeOf payload = some envelope)
    (h : Readable opts handler results envelope now) :
    Settles opts handler results payload now := by
  obtain ⟨outcome, houtcome⟩ := isOk_eq_true_iff.1 (isOk_dispatchWebhookBody.2 h)
  obtain ⟨events, hread⟩ :
      ∃ events, envelope.mapM (lineEventToMessageEvent · now) = .ok events := by
    rw [← isOk_eq_true_iff, isOk_mapM]
    simp only [isOk_lineEventToMessageEvent]
    exact h.1
  rw [dispatchWebhookBody_of_readable hread] at houtcome
  by_cases hwaits : handler = none ∧ deliverable opts envelope now ≠ []
  · have hingest : ingest opts handler results payload now = ({}, .ok .noHandler) := by
      simp only [ingest, henvelope, dispatchWebhookBody_of_readable hread, if_pos hwaits]
      rfl
    refine ⟨⟨_, congrArg Prod.snd hingest⟩, fun hdelivered => ?_, fun _ _ _ =>
      congrArg Prod.fst hingest⟩
    rw [hingest] at hdelivered
    cases hdelivered
  · rw [if_neg hwaits] at houtcome
    obtain ⟨⟨⟩, hdispatch, _⟩ := map_eq_ok.1 houtcome
    have hhanded := handed_dispatchEvents events (isOk_eq_true_iff.2 ⟨(), hdispatch⟩)
    have hingest : ingest opts handler results payload now =
        ((dispatchEvents opts handler results {} events).1, .ok .delivered) := by
      simp only [ingest, henvelope, dispatchWebhookBody_of_readable hread, if_neg hwaits,
        hdispatch]
      rfl
    refine ⟨⟨_, congrArg Prod.snd hingest⟩, fun _ => ⟨envelope, henvelope, ?_, ?_⟩,
      fun result hne hresult => ?_⟩
    · rw [hingest, hhanded, deliverable_eq hread]
      cases handler with
      | none =>
        have hnone : deliverable opts envelope now = [] :=
          Decidable.byContradiction fun hne => hwaits ⟨rfl, hne⟩
        rw [deliverable_eq hread] at hnone
        simp [handedTo, hnone]
      | some handler => simp [handedTo, Function.comp_def]
    · rw [hingest, hhanded]
      cases handler with
      | none => simp [handedTo]
      | some handler => simp [handedTo]
    · rw [hingest] at hresult
      cases hresult
      contradiction

/-- `ingest` keeps its word on a payload exactly when that is no batch, or a readable one. -/
theorem settles_iff_readable :
    Settles opts handler results payload now ↔
      ∀ envelope, envelopeOf payload = some envelope →
        Readable opts handler results envelope now := by
  constructor
  · rintro ⟨⟨result, hresult⟩, _, _⟩ envelope henvelope
    rw [← isOk_dispatchWebhookBody]
    simp only [ingest, henvelope] at hresult
    obtain ⟨outcome, houtcome, _⟩ := map_eq_ok.1 hresult
    exact isOk_eq_true_iff.2 ⟨outcome, houtcome⟩
  · intro h
    cases henvelope : envelopeOf payload with
    | some envelope => exact settles_of_readable henvelope (h envelope henvelope)
    | none =>
      have hingest : ingest opts handler results payload now = ({}, .ok .malformed) := by
        simp only [ingest, henvelope]
      refine ⟨⟨_, congrArg Prod.snd hingest⟩, fun hdelivered => ?_, fun _ _ _ =>
        congrArg Prod.fst hingest⟩
      rw [hingest] at hdelivered
      cases hdelivered

/-- A message for the handler, and beside it an event whose message is null. -/
def oddBatch : Json :=
  .object [(js "events", .array [
    .object [(js "type", .string (js "message")),
      (js "message", .object [(js "type", .string (js "text")), (js "id", .string (js "m1"))]),
      (js "source", .object [(js "type", .string (js "user")), (js "userId", .string (js "u1"))])],
    .object [(js "type", .string (js "message")), (js "message", .null)]])]

/-- The odd event takes the good one with it. -/
theorem odd_event_rejects_batch :
    ¬ ∀ (opts : LineAdapterOptions) (handler : Option Handler)
      (results : Nat → Except JsAny Unit) (payload : Json) (now : Nat),
      Settles opts handler results payload now := by
  intro h
  obtain ⟨result, hresult⟩ := (h {} (some 0) (fun _ => .ok ()) oddBatch 0).resolves
  have hrejects : (ingest {} (some 0) (fun _ => .ok ()) oddBatch 0).2.isOk = false := by
    decide +kernel
  rw [hresult] at hrejects
  cases hrejects

end TheokitGateways.Line.Ingest
