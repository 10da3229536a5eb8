import TheokitGateways.Js.Any
import TheokitGateways.Js.Unicode

/-!
# Capturing the raw body of a request

`rawBodyCapture` gathers the text of a request stream for a signature to be
checked over it. With a limit, a larger body is read and dropped, and answered
413 at its end. A stream is a list of events, in any order and number: it is
answered once at most, and the text that is held stays within the limit
(`rawBodyCapture_spec`).
-/

namespace TheokitGateways.Gateway
open Js

/-- The value of a header. -/
inductive HeaderValue where
  | text (value : JsString)
  | list (values : List JsString)

structure RawBodyRequest where
  readableEnded : Option Bool := none
  complete : Option Bool := none
  contentLength : Option HeaderValue := none

/-- No one has drained the stream yet. -/
def RawBodyRequest.Unread (req : RawBodyRequest) : Prop :=
  req.readableEnded ≠ some true ∧ req.complete ≠ some true

instance (req : RawBodyRequest) : Decidable req.Unread := inferInstanceAs (Decidable (_ ∧ _))

/-- The `content-length` the client declared, or 0 when it declared none or an unreadable one. -/
def declaredLength (req : RawBodyRequest) : JsNumber :=
  let declared :=
    match req.contentLength with
    | some (.text value) | some (.list (value :: _)) => stringToNumber value
    | _ => .nan
  if declared.isFinite then declared else .finite 0

/-- A limit that is accepted: a finite number of zero or more. -/
structure ByteLimit where
  bytes : Rat
  nonneg : 0 ≤ bytes

def ByteLimit.toNumber (limit : ByteLimit) : JsNumber := .finite limit.bytes

/-- `size > maxBytes`, never so without a limit. -/
def exceeds (size : JsNumber) (maxBytes : Option JsNumber) : Bool :=
  maxBytes.any fun maxBytes => maxBytes.lt size

/-- What `rawBodyCapture` was given. -/
structure RawBodyCapture where
  tag : JsString
  limit : Option ByteLimit

def RawBodyCapture.maxBytes (m : RawBodyCapture) : Option JsNumber :=
  m.limit.map ByteLimit.toNumber

/-- The message of the `RangeError`. -/
def badLimit (tag : JsString) (maxBytes : JsNumber) : JsString :=
  js "[" ++ tag ++ js "] rawBodyCapture: maxBytes must be a finite number of zero or more, got " ++
    maxBytes.toStr

def rawBodyCapture (tag : JsString) : Option JsNumber → Except JsString RawBodyCapture
  | none => .ok ⟨tag, none⟩
  | some (.finite bytes) =>
    if hnonneg : 0 ≤ bytes then .ok ⟨tag, some ⟨bytes, hnonneg⟩⟩
    else .error (badLimit tag (.finite bytes))
  | some maxBytes => .error (badLimit tag maxBytes)

/-- How a request is passed on or answered. -/
inductive Reply where
  | next (err : Option JsAny)
  | json (status : Nat) (error : JsString)

/-- What the stream emits. `setEncoding` makes the chunks texts. -/
inductive StreamEvent where
  | data (chunk : JsString)
  | ended
  | error (err : JsAny)

structure RawBody where
  buf : JsString := []
  bytes : Nat := 0
  refused : Bool := false
  settled : Bool := false
  rawBody : Option JsString := none
  replies : List Reply := []
  stderr : List JsString := []

namespace RawBodyCapture

/-- What is said of a body that a parser has consumed. -/
def consumedLine (tag : JsString) : JsString :=
  js "[" ++ tag ++ js "] raw body already consumed before signature capture — mount this router " ++
    js "BEFORE any global body parser, or signature verification cannot see the bytes it " ++
    js "must hash\n"

/-- The answer to a body that is too large. -/
def tooLarge : Reply := .json 413 (js "request body too large")

def answerTooLarge (m : RawBodyCapture) (r : RawBody) : RawBody :=
  { r with
    replies := r.replies ++ [tooLarge]
    stderr := r.stderr ++ [js "[" ++ m.tag ++ js "] refused a request (413): body larger than " ++
      (m.maxBytes.getD (.finite 0)).toStr ++ js " bytes\n"] }

/-- The request as the middleware takes it. A consumed one is passed on and not listened to. -/
def receive (m : RawBodyCapture) (req : RawBodyRequest) : RawBody :=
  if req.readableEnded = some true ∨ req.complete = some true then
    { settled := true, rawBody := some [], replies := [.next none], stderr := [consumedLine m.tag] }
  else { refused := exceeds (declaredLength req) m.maxBytes }

def onData (m : RawBodyCapture) (r : RawBody) (chunk : JsString) : RawBody :=
  if r.refused || r.settled then r
  else
    let bytes := r.bytes + byteLength chunk
    if exceeds (.finite bytes) m.maxBytes then { r with bytes := bytes, refused := true, buf := [] }
    else { r with bytes := bytes, buf := r.buf ++ chunk }

def onEnd (m : RawBodyCapture) (r : RawBody) : RawBody :=
  if r.settled then r
  else
    let r := { r with settled := true }
    if r.refused then m.answerTooLarge r
    else { r with rawBody := some r.buf, replies := r.replies ++ [.next none] }

def onError (r : RawBody) (err : JsAny) : RawBody :=
  if r.settled then r
  else
    let r := { r with settled := true }
    if r.refused then r else { r with replies := r.replies ++ [.next (some err)] }

def on (m : RawBodyCapture) (r : RawBody) : StreamEvent → RawBody
  | .data chunk => m.onData r chunk
  | .ended => m.onEnd r
  | .error err => onError r err

/-- The request after the events of its stream. -/
def handle (m : RawBodyCapture) (req : RawBodyRequest) (events : List StreamEvent) : RawBody :=
  events.foldl m.on (m.receive req)

end RawBodyCapture

/-- The bytes of a body that arrives in chunks. -/
def bodyBytes (chunks : List JsString) : Nat :=
  chunks.foldr (fun chunk bytes => byteLength chunk + bytes) 0

/-- A body is larger than the limit, or was declared larger. -/
def TooLarge (maxBytes : Option JsNumber) (req : RawBodyRequest) (chunks : List JsString) : Prop :=
  exceeds (declaredLength req) maxBytes = true ∨
    exceeds (.finite (bodyBytes chunks)) maxBytes = true

instance (maxBytes : Option JsNumber) (req : RawBodyRequest) (chunks : List JsString) :
    Decidable (TooLarge maxBytes req chunks) :=
  inferInstanceAs (Decidable (_ ∨ _))

/-! ### What the events leave -/

namespace RawBodyCapture
variable {m : RawBodyCapture} {req : RawBodyRequest} {r : RawBody}

theorem on_of_settled (h : r.settled = true) (e : StreamEvent) : m.on r e = r := by
  cases e <;> simp [on, onData, onEnd, onError, h]

theorem foldl_on_of_settled (h : r.settled = true) (events : List StreamEvent) :
    events.foldl m.on r = r := by
  induction events with
  | nil => rfl
  | cons e events ih => rw [List.foldl_cons, on_of_settled h, ih]

theorem receive_of_unread (h : req.Unread) :
    m.receive req = { refused := exceeds (declaredLength req) m.maxBytes } :=
  if_neg (not_or.2 h)

theorem exceeds_mono {a b : Nat} (hab : a ≤ b) {maxBytes : Option JsNumber}
    (h : exceeds (.finite a) maxBytes = true) : exceeds (.finite b) maxBytes = true := by
  obtain ⟨n, rfl, hn⟩ := (Option.any_eq_true _ _).1 h
  have hcast : (a : Rat) ≤ b := Rat.natCast_le_natCast.2 hab
  cases n with
  | nan => cases hn
  | infinite negative => exact hn
  | finite q =>
    simp only [exceeds, Option.any_some, JsNumber.lt, JsNumber.le, Bool.not_eq_true',
      decide_eq_false_iff_not, Rat.not_le] at hn ⊢
    exact Std.lt_of_lt_of_le hn hcast

/-- Zero bytes exceed no limit. -/
theorem not_exceeds_zero (m : RawBodyCapture) : exceeds (.finite (0 : Nat)) m.maxBytes = false := by
  unfold maxBytes
  cases m.limit with
  | none => rfl
  | some limit => simpa [exceeds, ByteLimit.toNumber, JsNumber.lt, JsNumber.le] using limit.nonneg

/-- The request is answered once at most, and not before it is settled; the text that is held is
no longer than the bytes counted, which fit the limit. -/
structure Sound (m : RawBodyCapture) (r : RawBody) : Prop where
  unanswered : r.settled = false → r.replies = []
  once : r.replies.length ≤ 1
  counted : byteLength r.buf ≤ r.bytes
  fits : r.refused = true ∧ r.buf = [] ∨ exceeds (.finite r.bytes) m.maxBytes = false

theorem sound_receive (m : RawBodyCapture) (h : req.Unread) : m.Sound (m.receive req) := by
  rw [receive_of_unread h]
  exact ⟨fun _ => rfl, Nat.zero_le _, Nat.le_refl _, .inr m.not_exceeds_zero⟩

theorem sound_on (h : m.Sound r) (e : StreamEvent) : m.Sound (m.on r e) := by
  cases hsettled : r.settled with
  | true => rwa [on_of_settled hsettled]
  | false =>
    have hnone := h.unanswered hsettled
    cases e with
    | data chunk =>
      simp only [on, onData, hsettled, Bool.or_false]
      split
      · exact h
      · split
        · exact ⟨fun _ => hnone, h.once, Nat.zero_le _, .inl ⟨rfl, rfl⟩⟩
        · refine ⟨fun _ => hnone, h.once, ?_, .inr (Bool.eq_false_iff.2 ‹_›)⟩
          have hjoin := byteLength_append_le r.buf chunk
          have hheld := h.counted
          simp only
          omega
    | ended =>
      simp only [on, onEnd, hsettled, Bool.false_eq_true, if_false]
      split
      · exact ⟨nofun, by simp [answerTooLarge, hnone], h.counted, h.fits⟩
      · exact ⟨nofun, by simp [hnone], h.counted, h.fits⟩
    | error err =>
      simp only [on, onError, hsettled, Bool.false_eq_true, if_false]
      split
      · exact ⟨nofun, h.once, h.counted, h.fits⟩
      · exact ⟨nofun, by simp [hnone], h.counted, h.fits⟩

theorem sound_handle (m : RawBodyCapture) (h : req.Unread) (events : List StreamEvent) :
    m.Sound (m.handle req events) := by
  unfold handle
  generalize m.receive req = r, sound_receive m h = hr
  induction events generalizing r with
  | nil => exact hr
  | cons e events ih => exact ih (m.on r e) (sound_on hr e)

theorem bodyBytes_append (chunks : List JsString) (chunk : JsString) :
    bodyBytes (chunks ++ [chunk]) = bodyBytes chunks + byteLength chunk := by
  induction chunks with
  | nil => exact Nat.add_comm _ _
  | cons first chunks ih =>
    simp only [bodyBytes, List.cons_append, List.foldr_cons] at ih ⊢
    rw [ih, Nat.add_assoc]

theorem TooLarge.append {maxBytes : Option JsNumber} {chunks : List JsString}
    (h : TooLarge maxBytes req chunks) (chunk : JsString) :
    TooLarge maxBytes req (chunks ++ [chunk]) := by
  refine h.imp_right (exceeds_mono ?_)
  rw [bodyBytes_append]
  omega

/-- While only data has arrived, nothing is answered; the body is refused once it is too large, and
held whole until then. -/
structure Gathered (m : RawBodyCapture) (req : RawBodyRequest) (chunks : List JsString)
    (r : RawBody) : Prop where
  unsettled : r.settled = false
  unanswered : r.replies = []
  refused_iff : r.refused = true ↔ TooLarge m.maxBytes req chunks
  held : r.refused = false → r.buf = chunks.flatten ∧ r.bytes = bodyBytes chunks

theorem gathered_receive (m : RawBodyCapture) (h : req.Unread) :
    m.Gathered req [] (m.receive req) := by
  rw [receive_of_unread h]
  refine ⟨rfl, rfl, ?_, fun _ => ⟨rfl, rfl⟩⟩
  have hzero : exceeds (.finite (bodyBytes [] : Nat)) m.maxBytes = false := m.not_exceeds_zero
  simp only [TooLarge, hzero, Bool.false_eq_true, or_false]

theorem gathered_on {chunks : List JsString} (h : m.Gathered req chunks r) (chunk : JsString) :
    m.Gathered req (chunks ++ [chunk]) (m.on r (.data chunk)) := by
  have hunsettled := h.unsettled
  simp only [on, onData, hunsettled, Bool.or_false]
  split
  · rename_i hrefused
    have hlarge := TooLarge.append (h.refused_iff.1 hrefused) chunk
    exact ⟨h.unsettled, h.unanswered, by simp [hrefused, hlarge], by simp [hrefused]⟩
  · rename_i hrefused
    obtain ⟨hbuf, hbytes⟩ := h.held (Bool.eq_false_iff.2 hrefused)
    have hdeclared : ¬exceeds (declaredLength req) m.maxBytes = true := fun hdeclared =>
      hrefused (h.refused_iff.2 (.inl hdeclared))
    have hiff : TooLarge m.maxBytes req (chunks ++ [chunk]) ↔
        exceeds (.finite (r.bytes + byteLength chunk : Nat)) m.maxBytes = true := by
      rw [TooLarge, bodyBytes_append, hbytes]
      exact or_iff_right hdeclared
    split
    · exact ⟨rfl, h.unanswered, iff_of_true rfl (hiff.2 ‹_›), nofun⟩
    · refine ⟨rfl, h.unanswered, iff_of_false hrefused (mt hiff.1 ‹_›), fun _ => ⟨?_, ?_⟩⟩
      · simp [hbuf]
      · rw [bodyBytes_append, hbytes]

theorem gathered_foldl {seen : List JsString} (h : m.Gathered req seen r)
    (chunks : List JsString) :
    m.Gathered req (seen ++ chunks) ((chunks.map .data).foldl m.on r) := by
  induction chunks generalizing seen r with
  | nil => simpa using h
  | cons chunk chunks ih => simpa using ih (gathered_on h chunk)

theorem gathered_handle (m : RawBodyCapture) (h : req.Unread) (chunks : List JsString) :
    m.Gathered req chunks (m.handle req (chunks.map .data)) := by
  exact gathered_foldl (gathered_receive m h) chunks

/-- A refused request is never passed on. -/
theorem never_next {err : Option JsAny} (hrefused : r.refused = true) (h : .next err ∉ r.replies)
    (events : List StreamEvent) : .next err ∉ (events.foldl m.on r).replies := by
  induction events generalizing r with
  | nil => exact h
  | cons e events ih =>
    cases hsettled : r.settled with
    | true => rwa [foldl_on_of_settled hsettled]
    | false =>
      cases e with
      | data chunk =>
        have hon : m.on r (.data chunk) = r := by simp [on, onData, hrefused]
        rw [List.foldl_cons, hon]
        exact ih hrefused h
      | ended =>
        refine ih ?_ ?_
        · simp [on, onEnd, hsettled, hrefused, answerTooLarge]
        · simpa [on, onEnd, hsettled, hrefused, answerTooLarge, tooLarge] using h
      | error err' =>
        refine ih ?_ ?_
        · simp [on, onError, hsettled, hrefused]
        · simpa [on, onError, hsettled, hrefused] using h

/-- What the end of a stream that only gave data does. -/
theorem handle_ended (m : RawBodyCapture) (h : req.Unread) (chunks : List JsString)
    (rest : List StreamEvent) :
    m.handle req (chunks.map .data ++ .ended :: rest) =
      m.onEnd (m.handle req (chunks.map .data)) := by
  have hgathered := gathered_handle m h chunks
  have hsettled : (m.onEnd (m.handle req (chunks.map .data))).settled = true := by
    unfold onEnd
    rw [if_neg (by simp [hgathered.unsettled])]
    simp only
    split <;> rfl
  unfold handle at hsettled ⊢
  rw [List.foldl_append, List.foldl_cons]
  exact foldl_on_of_settled hsettled rest

end RawBodyCapture

theorem maxBytes_of_accepted {tag : JsString} {maxBytes : Option JsNumber} {m : RawBodyCapture}
    (h : rawBodyCapture tag maxBytes = .ok m) : m.maxBytes = maxBytes := by
  unfold rawBodyCapture at h
  split at h
  · obtain rfl := Except.ok.inj h
    rfl
  · split at h
    · obtain rfl := Except.ok.inj h
      rfl
    · cases h
  · cases h

/-- An unread stream is answered once at most, whatever it emits, and what is held of it fits the
limit. Where data comes before the end, the body is attached and passed on, or is too large and
answered 413; a body that has become too large is never passed on. -/
theorem rawBodyCapture_spec {tag : JsString} {maxBytes : Option JsNumber} {m : RawBodyCapture}
    (haccepted : rawBodyCapture tag maxBytes = .ok m) {req : RawBodyRequest} (hunread : req.Unread)
    (events : List StreamEvent) :
    (m.handle req events).replies.length ≤ 1 ∧
      exceeds (.finite (byteLength (m.handle req events).buf)) maxBytes = false ∧
      (∀ chunks rest, events = chunks.map .data ++ rest → TooLarge maxBytes req chunks →
        ∀ err, .next err ∉ (m.handle req events).replies) ∧
      ∀ chunks rest, events = chunks.map .data ++ .ended :: rest →
        (m.handle req (chunks.map .data)).replies = [] ∧
        (¬TooLarge maxBytes req chunks →
          (m.handle req events).rawBody = some chunks.flatten ∧
            (m.handle req events).replies = [.next none]) ∧
        (TooLarge maxBytes req chunks →
          (m.handle req events).replies = [.json 413 (js "request body too large")]) := by
  obtain rfl := maxBytes_of_accepted haccepted
  have hsound := m.sound_handle hunread events
  refine ⟨hsound.once, ?_, fun chunks rest hevents hlarge err => ?_,
    fun chunks rest hevents => ?_⟩
  · obtain ⟨_, hbuf⟩ | hfits := hsound.fits
    · rw [hbuf]
      exact m.not_exceeds_zero
    · refine Bool.eq_false_iff.2 fun hexceeds => ?_
      rw [RawBodyCapture.exceeds_mono hsound.counted hexceeds] at hfits
      cases hfits
  · have hgathered := m.gathered_handle hunread chunks
    subst hevents
    have hsplit : m.handle req (chunks.map .data ++ rest) =
        rest.foldl m.on (m.handle req (chunks.map .data)) := List.foldl_append
    rw [hsplit]
    refine RawBodyCapture.never_next (hgathered.refused_iff.2 hlarge) ?_ rest
    simp [hgathered.unanswered]
  · have hgathered := m.gathered_handle hunread chunks
    subst hevents
    rw [m.handle_ended hunread, RawBodyCapture.onEnd, if_neg (by simp [hgathered.unsettled])]
    refine ⟨hgathered.unanswered, fun hfits => ?_, fun hlarge => ?_⟩
    · have hkept : (m.handle req (chunks.map .data)).refused = false :=
        Bool.eq_false_iff.2 fun hrefused => hfits (hgathered.refused_iff.1 hrefused)
      simp [hkept, (hgathered.held hkept).1, hgathered.unanswered]
    · have hrefused := hgathered.refused_iff.2 hlarge
      simp [hrefused, RawBodyCapture.answerTooLarge, RawBodyCapture.tooLarge, hgathered.unanswered]

/-- A body of five bytes under a limit of five, in two chunks, and an error after its end. -/
theorem rawBodyCapture_spec_fits :
    ((⟨js "sms", some ⟨5, by decide⟩⟩ : RawBodyCapture).handle {}
      [.data (js "hé"), .data (js "ll"), .ended, .error .undefined]).rawBody = some (js "héll") ∧
      ¬TooLarge (some (.finite 5)) {} [js "hé", js "ll"] := by
  have hfits : ¬TooLarge (some (.finite 5)) {} [js "hé", js "ll"] := by decide
  have haccepted : rawBodyCapture (js "sms") (some (.finite 5)) =
      .ok ⟨js "sms", some ⟨5, by decide⟩⟩ := rfl
  have hunread : ({} : RawBodyRequest).Unread := by decide
  have hspec := rawBodyCapture_spec haccepted hunread
    [.data (js "hé"), .data (js "ll"), .ended, .error .undefined]
  obtain ⟨_, hattached, _⟩ := hspec.2.2.2 [js "hé", js "ll"] [.error .undefined] rfl
  exact ⟨(hattached hfits).1, hfits⟩

end TheokitGateways.Gateway
