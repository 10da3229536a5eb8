import TheokitGateways.Gateway.Adapter
import TheokitGateways.Irc.Split

/-!
# Sending a message over IRC

`sendMessage` refuses what it cannot send and writes the rest as one payload of
commands. `translate` stands for the rendering that takes the markers out of
markdown. However a message is sent, no `RangeError` leaves `sendMessage`, and
what is written are the bodies of the text (`sendMessage_frames`).
-/

namespace TheokitGateways.Irc
open Js Gateway

/-- What a call throws: a `RangeError`, by its message, or anything else. -/
inductive Thrown where
  | rangeError (message : JsString)
  | other (value : JsAny)

/-- What `sendMessage` looks at of the adapter. -/
structure Sender where
  /-- The adapter is connected and holds a socket that is not destroyed. -/
  writable : Bool
  warnedAboutHtml : Bool := false

/-- How a send goes on: it is answered, or waits for the write of a payload. -/
inductive SendStep where
  | answered (result : SendResult)
  | writing (payload : JsString)
  deriving DecidableEq

/-- NUL ends a C string on many servers and BEL is forbidden in a channel name. -/
def hasControlByte (text : JsString) : Bool := text.contains nul || text.contains 0x07

/-- `TARGET.test(target)`, for the pattern `/^[^\s,:][^\s,]*$/`. -/
def isTarget : JsString → Bool
  | [] => false
  | c :: rest =>
    !(isSpace c || c = unit ',' || c = unit ':') && rest.all fun c => !(isSpace c || c = unit ',')

def htmlWarning : JsString :=
  js "[gateway-irc] format=\"html\" was declared and IRC has no html mode; sending the text " ++
    js "unchanged. Logged once.\n"

/-- The text to send, with the adapter after it and the lines it writes to stderr. -/
def textFor (translate : JsString → Except Thrown JsString) (sender : Sender)
    (out : OutboundMessage) : Except Thrown JsString × Sender × List JsString :=
  match out.format with
  | some .markdown => (translate out.text, sender, [])
  | some .html =>
    if sender.warnedAboutHtml then (.ok out.text, sender, [])
    else (.ok out.text, { sender with warnedAboutHtml := true }, [htmlWarning])
  | some .plain | none => (.ok out.text, sender, [])

/-- The bodies of a text that could be made, or what was thrown. -/
def bodiesOf (target : JsString) (text : Except Thrown JsString) :
    Except Thrown (List JsString) := do
  (splitForIrc (← text) target).mapError .rangeError

/-- What is done with the bodies. -/
def framed (target : JsString) : Except Thrown (List JsString) → Except Thrown SendStep
  | .error (.rangeError message) => .ok (.answered (.failure (js "invalid_target") message))
  | .error e => .error e
  | .ok [] =>
    .ok (.answered (.failure (js "empty_text") (js "outbound text has no visible line")))
  | .ok bodies => .ok (.writing (bodies.flatMap (command target)))

def sendMessage (translate : JsString → Except Thrown JsString) (sender : Sender)
    (out : OutboundMessage) : Except Thrown SendStep × Sender × List JsString :=
  let target := out.channel.id
  if out.text = [] then
    (.ok (.answered (.failure (js "empty_text") (js "outbound text is empty"))), sender, [])
  else if !isTarget target || hasControlByte target then
    (.ok (.answered (.failure (js "invalid_target")
      (js "channel.id must be one channel or nick with no spaces or line breaks, got " ++
        Json.quoteString target))), sender, [])
  else if !sender.writable then
    (.ok (.answered (.failure (js "not_connected")
      (js "IrcAdapter.connect() has not succeeded"))), sender, [])
  else
    let (text, sender, lines) := textFor translate sender out
    (framed target (bodiesOf target text), sender, lines)

/-- The answer to a payload once its write has settled, with the message of its error. -/
def written : Option JsString → SendResult
  | some message => .failure (js "irc_write_error") message
  | none => { ok := true }

theorem framed_ne_rangeError (target : JsString) (bodies : Except Thrown (List JsString))
    (message : JsString) : framed target bodies ≠ .error (.rangeError message) := by
  intro h
  cases bodies with
  | error e => cases e <;> cases h
  | ok bodies => cases bodies <;> cases h

theorem framed_error_ne (target : JsString) (e : Thrown) (payload : JsString) :
    framed target (.error e) ≠ .ok (.writing payload) := by
  intro h
  cases e with
  | rangeError message =>
    rw [framed] at h
    injection h with h
    injection h
  | other value => cases h

/-- A payload is the commands of the bodies of the text. -/
theorem framed_eq_writing {target payload : JsString} {text : Except Thrown JsString}
    (h : framed target (bodiesOf target text) = .ok (.writing payload)) :
    ∃ t bodies, text = .ok t ∧ payload = bodies.flatMap (command target) ∧
      Bodies t target defaultPrefixReserveBytes bodies := by
  cases hbodies : bodiesOf target text with
  | error e =>
    rw [hbodies] at h
    exact absurd h (framed_error_ne target e payload)
  | ok bodies =>
    obtain ⟨t, htext, hmapped⟩ := bind_eq_ok.1 hbodies
    have hsplit : splitForIrc t target = .ok bodies := by
      cases hsplit : splitForIrc t target with
      | error message =>
        rw [hsplit] at hmapped
        cases hmapped
      | ok bodies' =>
        rw [hsplit] at hmapped
        exact congrArg Except.ok (Except.ok.inj hmapped)
    rw [hbodies] at h
    cases bodies with
    | nil =>
      rw [framed] at h
      injection h with h
      injection h
    | cons body bodies =>
      obtain rfl := SendStep.writing.inj (Except.ok.inj h)
      exact ⟨t, body :: bodies, htext, rfl, splitForIrc_bodies hsplit⟩

/-- A text with a visible line is written when its target leaves room for a code point. -/
theorem framed_of_visible {target t : JsString}
    (hroom : (maxCodePointBytes : Int) ≤ bodyBudget target defaultPrefixReserveBytes)
    (hvisible : ∃ line ∈ splitLines t, withoutNul line ≠ []) :
    ∃ payload, framed target (bodiesOf target (.ok t)) = .ok (.writing payload) := by
  have hsplit : ∃ bodies, splitForIrc t target = .ok bodies := by
    unfold splitForIrc
    dsimp only
    rw [if_neg (Int.not_lt.2 hroom)]
    exact ⟨_, rfl⟩
  obtain ⟨bodies, hsplit⟩ := hsplit
  obtain ⟨⟨bodiesOf, hbodies, hlines⟩, _, _⟩ := splitForIrc_bodies hsplit
  obtain ⟨line, hline, hne⟩ := hvisible
  have hbodies_ne : bodies ≠ [] := by
    rintro rfl
    have hnil : bodiesOf line = [] := (List.flatMap_eq_nil_iff.1 hbodies.symm) line hline
    have := (hlines line hline).1
    rw [hnil] at this
    exact hne this.symm
  obtain ⟨body, rest, rfl⟩ := List.exists_cons_of_ne_nil hbodies_ne
  have hframed : Irc.bodiesOf target (.ok t) = .ok (body :: rest) :=
    bind_eq_ok.2 ⟨t, rfl, congrArg (Except.mapError Thrown.rangeError) hsplit⟩
  rw [hframed]
  exact ⟨_, rfl⟩

/-- No `RangeError` leaves `sendMessage`; what it writes are the commands of the bodies of the
text, and it writes every text with a visible line to a target it accepts. -/
theorem sendMessage_frames (translate : JsString → Except Thrown JsString) (sender : Sender)
    (out : OutboundMessage) :
    (∀ message, (sendMessage translate sender out).1 ≠ .error (.rangeError message)) ∧
    (∀ payload, (sendMessage translate sender out).1 = .ok (.writing payload) →
      ∃ text bodies, (textFor translate sender out).1 = .ok text ∧
        payload = bodies.flatMap (command out.channel.id) ∧
        Bodies text out.channel.id defaultPrefixReserveBytes bodies) ∧
    (out.text ≠ [] → isTarget out.channel.id = true → hasControlByte out.channel.id = false →
      sender.writable = true →
      (maxCodePointBytes : Int) ≤ bodyBudget out.channel.id defaultPrefixReserveBytes →
      ∀ text, (textFor translate sender out).1 = .ok text →
      (∃ line ∈ splitLines text, withoutNul line ≠ []) →
      ∃ payload, (sendMessage translate sender out).1 = .ok (.writing payload)) := by
  refine ⟨fun message h => ?_, fun payload h => ?_, fun hne htarget hcontrol hwritable hroom text
    htext hvisible => ?_⟩
  · simp only [sendMessage] at h
    split at h
    · cases h
    · split at h
      · cases h
      · split at h
        · cases h
        · exact framed_ne_rangeError _ _ _ h
  · simp only [sendMessage] at h
    split at h
    · cases h
    · split at h
      · cases h
      · split at h
        · cases h
        · exact framed_eq_writing h
  · simp only [sendMessage, hne, htarget, hcontrol, hwritable, htext, if_false, Bool.not_true,
      Bool.or_false, Bool.false_eq_true]
    exact framed_of_visible hroom hvisible

end TheokitGateways.Irc
