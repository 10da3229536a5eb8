import TheokitGateways.Js.Convert
import TheokitGateways.Js.OrderedMap
import TheokitGateways.Refresh
import TheokitGateways.Teams.ActivityVerifier
import TheokitGateways.Transition

/-!
# Teams: the published key sets

A key set is read over the network at most once at a time, and lookups are
answered from the copy of the latest read that succeeded, or wait for the read in
flight. Times are readings of a clock that never goes back. `createPublicKey` and
the type it finds of a key are given.
-/

namespace TheokitGateways.Teams
open Js Refresh

def keySetReadIntervalMs : Rat := 10000
def keySetMaxAgeMs : Rat := 3600000
def keySetReadTimeoutMs : Nat := 10000
def maxKeySetBytes : Nat := 8388608
def maxKeysPerSet : Nat := 1000

/-! ## One read -/

/-- An error of the platform. -/
inductive Thrown where
  | error (name : JsString) (code : Option JsString) (cause : Option Thrown)

namespace Thrown

def name : Thrown → JsString
  | .error name .. => name

def code : Thrown → Option JsString
  | .error _ code _ => code

def cause : Thrown → Option Thrown
  | .error _ _ cause => cause

def toAny : Thrown → JsAny
  | .error name code _ => .ofMembers .plain true
    [(js "name", .string name), (js "code", (code.map JsAny.string).getD .undefined)] name

/-- What `errorKind` says of it. -/
def kind (error : Thrown) : JsString :=
  let kind := if isIdentifier error.name then error.name else js "an unnamed error"
  match error.code.filter (isIdentifier ·) with
  | some code => kind ++ js " " ++ code
  | none => kind

theorem errorKind_toAny (error : Thrown) : errorKind error.toAny = .ok error.kind := by
  obtain ⟨name, code, cause⟩ := error
  have hname : (toAny (.error name code cause)).read (js "name") = .ok (.string name) := rfl
  have hcode : (toAny (.error name code cause)).read (js "code") =
      .ok ((code.map JsAny.string).getD .undefined) := rfl
  have hstring : ((code.map JsAny.string).getD .undefined).asString = code := by
    cases code <;> rfl
  have hnamed : (JsAny.string name).asString = some name := rfl
  have hkind : ((some name).filter (isIdentifier ·)).getD (js "an unnamed error") =
      if isIdentifier name then name else js "an unnamed error" := by
    cases hi : isIdentifier name <;> simp [hi, Option.filter]
  have hobject : (toAny (.error name code cause)).typeOf = js "object" := rfl
  unfold errorKind
  rw [if_neg (by rw [hobject]; simp)]
  split
  · contradiction
  · rw [hname, hcode]
    simp only [bind, Except.bind, pure, Except.pure, hstring, hnamed, hkind, kind]
    rfl

end Thrown

def requestFailure (error : Thrown) : JsString :=
  if error.name = js "TimeoutError" then
    js "no answer within " ++ natText (keySetReadTimeoutMs / 1000) ++ js " s"
  else js "the request failed (" ++ (error.cause.getD error).kind ++ js ")"

/-- A body: its chunks, and what reading on after them throws if it does. -/
structure BodyStream where
  chunks : List (List UInt8)
  failure : Option Thrown := none

/-- `none` once the stream passes `maxBytes`. -/
def readBoundedStream (maxBytes : Nat) (failure : Option Thrown) (bytes : List UInt8) :
    List (List UInt8) → Except Thrown (Option JsString)
  | [] => match failure with
    | some error => .error error
    | none => .ok (some (textDecode bytes))
  | chunk :: chunks =>
    if maxBytes < (bytes ++ chunk).length then .ok none
    else readBoundedStream maxBytes failure (bytes ++ chunk) chunks

structure Response where
  ok : Bool
  status : Nat
  body : Option BodyStream

/-- What asking for a key set came to. -/
inductive Fetched where
  | rejected (error : Thrown)
  | response (response : Response)
  /-- Looking at the response threw. -/
  | threw (error : Thrown)

def readKeySetText (body : Option BodyStream) : Except JsString JsString :=
  match body with
  | none => .ok []
  | some body =>
    match readBoundedStream maxKeySetBytes body.failure [] body.chunks with
    | .ok (some text) => .ok text
    | .ok none => .error (js "the document is over " ++ natText maxKeySetBytes ++ js " bytes")
    | .error error => .error (requestFailure error)

def keySetUnavailableMessage (label url : JsString) (failure : Option JsString) : JsString :=
  js "the published signing keys could not be read (" ++ label ++ js " key set at " ++ url ++
    (failure.elim [] (js ": " ++ ·)) ++
    js "), so the token's signature could not be checked; a retry may succeed"

section
variable {Key : Type}
-- `createPublicKey`, `none` when it throws, and the `asymmetricKeyType` of a key.
variable (createPublicKey : Json → Option Key) (asymmetricKeyType : Key → JsString)

abbrev Keys (Key : Type) := OrderedMap JsString (PublishedKey Key)

def endorsementsOf (entry : Json) : Option (List JsString) :=
  match entry.get (js "endorsements") with
  | some (.array endorsements) => some (endorsements.filterMap Json.asString)
  | _ => none

def rsaPublicKey (entry : Json) : Option (JsString × PublishedKey Key) := do
  let kid ← optString (entry.get (js "kid"))
  if kid = [] then none
  else
    let publicKey ← createPublicKey entry
    if asymmetricKeyType publicKey = js "rsa" then some (kid, ⟨publicKey, endorsementsOf entry⟩)
    else none

def publishedKeys (document : Json) : Except JsString (Keys Key) :=
  match document.get (js "keys") with
  | some (.array entries) =>
    if maxKeysPerSet < entries.length then
      .error (js "the document lists more than " ++ natText maxKeysPerSet ++ js " keys")
    else
      let found := (entries.filterMap (rsaPublicKey createPublicKey asymmetricKeyType)).foldl
        (fun (found : Keys Key) usable => found.set usable.1 usable.2) .empty
      if found.size = 0 then .error (js "the document lists no usable RSA key") else .ok found
  | _ => .error (js "the document has no keys array")

/-- The key set, or why it could not be had; `none` when it throws. -/
def readKeySet : Fetched → Except Thrown (Except JsString (Keys Key))
  | .rejected error => .ok (.error (requestFailure error))
  | .threw error => .error error
  | .response response =>
    if !response.ok then .ok (.error (js "HTTP " ++ natText response.status))
    else
      match readKeySetText response.body with
      | .error failed => .ok (.error failed)
      | .ok text =>
        match jsonParse text with
        | some document => .ok (publishedKeys createPublicKey asymmetricKeyType document)
        | none => .ok (.error (js "the document is not JSON"))

/-- What `read` keeps of a read: one that threw is a failure too. -/
def outcomeOf (fetched : Fetched) : Except JsString (Keys Key) :=
  match readKeySet createPublicKey asymmetricKeyType fetched with
  | .ok outcome => outcome
  | .error error => .error (js "the read threw (" ++ error.kind ++ js ")")

/-! ## The key set -/

/-- A call of `lookup`. -/
structure Lookup (Key : Type) where
  kid : JsString
  /-- The number of the read it waits for. -/
  waits : Option Nat := none
  answer : Option (KeyLookup Key) := none

structure KeySet (Key : Type) where
  label : JsString
  url : JsString
  held : Option (Keys Key) := none
  /-- `none` is before all time. -/
  readAt : Option Rat := none
  nextReadAt : Option Rat := none
  lastFailure : Option JsString := none
  /-- The number of the read in flight. -/
  reading : Option Nat := none
  lookups : List (Lookup Key) := []
  history : History JsString (Keys Key) := []
  /-- The latest reading of the clock. -/
  clock : Option Rat := none

inductive KeySetAction where
  | lookup (kid : JsString) (now : Rat)
  /-- The read in flight comes to something. -/
  | complete (fetched : Fetched) (now : Rat)
  /-- The read in flight ends. -/
  | finish (now : Rat)
  /-- A lookup goes on after the read it waits for. -/
  | resume (i : Nat)

/-- The reading of the clock that an action takes. -/
def KeySetAction.now : KeySetAction → Option Rat
  | .lookup _ now | .complete _ now | .finish now => some now
  | .resume _ => none

namespace KeySet

/-- `currentRead`: a read is started when none is in flight and the interval allows one. -/
def currentRead (s : KeySet Key) (now : Rat) : KeySet Key :=
  if s.reading.isNone && reached s.nextReadAt now then
    { s with history := s.history.start now, reading := some (s.history.length + 1) }
  else s

def unavailable (s : KeySet Key) : KeyLookup Key :=
  .unavailable (keySetUnavailableMessage s.label s.url s.lastFailure)

/-- The answer of a lookup that has waited. -/
def answer (s : KeySet Key) (kid : JsString) : KeyLookup Key :=
  match s.held.bind (·.get kid) with
  | some found => .listed found
  | none => if s.held.isNone || s.lastFailure.isSome then s.unavailable else .unlisted

/-- `lookup` up to its first await. -/
def lookup (s : KeySet Key) (kid : JsString) (now : Rat) : KeySet Key :=
  match s.held.bind (·.get kid) with
  | some listed =>
    let s := if reached (s.readAt.map (· + keySetMaxAgeMs)) now then s.currentRead now else s
    { s with lookups := s.lookups ++ [{ kid := kid, answer := some (.listed listed) }] }
  | none =>
    let s := s.currentRead now
    { s with lookups := s.lookups ++ [{ kid := kid, waits := s.reading }] }

/-- The read in flight is kept when it succeeded, or its failure. -/
def complete (s : KeySet Key) (outcome : Except JsString (Keys Key)) (now : Rat) : KeySet Key :=
  match outcome with
  | .ok fresh =>
    { s with
      lastFailure := none
      held := some fresh
      readAt := some now
      history := s.history.complete (.ok fresh) }
  | .error failed =>
    { s with lastFailure := some failed, history := s.history.complete (.error failed) }

def finish (s : KeySet Key) (now : Rat) : KeySet Key :=
  { s with
    nextReadAt := some (now + keySetReadIntervalMs)
    reading := none
    history := s.history.finish now }

/-- The clock is read. -/
def tick (s : KeySet Key) (action : KeySetAction) : KeySet Key :=
  { s with clock := action.now.or s.clock }

def step (s : KeySet Key) (action : KeySetAction) : Option (KeySet Key) :=
  -- The clock does not go back.
  if !action.now.all (reached s.clock) then none
  else
    let s := s.tick action
    match action with
    | .lookup kid now => some (s.lookup kid now)
    | .complete fetched now =>
      if s.reading.isSome && !s.history.isComplete then
        some (s.complete (outcomeOf createPublicKey asymmetricKeyType fetched) now)
      else none
    | .finish now => if s.reading.isSome && s.history.isComplete then some (s.finish now) else none
    | .resume i => do
      let l ← s.lookups[i]?
      if l.answer.isSome || (l.waits.isSome && l.waits = s.reading) then none
      else some { s with
        lookups := s.lookups.set i { l with answer := some (s.answer l.kid) } }

end KeySet
end

end TheokitGateways.Teams
