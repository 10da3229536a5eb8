import TheokitGateways.GoogleChat.VerifyToken
import TheokitGateways.Js.Any
import TheokitGateways.Js.OrderedMap
import TheokitGateways.Records
import TheokitGateways.Refresh
import TheokitGateways.Transition

/-!
# Google Chat: Google's key set

A copy of the key set is kept for as long as the response says, and a lookup that
it does not answer starts a read when none was started in the last minute. Times
are readings of a clock that never goes back, and `createPublicKey` and the type
it finds of a key are given. `Contract` says what every run keeps.
-/

namespace TheokitGateways.GoogleChat
open Js Records Refresh Transition

def unknownKidRefetchFloorMs : Rat := 60000

/-! ## One read -/

structure Response where
  ok : Bool
  status : Nat
  /-- `none` when reading it fails. -/
  body : Option (List UInt8)
  cacheControl : Option JsString

/-- What asking for the key set came to. -/
inductive Fetched where
  /-- The name of the error, when it is one. -/
  | rejected (errorName : Option JsString)
  | response (response : Response)
  /-- Looking at the response threw. -/
  | threw (error : JsAny)

/-- How a read failed: `readKeySet` says why, or it was rejected itself. -/
inductive ReadFailure where
  | reported (failure : JsString)
  | threw (error : JsAny)

/-- The group of `/^\s*max-age=(\d+)/i`. -/
def maxAgeDigits (directive : JsString) : Option JsString :=
  let directive := directive.dropWhile isSpace
  let digits := (directive.drop 8).takeWhile JsonParser.isDigit
  if (directive.take 8).map asciiLower = js "max-age=" ∧ digits ≠ [] then some digits else none

/-- `max-age` of a `Cache-Control` header in ms, or 0 when it declares none. A match of the
pattern begins at the start or after a comma, and holds none. -/
def maxAgeMs (cacheControl : Option JsString) : JsNumber :=
  match ((cacheControl.getD []).splitOn (unit ',')).findSome? maxAgeDigits with
  | some digits => stringToNumber digits * 1000
  | none => 0

example : maxAgeMs (some (js "public, Max-Age=19800, must-revalidate")) = 19800000 := by
  decide +kernel

section
variable {Key : Type}
-- `createPublicKey`, `none` when it throws, and the `asymmetricKeyType` of a key.
variable (createPublicKey : Json → Option Key) (asymmetricKeyType : Key → JsString)

structure Held (Key : Type) where
  keys : OrderedMap JsString Key
  freshUntil : JsNumber

def rsaKey (entry : Json) : Option (JsString × Key) := do
  let kid ← optString (entry.get (js "kid"))
  if kid = [] then none
  else
    let key ← createPublicKey entry
    if asymmetricKeyType key = js "rsa" then some (kid, key) else none

def rsaKeys (document : Json) : OrderedMap JsString Key :=
  match document.get (js "keys") with
  | some (.array entries) =>
    (entries.filterMap (rsaKey createPublicKey asymmetricKeyType)).foldl
      (fun (keys : OrderedMap JsString Key) usable => keys.set usable.1 usable.2) .empty
  | _ => .empty

def readKeySet (fetched : Fetched) (now : Rat) : Except ReadFailure (Held Key) :=
  match fetched with
  | .rejected errorName => .error (.reported
    (js "the request failed (" ++ errorName.getD (js "unknown error") ++ js ")"))
  | .threw error => .error (.threw error)
  | .response response =>
    if !response.ok then .error (.reported (js "HTTP " ++ natText response.status))
    else
      match response.body.bind fun bytes => jsonParse (textDecode bytes) with
      | none => .error (.reported (js "the document is not JSON"))
      | some document =>
        let keys := rsaKeys createPublicKey asymmetricKeyType document
        if keys.size = 0 then .error (.reported (js "the document lists no usable RSA key"))
        else .ok ⟨keys, .finite now + maxAgeMs response.cacheControl⟩

/-! ## The key set -/

/-- A call of `forKid`; it is rejected with an error other than `KeySetUnavailableError` when the
read it waits for is. -/
structure Lookup (Key : Type) where
  kid : JsString
  /-- The number of the read it waits for. -/
  waits : Option Nat := none
  answer : Option (Except JsAny (KeyLookup Key)) := none

structure KeySet (Key : Type) where
  url : JsString
  held : Option (Held Key) := none
  /-- `none` is before all time. -/
  lastReadStartedAt : Option Rat := none
  /-- The number of the read in flight. -/
  reading : Option Nat := none
  lastFailure : JsString := js "no read has completed"
  lookups : List (Lookup Key) := []
  history : History ReadFailure (Held Key) := []
  /-- The latest reading of the clock. -/
  clock : Option Rat := none

inductive KeySetAction where
  /-- A lookup reads the clock, and reads it again if it starts a read. -/
  | forKid (kid : JsString) (now startedAt : Rat)
  /-- The read in flight comes to something. -/
  | complete (fetched : Fetched) (now : Rat)
  /-- The read in flight ends. -/
  | finish (now : Rat)
  /-- A lookup goes on after the read it waits for. -/
  | resume (i : Nat)

namespace KeySet

/-- The read in flight, or a new one. -/
def read (s : KeySet Key) (now : Rat) : KeySet Key :=
  if s.reading.isSome then s
  else
    { s with
      lastReadStartedAt := some now
      reading := some (s.history.length + 1)
      history := s.history.start now }

/-- The key of a copy that is fresh. -/
def freshKey (s : KeySet Key) (kid : JsString) (now : Rat) : Option Key :=
  (s.held.filter fun held => JsNumber.lt (.finite now) held.freshUntil).bind (·.keys.get kid)

def mayRead (s : KeySet Key) (now : Rat) : Bool :=
  s.lastReadStartedAt.all fun t => unknownKidRefetchFloorMs ≤ now - t

def unavailableMessage (s : KeySet Key) : JsString :=
  js "Google's key set at " ++ s.url ++ js " could not be read: " ++ s.lastFailure

def answer (s : KeySet Key) (kid : JsString) : KeyLookup Key :=
  match s.held with
  | none => .unavailable s.unavailableMessage
  | some held =>
    match held.keys.get kid with
    | some key => .listed key
    | none => .unlisted

/-- `forKid` up to its first await. -/
def forKid (s : KeySet Key) (kid : JsString) (now startedAt : Rat) : KeySet Key :=
  match s.freshKey kid now with
  | some key => { s with lookups := s.lookups ++
    [{ kid := kid, answer := some (.ok (.listed key)) }] }
  | none =>
    if s.mayRead now || s.reading.isSome then
      let s := s.read startedAt
      { s with lookups := s.lookups ++ [{ kid := kid, waits := s.reading }] }
    else { s with lookups := s.lookups ++ [{ kid := kid, answer := some (.ok (s.answer kid)) }] }

/-- The copy that was read is kept, or why there is none. -/
def complete (s : KeySet Key) (outcome : Except ReadFailure (Held Key)) : KeySet Key :=
  match outcome with
  | .ok fresh => { s with held := some fresh, history := s.history.complete (.ok fresh) }
  | .error (.reported failure) =>
    { s with lastFailure := failure, history := s.history.complete (.error (.reported failure)) }
  | .error (.threw error) => { s with history := s.history.complete (.error (.threw error)) }

def finish (s : KeySet Key) (now : Rat) : KeySet Key :=
  { s with reading := none, history := s.history.finish now }

/-- What a read was rejected with. -/
def rejection (s : KeySet Key) (n : Nat) : Option JsAny :=
  match (s.history.numbered n).bind (·.outcome) with
  | some (.error (.threw error)) => some error
  | _ => none

/-- What a lookup comes to after the read it waits for. -/
def settle (s : KeySet Key) (l : Lookup Key) : Except JsAny (KeyLookup Key) :=
  match l.waits.bind s.rejection with
  | some error => .error error
  | none => .ok (s.answer l.kid)

def step (s : KeySet Key) : KeySetAction → Option (KeySet Key)
  | .forKid kid now startedAt =>
    if reached s.clock now ∧ now ≤ startedAt then
      some ({ s with clock := some startedAt }.forKid kid now startedAt)
    else none
  | .complete fetched now =>
    if s.reading.isSome && !s.history.isComplete then
      some (s.complete (readKeySet createPublicKey asymmetricKeyType fetched now))
    else none
  | .finish now =>
    if reached s.clock now && (s.reading.isSome && s.history.isComplete) then
      some ({ s with clock := some now }.finish now)
    else none
  | .resume i => do
    let l ← s.lookups[i]?
    if l.answer.isSome || (l.waits.isSome && l.waits = s.reading) then none
    else some { s with lookups := s.lookups.set i { l with answer := some (s.settle l) } }

end KeySet
end
end TheokitGateways.GoogleChat
