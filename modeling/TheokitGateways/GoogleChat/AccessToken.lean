import TheokitGateways.Js.Any
import TheokitGateways.Js.Convert
import TheokitGateways.Js.Rounding
import TheokitGateways.Refresh
import TheokitGateways.Transition

/-!
# Google Chat: access tokens

A token is held until a minute before it expires. A call that finds none starts an
exchange, or shares the one in flight. Times are readings of a clock that never
goes back; what the token endpoint answers is given.
-/

namespace TheokitGateways.GoogleChat
open Js Refresh Transition

def refreshMarginMs : JsNumber := 60000

/-! ## One exchange -/

/-- What an exchange failed with. -/
inductive ExchangeError where
  /-- An `AccessTokenError`. -/
  | accessToken (message : JsString)
  | threw (error : JsAny)

/-- What asking the token endpoint came to. -/
inductive Exchanged where
  | rejected (error : JsAny)
  /-- An answer, whose body is `none` when it is no JSON. -/
  | answered (ok : Bool) (status : Nat) (answer : Option Json)
  /-- Signing the assertion threw, or looking at the response. -/
  | threw (error : JsAny)

/-- A token, for how many seconds, and when its answer had been read. -/
structure Grant where
  token : JsString
  expiresIn : JsNumber
  grantedAt : Rat

structure HeldToken where
  token : JsString
  expiresAt : JsNumber

def Grant.expiresAt (g : Grant) : JsNumber := .finite g.grantedAt + g.expiresIn * 1000

def Grant.held (g : Grant) : HeldToken := ⟨g.token, g.expiresAt⟩

def describe (err : JsAny) : Except JsAny JsString := do
  if ← err.instanceOfError then
    let name ← (← err.read (js "name")).interpolate
    let message ← (← err.read (js "message")).interpolate
    return name ++ js ": " ++ message
  else err.toStr

/-- A member of an answer that may be missing. -/
def answerMember (answer : Option Json) (key : JsString) : Option Json :=
  answer.bind (·.get key)

def exchange (exchanged : Exchanged) (now : Rat) : Except ExchangeError Grant :=
  match exchanged with
  | .threw error => .error (.threw error)
  | .rejected error =>
    match describe error with
    | .ok described => .error (.accessToken (js "token request failed: " ++ described))
    | .error thrown => .error (.threw thrown)
  | .answered ok status answer =>
    match ok, answerMember answer (js "access_token") with
    | true, some (.string token) =>
      let lifetimeS := match answerMember answer (js "expires_in") with
        | some (.number n) => n
        | _ => 0
      .ok ⟨token, lifetimeS, now⟩
    | _, _ =>
      let why := match answerMember answer (js "error") with
        | some (.string error) => js ": " ++ error
        | _ => []
      .error (.accessToken (js "token endpoint answered HTTP " ++ natText status ++ why))

/-! ## The client -/

/-- A token that a call resolved with, when the client takes it to expire, and when it was
handed out. -/
structure HandedOut where
  token : JsString
  expiresAt : JsNumber
  handedAt : Rat

/-- A call of `token()`. -/
structure TokenCall where
  /-- How many exchanges had settled when it was made. -/
  settledBefore : Nat
  /-- The number of the exchange it waits for. -/
  waits : Option Nat := none
  answer : Option (Except ExchangeError HandedOut) := none

/-- A call that waits for an exchange resolves or rejects with it. -/
def TokenCall.settle (c : TokenCall) (pending : Option Nat) (outcome : Except ExchangeError Grant)
    (now : Rat) : TokenCall :=
  if c.waits = pending then
    { c with answer := some (outcome.map fun grant => ⟨grant.token, grant.expiresAt, now⟩) }
  else c

structure AccessTokenClient where
  held : Option HeldToken := none
  /-- The number of the exchange that calls share. -/
  pending : Option Nat := none
  history : History ExchangeError Grant := []
  calls : List TokenCall := []
  /-- The latest reading of the clock. -/
  clock : Rat := 0

inductive TokenAction where
  /-- A call reads the clock, and reads it again if it starts an exchange. -/
  | token (now startedAt : Rat)
  /-- The exchange in flight comes to something. -/
  | complete (exchanged : Exchanged) (now : Rat)
  /-- The promise that calls share settles. -/
  | settle (now : Rat)

/-- A time the clock can show: a number, and not before the latest reading. -/
def Readable (clock now : Rat) : Prop := clock ≤ now ∧ JsNumber.round now = .finite now

instance (clock now : Rat) : Decidable (Readable clock now) :=
  inferInstanceAs (Decidable (clock ≤ now ∧ JsNumber.round now = .finite now))

namespace AccessTokenClient

/-- How many exchanges have settled. -/
def settled (s : AccessTokenClient) : Nat :=
  if s.history.inFlight then s.history.length - 1 else s.history.length

/-- The held token, when it has more than a minute. -/
def freshToken (s : AccessTokenClient) (now : Rat) : Option HeldToken :=
  s.held.filter fun held => JsNumber.lt (.finite now) (held.expiresAt - refreshMarginMs)

/-- The exchange in flight, or a new one. -/
def share (s : AccessTokenClient) (startedAt : Rat) : AccessTokenClient :=
  if s.pending.isSome then s
  else
    { s with
      pending := some (s.history.length + 1)
      history := s.history.start startedAt
      clock := startedAt }

def token (s : AccessTokenClient) (now startedAt : Rat) : AccessTokenClient :=
  let settledBefore := s.settled
  match s.freshToken now with
  | some held =>
    { s with
      calls := s.calls ++
        [{ settledBefore, answer := some (.ok ⟨held.token, held.expiresAt, now⟩) }] }
  | none =>
    let s := s.share startedAt
    { s with calls := s.calls ++ [{ settledBefore, waits := s.pending }] }

def complete (s : AccessTokenClient) (outcome : Except ExchangeError Grant) : AccessTokenClient :=
  match outcome with
  | .ok grant => { s with held := some grant.held, history := s.history.complete (.ok grant) }
  | .error err => { s with history := s.history.complete (.error err) }

/-- What the exchange in flight came to. -/
def outcome (s : AccessTokenClient) : Option (Except ExchangeError Grant) :=
  s.history.head?.bind (·.outcome)

def settle (s : AccessTokenClient) (outcome : Except ExchangeError Grant) (now : Rat) :
    AccessTokenClient :=
  { s with
    pending := none
    history := s.history.finish now
    calls := s.calls.map (TokenCall.settle · s.pending outcome now) }

def step (s : AccessTokenClient) : TokenAction → Option AccessTokenClient
  | .token now startedAt =>
    if Readable s.clock now ∧ Readable now startedAt then
      some ({ s with clock := now }.token now startedAt)
    else none
  | .complete exchanged now =>
    if s.pending.isSome = true ∧ s.history.isComplete = false ∧ Readable s.clock now then
      some ({ s with clock := now }.complete (exchange exchanged now))
    else none
  | .settle now =>
    match s.outcome with
    | some outcome =>
      if s.pending.isSome = true ∧ Readable s.clock now then
        some ({ s with clock := now }.settle outcome now)
      else none
    | none => none

end AccessTokenClient
end TheokitGateways.GoogleChat
