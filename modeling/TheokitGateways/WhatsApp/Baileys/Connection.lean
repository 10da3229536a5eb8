import TheokitGateways.Gateway.Adapter
import TheokitGateways.Transition
import TheokitGateways.WhatsApp.InboundRules

/-!
# The connection of the Baileys backend

An attempt waits for the factory to make its socket, then for the socket to open,
to close or to take too long, and each time goes on in a step of its own: sockets
report and the application calls in between. The attempt that was started or
ended last has the current generation, and the listeners of the others do nothing.
A socket is named by the attempt it was made for.
-/

namespace TheokitGateways.WhatsApp.Baileys
open Js Gateway

/-- A socket: what it can be asked, what it has reported, and whether it was ended. -/
structure Socket where
  onWhatsApp : Bool
  opened : Bool := false
  closed : Bool := false
  ended : Bool := false

/-- Where an attempt is. -/
inductive Stage where
  /-- The factory is working. -/
  | building
  /-- The socket is there, and the attempt has not gone on. -/
  | made
  /-- Racing for `open`, with how the race ended if it has. -/
  | opening (opened : Option Bool)
  | settled (answer : Except JsAny Bool)

def Stage.isPending : Stage → Bool
  | .settled _ => false
  | _ => true

structure Attempt where
  generation : Nat
  stage : Stage := .building
  socket : Option Socket := none
  /-- The listeners are attached to the socket. -/
  listening : Bool := false

inductive PairingStatus where
  | idle | awaitingScan | connected | closed
  deriving DecidableEq

structure PairingState where
  status : PairingStatus
  qr : Option JsString := none
  qrAt : Option JsNumber := none

/-- What a socket reports of itself. -/
inductive Update where
  | opened
  | closed (error : JsAny)

/-- Who a socket logged in as. -/
structure User where
  id : Option JsString := none
  lid : Option JsString := none

structure Connection where
  /-- The attempt whose socket was adopted. -/
  socket : Option Nat := none
  connected : Bool := false
  connecting : Option Nat := none
  generation : Nat := 0
  lastCloseError : JsAny := .undefined
  pairing : PairingState := ⟨.idle, none, none⟩
  selfJids : List JsString := []
  attempts : List Attempt := []

inductive ConnectionAction where
  | connect
  | disconnect
  /-- The factory makes a socket or fails. -/
  | build (k : Nat) (built : Except JsAny Bool)
  /-- The attempt goes on with its socket. -/
  | subscribe (k : Nat)
  | update (k : Nat) (update : Update)
  | timeout (k : Nat)
  /-- The attempt goes on after its race. -/
  | resume (k : Nat) (user : User)
  /-- The call that started the attempt goes on. -/
  | finish (k : Nat)
  | qr (k : Nat) (code : JsString) (now : JsNumber)

namespace Attempt

/-- `endQuietly`. -/
def endQuietly (a : Attempt) : Attempt :=
  { a with socket := a.socket.map fun s => { s with ended := true } }

/-- The race ends, unless it has. -/
def settle (ok : Bool) (a : Attempt) : Attempt :=
  match a.stage with
  | .opening none => { a with stage := .opening (some ok) }
  | _ => a

/-- The socket has reported. -/
def report (update : Update) (a : Attempt) : Attempt :=
  { a with socket := a.socket.map fun s =>
      match update with
      | .opened => { s with opened := true }
      | .closed _ => { s with closed := true } }

end Attempt

namespace Connection

def isCurrent (c : Connection) (k : Nat) : Bool :=
  c.attempts[k]?.any (·.generation = c.generation)

def modify (c : Connection) (k : Nat) (f : Attempt → Attempt) : Connection :=
  { c with attempts := c.attempts.modify k f }

/-- `connect()` up to its first await. -/
def connect (c : Connection) : Connection :=
  if c.connected || c.connecting.isSome then c
  else
    { c with
      generation := c.generation + 1
      connecting := some c.attempts.length
      attempts := c.attempts ++ [{ generation := c.generation + 1 }] }

/-- The socket that was adopted is ended. -/
def endSocket (c : Connection) : Connection :=
  match c.socket with
  | some k => c.modify k .endQuietly
  | none => c

def disconnect (c : Connection) : Connection :=
  { c.endSocket with
    generation := c.generation + 1
    connected := false
    connecting := none
    socket := none
    attempts := c.endSocket.attempts.map (.settle false) }

/-- The attempt after its factory: superseded it ends its socket, else it listens to it. -/
def subscribe (c : Connection) (k : Nat) : Connection :=
  if c.isCurrent k then
    c.modify k fun a => { a with listening := true, stage := .opening none }
  else c.modify k fun a => { a.endQuietly with stage := .settled (.ok false) }

/-- The listeners of a socket that has reported. -/
def update (c : Connection) (k : Nat) : Update → Connection
  | .opened => { c.modify k (.settle true) with pairing := ⟨.connected, none, none⟩ }
  | .closed error =>
    { c.modify k fun a => a.endQuietly.settle false with
      lastCloseError := error
      connected := false
      pairing := ⟨.closed, none, none⟩
      socket := if c.socket = some k then none else c.socket }

/-- What a failed attempt prints of the last close. -/
def reportConnectFailure (lastCloseError : JsAny) : Except JsAny Unit :=
  match lastCloseError with
  | .undefined => .ok ()
  | error => (thrownText error).map fun _ => ()

/-- The ids a socket is known by. -/
def learnSelfJids (user : User) : List JsString :=
  (([user.id, user.lid].filterMap id).filter (· ≠ [])).map normalizeWhatsAppId |>.filter (· ≠ [])

/-- The attempt has failed, and says why: saying so can throw. -/
def giveUp (c : Connection) (k : Nat) : Connection :=
  match reportConnectFailure c.lastCloseError with
  | .error err => c.modify k fun a => { a with stage := .settled (.error err) }
  | .ok () =>
    { c.modify k fun a => { a.endQuietly with stage := .settled (.ok false) } with
      generation := c.generation + 1
      socket := none
      connected := false }

/-- The socket of the attempt is adopted; another that is still there is ended. -/
def adopt (c : Connection) (k : Nat) (user : User) : Connection :=
  { (if c.socket = some k then c else c.endSocket).modify k
      fun a => { a with stage := .settled (.ok true) } with
    socket := some k
    selfJids := learnSelfJids user
    connected := true }

/-- The attempt after its race. -/
def resume (c : Connection) (k : Nat) (ok : Bool) (user : User) : Connection :=
  if !c.isCurrent k then c.modify k fun a => { a.endQuietly with stage := .settled (.ok false) }
  else if !ok then c.giveUp k
  else c.adopt k user

def step (c : Connection) : ConnectionAction → Option Connection
  | .connect => some c.connect
  | .disconnect => some c.disconnect
  | .build k built => do
    let .building := (← c.attempts[k]?).stage | none
    match built with
    | .ok onWhatsApp =>
      some (c.modify k fun a => { a with stage := .made, socket := some { onWhatsApp } })
    | .error err => some (c.modify k fun a => { a with stage := .settled (.error err) })
  | .subscribe k => do
    let .made := (← c.attempts[k]?).stage | none
    some (c.subscribe k)
  | .update k update => do
    let a ← c.attempts[k]?
    let _ ← a.socket
    let reported := c.modify k (.report update)
    some (if a.listening && c.isCurrent k then reported.update k update else reported)
  | .timeout k => do
    let .opening _ := (← c.attempts[k]?).stage | none
    some (c.modify k (.settle false))
  | .resume k user => do
    let .opening (some ok) := (← c.attempts[k]?).stage | none
    some (c.resume k ok user)
  | .finish k => do
    let .settled _ := (← c.attempts[k]?).stage | none
    some (if c.connecting = some k then { c with connecting := none } else c)
  | .qr k code now => do
    let _ ← c.attempts[k]?
    some { c with pairing := ⟨.awaitingScan, some code, some now⟩ }

/-- What an action does, with the attempt it takes up. -/
inductive Steps (c : Connection) : ConnectionAction → Connection → Prop where
  | connect : Steps c .connect c.connect
  | disconnect : Steps c .disconnect c.disconnect
  | built {k : Nat} {a : Attempt} (ha : c.attempts[k]? = some a) (hstage : a.stage = .building)
    (onWhatsApp : Bool) :
    Steps c (.build k (.ok onWhatsApp))
      (c.modify k fun a => { a with stage := .made, socket := some { onWhatsApp } })
  | failed {k : Nat} {a : Attempt} (ha : c.attempts[k]? = some a) (hstage : a.stage = .building)
    (err : JsAny) :
    Steps c (.build k (.error err)) (c.modify k fun a => { a with stage := .settled (.error err) })
  | subscribe {k : Nat} {a : Attempt} (ha : c.attempts[k]? = some a) (hstage : a.stage = .made) :
    Steps c (.subscribe k) (c.subscribe k)
  | update {k : Nat} {a : Attempt} {s : Socket} (ha : c.attempts[k]? = some a)
    (hsocket : a.socket = some s) (update : Update) :
    Steps c (.update k update)
      (if a.listening && c.isCurrent k then (c.modify k (.report update)).update k update
      else c.modify k (.report update))
  | timeout (k : Nat) : Steps c (.timeout k) (c.modify k (.settle false))
  | resume {k : Nat} {a : Attempt} {ok : Bool} (ha : c.attempts[k]? = some a)
    (hstage : a.stage = .opening (some ok)) (user : User) :
    Steps c (.resume k user) (c.resume k ok user)
  | finish (k : Nat) :
    Steps c (.finish k) (if c.connecting = some k then { c with connecting := none } else c)
  | qr (k : Nat) (code : JsString) (now : JsNumber) :
    Steps c (.qr k code now) { c with pairing := ⟨.awaitingScan, some code, some now⟩ }

theorem steps_of_step {c c' : Connection} {action : ConnectionAction}
    (hstep : c.step action = some c') : Steps c action c' := by
  cases action with
  | build k built =>
    obtain ⟨a, ha, hstep⟩ := Option.bind_eq_some_iff.1 hstep
    split at hstep
    · split at hstep
      · cases hstep
        exact .built ha ‹_› _
      · cases hstep
        exact .failed ha ‹_› _
    · cases hstep
  | subscribe k =>
    obtain ⟨a, ha, hstep⟩ := Option.bind_eq_some_iff.1 hstep
    split at hstep
    · cases hstep
      exact .subscribe ha ‹_›
    · cases hstep
  | update k update =>
    obtain ⟨a, ha, hstep⟩ := Option.bind_eq_some_iff.1 hstep
    obtain ⟨s, hsocket, hstep⟩ := Option.bind_eq_some_iff.1 hstep
    cases hstep
    exact .update ha hsocket update
  | timeout k =>
    obtain ⟨a, _, hstep⟩ := Option.bind_eq_some_iff.1 hstep
    split at hstep
    · cases hstep
      exact .timeout k
    · cases hstep
  | resume k user =>
    obtain ⟨a, ha, hstep⟩ := Option.bind_eq_some_iff.1 hstep
    split at hstep
    · cases hstep
      exact .resume ha ‹_› user
    · cases hstep
  | finish k =>
    obtain ⟨a, _, hstep⟩ := Option.bind_eq_some_iff.1 hstep
    split at hstep
    · cases hstep
      exact .finish k
    · cases hstep
  | qr k code now =>
    obtain ⟨a, _, hstep⟩ := Option.bind_eq_some_iff.1 hstep
    cases hstep
    exact .qr k code now
  | connect | disconnect =>
    cases hstep
    constructor

end Connection

end TheokitGateways.WhatsApp.Baileys
