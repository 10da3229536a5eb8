import TheokitGateways.History
import TheokitGateways.Irc.Normalize
import TheokitGateways.Irc.Registration
import TheokitGateways.Irc.Split
import TheokitGateways.Transition

/-!
# The IRC adapter and its sockets

Each attempt to connect opens a socket with listeners of its own, and both are
told apart by the attempt's place in `attempts`. A step is a call that the
application makes, or something a socket or a timer does; the lines of a chunk
are taken one step each, so that what a handler calls comes between them. A
socket emits its events from the event loop, never inside a call on it. `log`
records, latest first, what the adapter did that can be seen from outside.
-/

namespace TheokitGateways.Irc
open Js Gateway History

/-- The options the connection reads. -/
structure IrcAdapterOptions where
  nick : JsString
  username : Option JsString := none
  realname : Option JsString := none
  password : Option JsString := none
  saslAccount : Option JsString := none
  saslPassword : Option JsString := none
  channels : List JsString := []
  connectTimeoutMs : Option JsNumber := none

/-- Handlers are told apart by identity, as the unsubscribe function does. -/
abbrev Handler := Nat

/-- A socket, with the registration and the attempt its listeners hold. -/
structure Session where
  registration : Registration
  settled : Bool := false
  buffered : JsString := []
  destroyed : Bool := false
  /-- The socket has emitted its close. -/
  closed : Bool := false

inductive Effect where
  | opened (k : Nat)
  /-- `disconnect` gave the socket up. -/
  | disconnected (k : Nat)
  /-- The adapter let the socket go: it closed, or its attempt failed. -/
  | released (k : Nat)
  | wrote (k : Nat) (line : JsString)
  | stderr (text : JsString)
  | answered (k : Nat) (ok : Bool)
  /-- A line from the socket changed the recorded nick. -/
  | renamed (k : Nat) (nick : JsString)
  /-- A line from the socket reached the inbound handler. -/
  | handed (k : Nat) (handler : Handler) (event : IrcMessageEvent)

namespace Effect

def opens (k : Nat) : Effect → Bool
  | opened j => j = k
  | _ => false

def closes (k : Nat) : Effect → Bool
  | disconnected j | released j => j = k
  | _ => false

/-- The socket whose line did it. -/
def ofLine : Effect → Option Nat
  | renamed k _ | handed k _ _ => some k
  | _ => none

end Effect

/-- The adapter, its attempts and what was seen of it. -/
structure IrcAdapter where
  /-- `none` where the factory threw. -/
  attempts : List (Option Session) := []
  socket : Option Nat := none
  nick : JsString
  handler : Option Handler := none
  connected : Bool := false
  /-- The attempt whose promise is in the slot. -/
  connecting : Option Nat := none
  received : Nat := 0
  log : List Effect := []

namespace IrcAdapter

def session (a : IrcAdapter) (k : Nat) : Option Session := a.attempts[k]?.join

def setSession (a : IrcAdapter) (k : Nat) (s : Session) : IrcAdapter :=
  { a with attempts := a.attempts.set k (some s) }

def record (a : IrcAdapter) (e : Effect) : IrcAdapter := { a with log := e :: a.log }

/-- `writeLine` on the socket, for each line. -/
def write (a : IrcAdapter) (k : Nat) (lines : List JsString) : IrcAdapter :=
  { a with log := (lines.map (.wrote k)).reverse ++ a.log }

/-- Records the nick, seen when it is another one. -/
def rename (a : IrcAdapter) (k : Nat) (nick : JsString) : IrcAdapter :=
  if nick = a.nick then a else { a with nick := nick, log := .renamed k nick :: a.log }

def complain (a : IrcAdapter) (text : JsString) : IrcAdapter :=
  a.record (.stderr (js "[gateway-irc] " ++ text ++ js "\n"))

def onInbound (a : IrcAdapter) (handler : Handler) : IrcAdapter :=
  { a with handler := some handler }

/-- What `onInbound` returned for a handler. -/
def unsubscribe (a : IrcAdapter) (handler : Handler) : IrcAdapter :=
  if a.handler = some handler then { a with handler := none } else a

def isDestroyed (a : IrcAdapter) (k : Nat) : Bool := (a.session k).any (·.destroyed)

def disconnect (a : IrcAdapter) : IrcAdapter :=
  match a.socket with
  | none => { a with connected := false, connecting := none }
  | some k =>
    let after :=
      { a with
        socket := none, connected := false, connecting := none, log := .disconnected k :: a.log }
    if a.isDestroyed k then after else after.write k [js "QUIT :disconnecting"]

/-- Lets the socket go if it is the one held. -/
def letGo (a : IrcAdapter) (k : Nat) : IrcAdapter :=
  if a.socket = some k then { a with socket := none, log := .released k :: a.log } else a

/-- Keep the socket on success; otherwise log the reason, end the socket and answer `false`. -/
def finishConnect (a : IrcAdapter) (k : Nat) (s : Session) (ok : Bool)
    (reason : Option JsString) : IrcAdapter :=
  if ok ∧ a.socket = some k then
    ({ a with connected := true }.rename k s.registration.nick).record (.answered k true)
  else
    let why :=
      if ok then some (js "disconnect() was called before registration finished") else reason
    let a := (a.complain (js "connect failed: " ++ why.getD (js "unknown"))).letGo k
    (a.setSession k { s with destroyed := true }).record (.answered k false)

/-- `ConnectAttempt.settle`. -/
def settle (a : IrcAdapter) (k : Nat) (s : Session) (ok : Bool) (reason : Option JsString) :
    IrcAdapter :=
  if s.settled then a
  else
    let s := { s with settled := true }
    (a.setSession k s).finishConnect k s ok reason

def onClose (a : IrcAdapter) (k : Nat) (s : Session) : IrcAdapter :=
  if !s.settled then a.settle k s false (some (js "the server closed the connection"))
  else if a.socket ≠ some k then a
  else
    { (a.complain (js "the connection closed")).letGo k with connected := false }

def onError (a : IrcAdapter) (k : Nat) (s : Session) (message : JsString) : IrcAdapter :=
  if s.settled then a.complain (js "socket error: " ++ message)
  else a.settle k s false (some (js "socket error: " ++ message))

section
variable (m : CaseMapping)

/-- The line is our own change of nick. -/
def isOwnNick (a : IrcAdapter) (line : IrcLine) : Bool :=
  line.command = js "NICK" ∧ ircLower m (nickOf line.linePrefix) = ircLower m a.nick

/-- A line after registration: follow our own nick changes, and deliver messages. -/
def onLine (a : IrcAdapter) (k : Nat) (line : IrcLine) (raw : JsString) (now : JsNumber) :
    IrcAdapter :=
  if a.isOwnNick m line then a.rename k (line.params[0]?.getD a.nick)
  else if line.command ≠ js "PRIVMSG" then a
  else
    let a := { a with received := a.received + 1 }
    match privmsgToMessageEvent m line raw a.nick now a.received, a.handler with
    | some event, some handler => a.record (.handed k handler event)
    | _, _ => a

variable (opts : IrcAdapterOptions)

def registrationOptions : RegistrationOptions where
  nick := opts.nick
  username := opts.username.getD opts.nick
  realname := opts.realname.getD opts.nick
  password := opts.password
  saslAccount := opts.saslAccount
  saslPassword := opts.saslPassword
  channels := opts.channels

/-- One line from the server: PING at any time, the handshake until it settles, then messages. -/
def onRaw (a : IrcAdapter) (k : Nat) (s : Session) (raw : JsString) (now : JsNumber) :
    IrcAdapter :=
  match parseIrcLine m raw with
  | none => a
  | some line =>
    if line.command = js "PING" then a.write k [js "PONG :" ++ line.param 0]
    else if s.settled then a.onLine m k line raw now
    else
      let progress := s.registration.onLine m (registrationOptions opts) line
      let s := { s with registration := progress.after }
      let a := (a.setSession k s).write k progress.writes
      match progress.outcome with
      | none => a
      | some (.ok _) => a.settle k s true none
      | some (.refused reason) => a.settle k s false (some reason)

/-- A line without the CR at its end. -/
def withoutCr (line : JsString) : JsString :=
  if line.getLast? = some cr then line.dropLast else line

/-- One round of the loop of `readLines`, once the buffer is split at its first line break. -/
def readLine (a : IrcAdapter) (k : Nat) (s : Session) (line rest : JsString) (now : JsNumber) :
    IrcAdapter :=
  let s := { s with buffered := rest }
  let a := a.setSession k s
  if withoutCr line = [] then a else a.onRaw m opts k s (withoutCr line) now

/-- The socket the factory made becomes the one held, and the handshake starts on it. -/
def openSession (a : IrcAdapter) : IrcAdapter :=
  let k := a.attempts.length
  let registration := Registration.new m (registrationOptions opts)
  let session : Session := { registration := registration }
  { a with
    attempts := a.attempts ++ [some session]
    socket := some k
    connecting := some k
    log := .opened k :: a.log }.write k (registration.start (registrationOptions opts))

/-- `connect` with the socket the factory makes, or the message of what it throws. -/
def connect (a : IrcAdapter) (factory : Except JsString Unit) : IrcAdapter :=
  if a.connected || a.connecting.isSome then a
  else
    match factory with
    | .ok () => a.openSession m opts
    | .error message =>
      let k := a.attempts.length
      ({ a with attempts := a.attempts ++ [none], connecting := some k }.complain
        (js "connect failed: could not open the socket: " ++ message)).record (.answered k false)

end

end IrcAdapter

inductive Action where
  | connect (factory : Except JsString Unit)
  | disconnect
  | onInbound (handler : Handler)
  | unsubscribe (handler : Handler)
  /-- The promise of an attempt has settled: its `finally` runs. -/
  | finished (k : Nat)
  | data (k : Nat) (chunk : JsString)
  /-- The next whole line of what a socket has delivered. -/
  | line (k : Nat) (now : JsNumber)
  | error (k : Nat) (message : JsString)
  | close (k : Nat)
  | deadline (k : Nat)
  /-- The runtime, or the timer of `disconnect`, destroys the socket. -/
  | destroy (k : Nat)

section
variable (m : CaseMapping) (opts : IrcAdapterOptions)

/-- What the socket or the timer of an attempt does, `none` when it is not its turn. -/
def IrcAdapter.stepSession (a : IrcAdapter) (k : Nat) (s : Session) : Action → Option IrcAdapter
  | .data _ chunk =>
    if s.closed then none else some (a.setSession k { s with buffered := s.buffered ++ chunk })
  | .line _ now => (cutAt lf s.buffered).map fun (line, rest) => a.readLine m opts k s line rest now
  | .error _ message => if s.closed then none else some (a.onError k s message)
  | .close _ =>
    if s.closed then none
    else
      let s := { s with closed := true, destroyed := true }
      some ((a.setSession k s).onClose k s)
  | .deadline _ =>
    if s.settled then none
    else
      let ms := (opts.connectTimeoutMs.getD (.ofInt 10000)).toStr
      some (a.settle k s false (some (js "no registration within " ++ ms ++ js " ms")))
  | .destroy _ => some (a.setSession k { s with destroyed := true })
  | _ => none

def IrcAdapter.step (a : IrcAdapter) : Action → Option IrcAdapter
  | .connect factory => some (a.connect m opts factory)
  | .disconnect => some a.disconnect
  | .onInbound handler => some (a.onInbound handler)
  | .unsubscribe handler => some (a.unsubscribe handler)
  | .finished k =>
    if a.attempts[k]?.any fun s => s.all (·.settled) then
      some (if a.connecting = some k then { a with connecting := none } else a)
    else none
  | action@(.data k _) | action@(.line k _) | action@(.error k _) | action@(.close k)
  | action@(.deadline k) | action@(.destroy k) =>
    (a.session k).bind fun s => a.stepSession m opts k s action

/-- The adapter as constructed. -/
def IrcAdapter.new : IrcAdapter := { nick := opts.nick }

/-- What an action does, with the session whose socket or timer it comes from. -/
inductive IrcAdapter.Steps (a : IrcAdapter) : Action → IrcAdapter → Prop where
  | connect (factory : Except JsString Unit) : Steps a (.connect factory) (a.connect m opts factory)
  | disconnect : Steps a .disconnect a.disconnect
  | onInbound (handler : Handler) : Steps a (.onInbound handler) (a.onInbound handler)
  | unsubscribe (handler : Handler) : Steps a (.unsubscribe handler) (a.unsubscribe handler)
  | finished {k : Nat} (hdone : a.attempts[k]?.any fun s => s.all (·.settled)) :
    Steps a (.finished k) (if a.connecting = some k then { a with connecting := none } else a)
  | data {k : Nat} {s : Session} (hs : a.session k = some s) (chunk : JsString) :
    Steps a (.data k chunk) (a.setSession k { s with buffered := s.buffered ++ chunk })
  | line {k : Nat} {s : Session} {line rest : JsString} (hs : a.session k = some s)
    (hcut : cutAt lf s.buffered = some (line, rest)) (now : JsNumber) :
    Steps a (.line k now) (a.readLine m opts k s line rest now)
  | error {k : Nat} {s : Session} (hs : a.session k = some s) (message : JsString) :
    Steps a (.error k message) (a.onError k s message)
  | close {k : Nat} {s : Session} (hs : a.session k = some s) :
    Steps a (.close k) ((a.setSession k { s with closed := true, destroyed := true }).onClose k
      { s with closed := true, destroyed := true })
  | deadline {k : Nat} {s : Session} (hs : a.session k = some s) (reason : JsString) :
    Steps a (.deadline k) (a.settle k s false (some reason))
  | destroy {k : Nat} {s : Session} (hs : a.session k = some s) :
    Steps a (.destroy k) (a.setSession k { s with destroyed := true })

variable {m} {opts}

theorem IrcAdapter.steps_of_step {a a' : IrcAdapter} {action : Action}
    (hstep : a.step m opts action = some a') : a.Steps m opts action a' := by
  cases action with
  | finished k =>
    obtain ⟨hdone, hstep⟩ := Option.ite_none_right_eq_some.1 hstep
    cases hstep
    exact .finished hdone
  | data k chunk =>
    obtain ⟨s, hs, hstep⟩ := Option.bind_eq_some_iff.1 hstep
    obtain ⟨_, hstep⟩ := Option.ite_none_left_eq_some.1 hstep
    cases hstep
    exact .data hs chunk
  | line k now =>
    obtain ⟨s, hs, hstep⟩ := Option.bind_eq_some_iff.1 hstep
    obtain ⟨⟨line, rest⟩, hcut, rfl⟩ := Option.map_eq_some_iff.1 hstep
    exact .line hs hcut now
  | error k message =>
    obtain ⟨s, hs, hstep⟩ := Option.bind_eq_some_iff.1 hstep
    obtain ⟨_, hstep⟩ := Option.ite_none_left_eq_some.1 hstep
    cases hstep
    exact .error hs message
  | close k =>
    obtain ⟨s, hs, hstep⟩ := Option.bind_eq_some_iff.1 hstep
    obtain ⟨_, hstep⟩ := Option.ite_none_left_eq_some.1 hstep
    cases hstep
    exact .close hs
  | deadline k =>
    obtain ⟨s, hs, hstep⟩ := Option.bind_eq_some_iff.1 hstep
    obtain ⟨_, hstep⟩ := Option.ite_none_left_eq_some.1 hstep
    cases hstep
    exact .deadline hs _
  | destroy k =>
    obtain ⟨s, hs, hstep⟩ := Option.bind_eq_some_iff.1 hstep
    cases hstep
    exact .destroy hs
  | connect | disconnect | onInbound | unsubscribe =>
    cases hstep
    constructor

end

end TheokitGateways.Irc
