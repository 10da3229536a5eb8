import TheokitGateways.Async.Interference
import TheokitGateways.Js.NumberText

/-!
# The processes of the Web backend

`spawnBridge` starts a bridge and writes its process id into the lock file of the
session, after it has terminated the bridge that the file names, if the process of
that id still is one. `terminateBridge` signals a bridge and removes the file. They
are programs over calls to the system, several of which may be under way, in one
host or in several; between two calls processes start and exit, and the system may
use the id of one that has exited again.
-/

namespace TheokitGateways.WhatsApp.Web
open Js Async Prog

/-- Marker substring our bridge process must carry in its arguments. -/
def bridgeProcessTag : JsString := js "whatsapp-web-bridge"

inductive Signal where
  | sigterm | sigkill

inductive OsCall where
  | mkdir
  | lockExists
  | readLock
  | unlinkLock
  | writeLock (text : JsString)
  /-- `/proc/<pid>/cmdline`. -/
  | readCmdline (pid : JsNumber)
  | ps (pid : JsNumber)
  | kill (pid : JsNumber)
  /-- The answer is the place of the process among all, and its id. -/
  | spawn (argv : List JsString)
  /-- What is asked of a child, by its place among the processes. -/
  | killed (k : Nat)
  | signal (k : Nat) (signal : Signal)
  | waitForExit (k : Nat)

abbrev OsCall.Answer : OsCall → Type
  | .mkdir | .unlinkLock | .writeLock _ | .kill _ | .signal .. => Unit
  | .lockExists | .killed _ | .waitForExit _ => Bool
  | .readLock | .readCmdline _ | .ps _ => JsString
  | .spawn _ => Option (Nat × Nat)

inductive OsError where
  | eacces | enoent | esrch

abbrev OsProg (α : Type) := Prog OsCall OsCall.Answer OsError Empty α

/-! ### The programs -/

/-- What `node` is started with. -/
def bridgeArgv (bridgeScriptPath sessionId : JsString) : List JsString :=
  [js "node", bridgeScriptPath, js "--tag", bridgeProcessTag, js "--session", sessionId]

def pidBelongsToOurBridge (pid : JsNumber) : OsProg Bool :=
  .call (OsCall.readCmdline pid) fun
    | .ok cmdline => .ret (includes bridgeProcessTag cmdline)
    | .error _ => .call (OsCall.ps pid) fun
      | .ok out => .ret (includes bridgeProcessTag out)
      | .error _ => .ret false

/-- Whether a number can be the id of a process. -/
def isPid (pid : JsNumber) : Bool := pid.isFinite && !pid.le (.finite 0)

def killIfOurBridge (stalePid : JsNumber) : OsProg Unit :=
  if !isPid stalePid then return ()
  else do
    if ← pidBelongsToOurBridge stalePid then
      let _ ← settle (OsCall.kill stalePid)
    else return ()

def cleanupStaleLock : OsProg Unit := do
  let raw ← await OsCall.readLock
  killIfOurBridge (.parseInt (trim raw))
  let _ ← settle OsCall.unlinkLock

def acquirePidLock : OsProg Unit := do
  await OsCall.mkdir
  if ← await OsCall.lockExists then cleanupStaleLock else return ()

/-- The child, or none when it could not be started. -/
def spawnBridge (bridgeScriptPath sessionId : JsString) : OsProg (Option Nat) := do
  acquirePidLock
  match ← await (OsCall.spawn (bridgeArgv bridgeScriptPath sessionId)) with
  | some (k, pid) =>
    await (OsCall.writeLock (natText pid))
    return some k
  | none => return none

/-- A child is asked to exit, and made to when it does not. -/
def stopChild (k : Nat) : OsProg Unit := do
  if ← await (OsCall.killed k) then return ()
  else
    let _ ← settle (OsCall.signal k .sigterm)
    if ← await (OsCall.waitForExit k) then return ()
    else
      let _ ← settle (OsCall.signal k .sigkill)
      let _ ← settle (OsCall.waitForExit k)

def terminateBridge (child : Option Nat) : OsProg Unit := do
  match child with
  | some k => stopChild k
  | none => pure ()
  let _ ← settle OsCall.unlinkLock

/-! ### The system -/

structure Process where
  pid : Nat
  argv : List JsString
  /-- It is a bridge of the session. -/
  bridge : Bool := false
  running : Bool := true
  signalled : Bool := false
  /-- The host that started it has signalled it. -/
  killed : Bool := false
  deriving DecidableEq

namespace Process

/-- The arguments, as the system's file has them: each with a NUL at its end. -/
def cmdline (p : Process) : JsString := p.argv.flatMap fun arg => arg ++ [0]

/-- The arguments, as `ps` prints them. -/
def args (p : Process) : JsString := (js " ").intercalate p.argv ++ js "\n"

/-- The arguments carry the tag, as one of the two shows them. -/
def IsTagged (p : Process) : Prop :=
  includes bridgeProcessTag p.cmdline = true ∨ includes bridgeProcessTag p.args = true

instance (p : Process) : Decidable p.IsTagged := inferInstanceAs (Decidable (_ ∨ _))

end Process

/-- What is recorded of the signals. -/
inductive Note where
  /-- The arguments of a process were shown, when so many had been started. -/
  | shown (k started : Nat)
  | signalled (k : Nat)
  deriving DecidableEq

/-- The processes in the order they were started, the lock file of the session, and what was
recorded, the latest first. -/
structure Os where
  processes : List Process := []
  lock : Option JsString := none
  log : List Note := []

/-- What the system decides about a call. -/
structure Decision where
  allowed : Bool := true
  /-- The id of a process that is started. -/
  pid : Nat := 1

/-- What happens without the hosts. -/
inductive Happening where
  | started (pid : Nat) (argv : List JsString)
  | exited (k : Nat)

namespace Os

def modifyProcess (w : Os) (k : Nat) (f : Process → Process) : Os :=
  { w with processes := w.processes.modify k f }

def isAt (p : Process) (pid : JsNumber) : Bool := p.running && pid = .finite p.pid

/-- The process that runs under an id. -/
def running (w : Os) (pid : JsNumber) : Option (Nat × Process) :=
  match w.processes.findIdx? (isAt · pid) with
  | some k => w.processes[k]?.map fun p => (k, p)
  | none => none

/-- An id that a process may be given: it fits, and no process runs under it. -/
def isFree (w : Os) (pid : Nat) : Bool :=
  0 < pid && pid < 2147483648 && (w.running (.finite pid)).isNone

def start (w : Os) (p : Process) : Os := { w with processes := w.processes ++ [p] }

/-- A signal reaches a process. -/
def signal (w : Os) (k : Nat) (byHost : Bool) : Os :=
  { w.modifyProcess k fun p => { p with signalled := true, killed := p.killed || byHost } with
    log := .signalled k :: w.log }

/-- The arguments of a process are shown. -/
def shown (w : Os) (k : Nat) : Os := { w with log := .shown k w.processes.length :: w.log }

/-- How the system answers. `procfs` says whether it has the files of the processes. -/
def exec (procfs : Bool) (w : Os) : (c : OsCall) → Decision → Except OsError c.Answer × Os
  | .mkdir, d => (if d.allowed then .ok () else .error .eacces, w)
  | .lockExists, _ => (.ok w.lock.isSome, w)
  | .readLock, d =>
    match w.lock with
    | some text => (if d.allowed then .ok text else .error .eacces, w)
    | none => (.error .enoent, w)
  | .unlinkLock, d =>
    if d.allowed && w.lock.isSome then (.ok (), { w with lock := none }) else (.error .eacces, w)
  | .writeLock text, d =>
    if d.allowed then (.ok (), { w with lock := some text }) else (.error .eacces, w)
  | .readCmdline pid, d =>
    match w.running pid with
    | some (k, p) => if procfs && d.allowed then (.ok p.cmdline, w.shown k) else (.error .eacces, w)
    | none => (.error .enoent, w)
  | .ps pid, d =>
    match w.running pid with
    | some (k, p) => if d.allowed then (.ok p.args, w.shown k) else (.error .eacces, w)
    | none => (.error .esrch, w)
  | .kill pid, d =>
    match w.running pid with
    | some (k, _) => if d.allowed then (.ok (), w.signal k false) else (.error .eacces, w)
    | none => (.error .esrch, w)
  | .spawn argv, d =>
    if d.allowed && w.isFree d.pid then
      (.ok (some (w.processes.length, d.pid)), w.start { pid := d.pid, argv, bridge := true })
    else (.ok none, w)
  | .killed k, _ => (.ok (w.processes[k]?.any (·.killed)), w)
  | .signal k _, d =>
    if d.allowed && w.processes[k]?.any (·.running) then (.ok (), w.signal k true)
    else (.error .esrch, w)
  | .waitForExit k, _ => (.ok (!w.processes[k]?.any (·.running)), w)

def happens (w : Os) : Happening → Option Os
  | .started pid argv => if w.isFree pid then some (w.start { pid, argv }) else none
  | .exited k =>
    if k < w.processes.length then some (w.modifyProcess k fun p => { p with running := false })
    else none

end Os

/-- What a host does. -/
inductive HostCall where
  | spawn (bridgeScriptPath sessionId : JsString)
  /-- The bridge of a handle is terminated. -/
  | terminate (child : Option Nat)

def HostCall.program : HostCall → OsProg Unit
  | .spawn bridgeScriptPath sessionId => do
    let _ ← spawnBridge bridgeScriptPath sessionId
  | .terminate child => terminateBridge child

/-- A host has a handle of its own bridges only. -/
def HostCall.admitted (w : Os) : HostCall → Bool
  | .spawn .. => true
  | .terminate child => child.all fun k => w.processes[k]?.any (·.bridge)

abbrev Hosts := Threads OsCall OsCall.Answer OsError Empty Unit Os

abbrev HostMove := Move Decision HostCall Happening

def Hosts.step (procfs : Bool) : Hosts → HostMove → Option Hosts :=
  Threads.step (Os.exec procfs) HostCall.program HostCall.admitted Os.happens

end TheokitGateways.WhatsApp.Web
