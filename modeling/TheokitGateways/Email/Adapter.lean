import TheokitGateways.Email.Filters
import TheokitGateways.Email.Normalize
import TheokitGateways.Email.SeenUids
import TheokitGateways.Transition

/-!
# The email adapter

A drain lists the unseen mail of the mailbox, chains one dispatch a message and,
behind them, the flush that flags what is finished with. The chain runs one link
at a time: `Inbox` is the chain and what it works on. Around it, calls of
`connect` and `disconnect` each wait for the clients in turn. `log` records,
latest first, what became of the messages.
-/

namespace TheokitGateways.Email
open Js Gateway

/-- Handlers are told apart by identity, as the unsubscribe function does. -/
abbrev Handler := Nat

structure EmailAdapterOptions where
  address : JsString
  allowedSenders : Option (List JsString) := none
  allowAutomated : Option Bool := none
  maxBodyChars : Option JsNumber := none

structure FetchedMessage where
  uid : Nat
  source : List UInt8
  headers : OrderedMap JsString JsString := .empty

/-- The rules that drop a message on purpose. -/
inductive Rule where
  | loopback | automated | allowlist
  deriving DecidableEq

/-- What the console says of a dropped message. -/
def Rule.warning (uid : Nat) (fromAddress : JsString) : Rule → JsString
  | loopback => js "[email] dropped own-address loopback (uid=" ++ natText uid ++ js ")"
  | automated => js "[email] dropped automated sender: " ++ fromAddress
  | allowlist => js "[email] sender not in allowlist: " ++ fromAddress

/-- A link of the dispatch queue. -/
inductive Job where
  | dispatch (msg : FetchedMessage)
  | flush (drain : Nat)

/-- What the running link waits for. -/
inductive Turn where
  | parsing (msg : FetchedMessage)
  | handling (uid : Nat) (handler : Handler)
  | marking (uids : List Nat) (drain : Nat)

inductive Event where
  | listed (drain : Nat) (uids : List Nat)
  | handed (uid : Nat) (handler : Handler) (event : EmailMessageEvent)
  /-- The handler returned or threw. -/
  | answered (uid : Nat) (handler : Handler)
  | dropped (uid : Nat) (rule : Rule) (warning : JsString)
  | unparsed (uid : Nat)
  | finished (uid : Nat)
  /-- The UIDs were passed to `markSeen`. -/
  | offered (uids : List Nat)
  | flagged (uids : List Nat)
  | refused (uids : List Nat)
  /-- The flush of a drain found a client and is over. -/
  | ended (drain : Nat)
  deriving DecidableEq

structure Inbox where
  queue : List Job := []
  turn : Option Turn := none
  /-- The queue is rejected, and its links run no more. -/
  broken : Bool := false
  handler : Option Handler := none
  seenUids : SeenUidSet := .empty
  pendingSeen : List Nat := []
  drains : Nat := 0
  log : List Event := []

/-- Printing what was thrown reads its message when it is an error. -/
def printed (err : JsAny) : Except JsAny Unit := do
  if ← err.instanceOfError then discard (err.read (js "message"))

section
variable (m : CaseMapping) (opts : EmailAdapterOptions)

/-- The rule that drops a message, if one does. -/
def droppedBy (fromAddress : JsString) (headers : OrderedMap JsString JsString) : Option Rule :=
  if fromAddress = m.toLowerCase opts.address then some .loopback
  else if opts.allowAutomated ≠ some true ∧ isAutomatedSender m fromAddress headers then
    some .automated
  else if isAllowedSender m fromAddress opts.allowedSenders then none
  else some .allowlist

end

namespace Inbox

def record (b : Inbox) (e : Event) : Inbox := { b with log := e :: b.log }

/-- The queue goes on when what was thrown can be printed. -/
def report (b : Inbox) (err : JsAny) : Inbox :=
  match printed err with
  | .ok () => b
  | .error _ => { b with broken := true }

/-- What a drain fetched is chained, and the flush behind it. -/
def drained (b : Inbox) (messages : List FetchedMessage) : Inbox :=
  { b with
    queue := b.queue ++ messages.map .dispatch ++ [.flush b.drains]
    drains := b.drains + 1
    log := .listed b.drains (messages.map (·.uid)) :: b.log }

/-- What `disconnect` clears. -/
def clear (b : Inbox) : Inbox := { b with handler := none, seenUids := .empty }

/-- The dispatch of a message begins, unless its UID has been seen. -/
def dispatchInboundInner (b : Inbox) (msg : FetchedMessage) : Inbox :=
  if b.seenUids.has msg.uid then b
  else { b with seenUids := b.seenUids.add msg.uid, turn := some (.parsing msg) }

/-- The `finally` of a dispatch. -/
def finish (b : Inbox) (uid : Nat) : Inbox :=
  { b with
    turn := none
    pendingSeen := addUid b.pendingSeen uid
    log := .finished uid :: b.log }

/-- `_flushSeen` up to the server's answer, with whether there is a client. -/
def flushSeen (b : Inbox) (imap : Bool) (drain : Nat) : Inbox :=
  if !imap then b
  else if b.pendingSeen = [] then b.record (.ended drain)
  else
    { b with
      turn := some (.marking b.pendingSeen drain)
      pendingSeen := []
      log := .offered b.pendingSeen :: b.log }

/-- The next link of the queue. -/
def runJob (b : Inbox) (imap : Bool) : Job → Inbox
  | .dispatch msg => b.dispatchInboundInner msg
  | .flush drain => b.flushSeen imap drain

/-- The handler of a message has settled. -/
def answered (b : Inbox) (uid : Nat) (handler : Handler) (settled : Except JsAny Unit) : Inbox :=
  let b := (b.record (.answered uid handler)).finish uid
  match settled with
  | .ok () => b
  | .error err => b.report err

/-- `markSeen` has settled. -/
def marked (b : Inbox) (uids : List Nat) (drain : Nat) (settled : Except JsAny Unit) : Inbox :=
  let b := { b with turn := none }
  match settled with
  | .ok () => (b.record (.flagged uids)).record (.ended drain)
  | .error err => ((b.record (.refused uids)).record (.ended drain)).report err

section
variable (m : CaseMapping) (simpleParser : List UInt8 → Except JsAny ParsedMail)
  (opts : EmailAdapterOptions)

/-- The event of a message, or what its parsing threw. -/
def eventOf (msg : FetchedMessage) (now : JsNumber) : Except JsAny EmailMessageEvent :=
  normalizeEmail m { botAddress := opts.address, maxBodyChars := opts.maxBodyChars } simpleParser
    msg.source now

/-- A message that has been parsed is dropped or handed over. -/
def dispatchOrDrop (b : Inbox) (msg : FetchedMessage) (now : JsNumber) : Inbox :=
  match eventOf m simpleParser opts msg now with
  | .error err => ((b.record (.unparsed msg.uid)).finish msg.uid).report err
  | .ok event =>
    match droppedBy m opts event.email.fromAddress msg.headers, b.handler with
    | some rule, _ =>
      (b.record (.dropped msg.uid rule (rule.warning msg.uid event.email.fromAddress))).finish
        msg.uid
    | none, none => b.finish msg.uid
    | none, some handler =>
      { b with
        turn := some (.handling msg.uid handler)
        log := .handed msg.uid handler event :: b.log }

end

end Inbox

/-- What a call of `connect` waits for before its own drain. -/
inductive ConnectPhase where
  | verifying | connectingImap | startingIdle
  deriving DecidableEq

structure EmailAdapter where
  inbox : Inbox := {}
  imap : Bool := false
  smtp : Bool := false
  connected : Bool := false
  connects : List ConnectPhase := []
  /-- How many calls of `disconnect` wait for the IMAP client, and for the SMTP client. -/
  closingImap : Nat := 0
  closingSmtp : Nat := 0
  /-- The fetches under way, and which are of a `connect`. -/
  fetches : List Bool := []

namespace EmailAdapter

/-- The end of `disconnect`. -/
def clear (a : EmailAdapter) : EmailAdapter :=
  { a with connected := false, inbox := a.inbox.clear }

def closeSmtp (a : EmailAdapter) : EmailAdapter :=
  if a.smtp then { a with closingSmtp := a.closingSmtp + 1 } else a.clear

def disconnect (a : EmailAdapter) : EmailAdapter :=
  if a.imap then { a with closingImap := a.closingImap + 1 } else a.closeSmtp

def connect (a : EmailAdapter) : EmailAdapter :=
  if a.connected then a
  else { a with imap := true, smtp := true, connects := a.connects ++ [.verifying] }

/-- The `catch` of `connect`. -/
def connectFailed (a : EmailAdapter) (err : JsAny) : EmailAdapter :=
  match printed err with
  | .ok () => a.disconnect
  | .error _ => a

/-- A call of `connect` goes on to its next phase, or is over. -/
def setPhase (a : EmailAdapter) (i : Nat) : Option ConnectPhase → EmailAdapter
  | some phase => { a with connects := a.connects.set i phase }
  | none => { a with connects := a.connects.eraseIdx i }

/-- What calling a method of the client throws once `disconnect` has unset it. -/
def noClient (method : JsString) : JsAny :=
  .error (js "TypeError") (js "Cannot read properties of undefined (reading '" ++ method ++ js "')")

/-- `_drainUnseen` up to the server's answer, for `connect` or on its own. -/
def drainUnseen (a : EmailAdapter) (forConnect : Bool) : EmailAdapter :=
  if a.imap then { a with fetches := a.fetches ++ [forConnect] }
  else { a with connected := a.connected || forConnect }

/-- What a phase of `connect` waited for has settled: for the IMAP client, with whether it supports
IDLE. -/
def advance (a : EmailAdapter) (i : Nat) (phase : ConnectPhase) :
    Except JsAny Bool → EmailAdapter
  | .error err => (a.setPhase i none).connectFailed err
  | .ok supportsIdle =>
    match phase with
    | .verifying =>
      if a.imap then a.setPhase i (some .connectingImap)
      else (a.setPhase i none).connectFailed (noClient (js "connect"))
    | .connectingImap =>
      if !a.imap then (a.setPhase i none).connectFailed (noClient (js "supportsIdle"))
      else if supportsIdle then a.setPhase i (some .startingIdle)
      else (a.setPhase i none).drainUnseen true
    | .startingIdle => (a.setPhase i none).drainUnseen true

/-- The rest of `_drainUnseen`, and of the `connect` it is for. -/
def fetched (a : EmailAdapter) (i : Nat) (forConnect : Bool) :
    Except JsAny (List FetchedMessage) → EmailAdapter
  | .ok messages =>
    { a with
      fetches := a.fetches.eraseIdx i
      inbox := a.inbox.drained messages
      connected := a.connected || forConnect }
  | .error err =>
    let a := { a with fetches := a.fetches.eraseIdx i }
    match printed err with
    | .ok () => { a with connected := a.connected || forConnect }
    | .error err => if forConnect then a.connectFailed err else a

def onInbound (a : EmailAdapter) (handler : Handler) : EmailAdapter :=
  { a with inbox := { a.inbox with handler := some handler } }

/-- What `onInbound` returned for a handler. -/
def unsubscribe (a : EmailAdapter) (handler : Handler) : EmailAdapter :=
  if a.inbox.handler = some handler then { a with inbox := { a.inbox with handler := none } } else a

end EmailAdapter

inductive Action where
  | connect
  /-- What a call of `connect` waits for settles. -/
  | advance (i : Nat) (settled : Except JsAny Bool)
  | disconnect
  | imapClosed
  | smtpClosed
  | onInbound (handler : Handler)
  | unsubscribe (handler : Handler)
  /-- The poll timer or the server's notification. -/
  | drain
  | fetched (i : Nat) (settled : Except JsAny (List FetchedMessage))
  | next
  | parsed (now : JsNumber)
  | answered (settled : Except JsAny Unit)
  | marked (settled : Except JsAny Unit)

namespace EmailAdapter
variable (m : CaseMapping) (simpleParser : List UInt8 → Except JsAny ParsedMail)
  (opts : EmailAdapterOptions)

def step (a : EmailAdapter) : Action → Option EmailAdapter
  | .connect => some a.connect
  | .advance i settled => a.connects[i]?.map fun phase => a.advance i phase settled
  | .disconnect => some a.disconnect
  | .imapClosed =>
    if a.closingImap = 0 then none
    else some (closeSmtp { a with closingImap := a.closingImap - 1, imap := false })
  | .smtpClosed =>
    if a.closingSmtp = 0 then none
    else some (clear { a with closingSmtp := a.closingSmtp - 1, smtp := false })
  | .onInbound handler => some (a.onInbound handler)
  | .unsubscribe handler => some (a.unsubscribe handler)
  | .drain => some (a.drainUnseen false)
  | .fetched i settled => a.fetches[i]?.map fun forConnect => a.fetched i forConnect settled
  | .next =>
    match a.inbox.broken, a.inbox.turn, a.inbox.queue with
    | false, none, job :: rest =>
      some { a with inbox := ({ a.inbox with queue := rest } : Inbox).runJob a.imap job }
    | _, _, _ => none
  | .parsed now =>
    match a.inbox.turn with
    | some (.parsing msg) =>
      some { a with inbox := a.inbox.dispatchOrDrop m simpleParser opts msg now }
    | _ => none
  | .answered settled =>
    match a.inbox.turn with
    | some (.handling uid handler) =>
      some { a with inbox := a.inbox.answered uid handler settled }
    | _ => none
  | .marked settled =>
    match a.inbox.turn with
    | some (.marking uids drain) => some { a with inbox := a.inbox.marked uids drain settled }
    | _ => none

/-- What makes a `connect` that goes on to its next phase fail. -/
def advanceFails (a : EmailAdapter) : ConnectPhase → Except JsAny Bool → Option JsAny
  | _, .error err => some err
  | .verifying, .ok _ => if a.imap then none else some (noClient (js "connect"))
  | .connectingImap, .ok _ => if a.imap then none else some (noClient (js "supportsIdle"))
  | .startingIdle, .ok _ => none

/-- What makes the `connect` that a fetch is for fail. -/
def fetchFails (forConnect : Bool) : Except JsAny (List FetchedMessage) → Option JsAny
  | .ok _ => none
  | .error err =>
    match printed err with
    | .ok () => none
    | .error err => if forConnect then some err else none

/-- The `catch` of `connect` comes to the end of `disconnect` at once. -/
def catchClears (a : EmailAdapter) (err : JsAny) : Bool :=
  (printed err).isOk && !a.imap && !a.smtp

/-- The step comes to the end of `disconnect`. -/
def clears (a : EmailAdapter) : Action → Bool
  | .disconnect => !a.imap && !a.smtp
  | .imapClosed => !a.smtp
  | .smtpClosed => true
  | .advance i settled => (a.connects[i]?.bind (a.advanceFails · settled)).any a.catchClears
  | .fetched i settled => (a.fetches[i]?.bind (fetchFails · settled)).any a.catchClears
  | _ => false

end EmailAdapter

/-- What a step does to the inbox, by whether it comes to the end of `disconnect`. -/
inductive Inbox.Moves (m : CaseMapping) (simpleParser : List UInt8 → Except JsAny ParsedMail)
    (opts : EmailAdapterOptions) (b : Inbox) (clears : Bool) : Action → Inbox → Prop
  | same (act : Action) (hopen : clears = false) : Moves m simpleParser opts b clears act b
  | cleared (act : Action) (hclears : clears = true) :
    Moves m simpleParser opts b clears act b.clear
  | subscribed (act : Action) (handler : Option Handler) (hopen : clears = false) :
    Moves m simpleParser opts b clears act { b with handler := handler }
  | drained (act : Action) (messages : List FetchedMessage) (hopen : clears = false) :
    Moves m simpleParser opts b clears act (b.drained messages)
  | next (imap : Bool) (job : Job) (rest : List Job) (hturn : b.turn = none)
    (hqueue : b.queue = job :: rest) (hopen : clears = false) :
    Moves m simpleParser opts b clears .next (({ b with queue := rest } : Inbox).runJob imap job)
  | parsed (now : JsNumber) (msg : FetchedMessage) (hturn : b.turn = some (.parsing msg))
    (hopen : clears = false) :
    Moves m simpleParser opts b clears (.parsed now) (b.dispatchOrDrop m simpleParser opts msg now)
  | answered (settled : Except JsAny Unit) (uid : Nat) (handler : Handler)
    (hturn : b.turn = some (.handling uid handler)) (hopen : clears = false) :
    Moves m simpleParser opts b clears (.answered settled) (b.answered uid handler settled)
  | marked (settled : Except JsAny Unit) (uids : List Nat) (drain : Nat)
    (hturn : b.turn = some (.marking uids drain)) (hopen : clears = false) :
    Moves m simpleParser opts b clears (.marked settled) (b.marked uids drain settled)

namespace EmailAdapter

/-- `disconnect` comes to its end at once when there is no client to close. -/
theorem inbox_disconnect (a : EmailAdapter) :
    a.disconnect.inbox = if !a.imap && !a.smtp then a.inbox.clear else a.inbox := by
  unfold disconnect closeSmtp
  cases a.imap <;> cases a.smtp <;> rfl

theorem inbox_connectFailed (a : EmailAdapter) (err : JsAny) :
    (a.connectFailed err).inbox = if a.catchClears err then a.inbox.clear else a.inbox := by
  unfold connectFailed catchClears
  cases printed err with
  | ok => exact a.inbox_disconnect
  | error => rfl

@[simp] theorem inbox_setPhase (a : EmailAdapter) (i : Nat) (phase : Option ConnectPhase) :
    (a.setPhase i phase).inbox = a.inbox := by
  cases phase <;> rfl

@[simp] theorem catchClears_setPhase (a : EmailAdapter) (i : Nat) (phase : Option ConnectPhase)
    (err : JsAny) : (a.setPhase i phase).catchClears err = a.catchClears err := by
  cases phase <;> rfl

@[simp] theorem inbox_drainUnseen (a : EmailAdapter) (forConnect : Bool) :
    (a.drainUnseen forConnect).inbox = a.inbox := by
  unfold drainUnseen
  split <;> rfl

theorem inbox_advance (a : EmailAdapter) (i : Nat) (phase : ConnectPhase)
    (settled : Except JsAny Bool) :
    (a.advance i phase settled).inbox =
      if (a.advanceFails phase settled).any a.catchClears then a.inbox.clear else a.inbox := by
  have hfailed (err : JsAny) := (a.setPhase i none).inbox_connectFailed err
  simp only [inbox_setPhase, catchClears_setPhase] at hfailed
  cases settled with
  | error err => cases phase <;> exact hfailed err
  | ok supportsIdle =>
    cases phase with
    | verifying =>
      by_cases himap : a.imap = true
      · simp [advance, advanceFails, himap]
      · have hfails : a.advanceFails .verifying (.ok supportsIdle) =
            some (noClient (js "connect")) := if_neg himap
        rw [advance, if_neg himap, hfails]
        exact hfailed _
    | connectingImap =>
      by_cases himap : a.imap = true
      · cases supportsIdle <;> simp [advance, advanceFails, himap]
      · have hfails : a.advanceFails .connectingImap (.ok supportsIdle) =
            some (noClient (js "supportsIdle")) := if_neg himap
        rw [advance, if_pos (by simp [himap]), hfails]
        exact hfailed _
    | startingIdle => simp [advance, advanceFails]

variable {m : CaseMapping} {simpleParser : List UInt8 → Except JsAny ParsedMail}
  {opts : EmailAdapterOptions}

/-- A fetch that failed leaves the inbox, unless the `connect` it is for fails. -/
theorem inbox_fetched_error (a : EmailAdapter) (i : Nat) (forConnect : Bool) (err : JsAny) :
    (a.fetched i forConnect (.error err)).inbox =
      if (fetchFails forConnect (.error err)).any a.catchClears then a.inbox.clear
      else a.inbox := by
  unfold fetched fetchFails
  cases hprinted : printed err with
  | ok => simp [hprinted]
  | error err =>
    simp only [hprinted]
    cases forConnect with
    | true => exact inbox_connectFailed _ err
    | false => rfl

/-- What any step does to the inbox. -/
theorem moves_of_step {a b : EmailAdapter} {act : Action}
    (h : step m simpleParser opts a act = some b) :
    a.inbox.Moves m simpleParser opts (a.clears act) act b.inbox := by
  have hkept {clears : Bool} {act : Action} {c : Inbox}
      (hc : c = if clears then a.inbox.clear else a.inbox) :
      a.inbox.Moves m simpleParser opts clears act c := by
    subst hc
    cases clears with
    | true => exact .cleared act rfl
    | false => exact .same act rfl
  cases act with
  | connect =>
    obtain rfl := Option.some.inj h
    unfold connect
    split <;> exact .same _ rfl
  | advance i settled =>
    obtain ⟨phase, hphase, rfl⟩ := Option.map_eq_some_iff.1 h
    rw [clears, hphase]
    exact hkept (a.inbox_advance i phase settled)
  | disconnect =>
    obtain rfl := Option.some.inj h
    exact hkept a.inbox_disconnect
  | imapClosed =>
    simp only [step, Option.ite_none_left_eq_some, Option.some.injEq] at h
    obtain ⟨_, rfl⟩ := h
    refine hkept ?_
    unfold closeSmtp clears
    cases a.smtp <;> rfl
  | smtpClosed =>
    simp only [step, Option.ite_none_left_eq_some, Option.some.injEq] at h
    obtain ⟨_, rfl⟩ := h
    exact .cleared _ rfl
  | onInbound handler =>
    obtain rfl := Option.some.inj h
    exact .subscribed _ (some handler) rfl
  | unsubscribe handler =>
    obtain rfl := Option.some.inj h
    unfold unsubscribe
    split
    · exact .subscribed _ none rfl
    · exact .same _ rfl
  | drain =>
    obtain rfl := Option.some.inj h
    rw [inbox_drainUnseen]
    exact .same _ rfl
  | fetched i settled =>
    obtain ⟨forConnect, hfetch, rfl⟩ := Option.map_eq_some_iff.1 h
    cases settled with
    | ok messages =>
      refine .drained _ messages ?_
      rw [clears, hfetch]
      rfl
    | error err =>
      rw [clears, hfetch]
      exact hkept (a.inbox_fetched_error i forConnect err)
  | next =>
    simp only [step] at h
    split at h
    · rename_i job rest hbroken hturn hqueue
      obtain rfl := Option.some.inj h
      exact .next a.imap job rest hturn hqueue rfl
    · cases h
  | parsed now =>
    simp only [step] at h
    split at h
    · rename_i msg hturn
      obtain rfl := Option.some.inj h
      exact .parsed now msg hturn rfl
    · cases h
  | answered settled =>
    simp only [step] at h
    split at h
    · rename_i uid handler hturn
      obtain rfl := Option.some.inj h
      exact .answered settled uid handler hturn rfl
    · cases h
  | marked settled =>
    simp only [step] at h
    split at h
    · rename_i uids drain hturn
      obtain rfl := Option.some.inj h
      exact .marked settled uids drain hturn rfl
    · cases h

end EmailAdapter

end TheokitGateways.Email
