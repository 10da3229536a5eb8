import TheokitGateways.Records
import TheokitGateways.WhatsApp.Baileys.Frames

/-!
# One send at a time

A caller may be answered while its socket call still runs, so the queue must wait
for both. `Advance` says what a step does to a send and to the records; from it
come that a send has its turn only after those before it are through, that each
goes to the socket once at most, and that an answer is of the send's own call.
-/

namespace TheokitGateways.WhatsApp.Baileys
open Js Gateway Records Transition

namespace Send

/-- Resolving its address, or inside `socket.sendMessage`. -/
def usesSocket (s : Send) : Bool :=
  match s.stage with
  | .resolving _ | .resolved .. | .sending _ => true
  | .queued | .free => false

def hasStarted (s : Send) : Bool :=
  match s.stage with
  | .queued => false
  | _ => true

/-- Its message has gone to the socket if it ever does. -/
def isPast (s : Send) : Bool :=
  match s.stage with
  | .sending _ | .free => true
  | _ => false

end Send

namespace WhatsAppBaileysBackend

/-- The contract of the queue. -/
structure Serial (b : WhatsAppBaileysBackend) : Prop where
  exclusive : ∀ (i j : Nat) (s t : Send), b.sends[i]? = some s → b.sends[j]? = some t →
    s.usesSocket = true → t.usesSocket = true → i = j
  ordered : ∀ (i j : Nat) (s t : Send), i < j → b.sends[i]? = some s → b.sends[j]? = some t →
    t.hasStarted = true → s.isReleased = true
  once : (b.transmitted.map (·.send)).Pairwise (· > ·)
  own : ∀ t ∈ b.transmitted, ∃ s, b.sends[t.send]? = some s ∧ t.text = s.message.text
  honest : ∀ (i : Nat) (s : Send) (r : WhatsAppSendResult), b.sends[i]? = some s →
    s.answer = some (.ok r) → r.ok = true →
    (i, r.wamid) ∈ b.acknowledged ∧ ∃ t ∈ b.transmitted, t.send = i

/-- What every step keeps. -/
structure Queued (b : WhatsAppBaileysBackend) : Prop where
  ordered : ∀ (i j : Nat) (s t : Send), i < j → b.sends[i]? = some s → b.sends[j]? = some t →
    t.hasStarted = true → s.isReleased = true
  once : (b.transmitted.map (·.send)).Pairwise (· > ·)
  past : ∀ t ∈ b.transmitted, ∃ s, b.sends[t.send]? = some s ∧ t.text = s.message.text ∧
    s.isPast = true
  sending : ∀ (i : Nat) (s : Send) (k : Nat), b.sends[i]? = some s → s.stage = .sending k →
    ∃ t ∈ b.transmitted, t.send = i
  acknowledged : ∀ p ∈ b.acknowledged, ∃ t ∈ b.transmitted, t.send = p.1
  raced : ∀ (i : Nat) (s : Send) (id : Option JsString), b.sends[i]? = some s →
    s.outcome = some (.acknowledged id) → (i, id) ∈ b.acknowledged
  told : ∀ (i : Nat) (s : Send) (r : WhatsAppSendResult), b.sends[i]? = some s →
    s.answer = some (.ok r) → r.ok = true → s.outcome = some (.acknowledged r.wamid)

/-- The ids that were remembered, and what went to the sockets and came back. -/
def logs (b : WhatsAppBaileysBackend) :
    List JsString × List Transmission × List (Nat × Option JsString) :=
  (b.sentWamids, b.transmitted, b.acknowledged)

/-- What an action makes of the send it is about, and of the logs. -/
inductive Advance (timeoutMs : JsString) (b b' : WhatsAppBaileysBackend) (i : Nat) (s : Send) :
    Action → Send → Prop where
  | start : s.stage = .queued → b.isTurn i = true → b'.logs = b.logs →
    Advance timeoutMs b b' i s (.start i) (b.sendNow s)
  | lookedUp {found : Except JsAny (List Registration)} (k : Nat) (jid : Option JsString) :
    s.stage = .resolving k → b'.logs = b.logs →
    Advance timeoutMs b b' i s (.lookedUp i found) { s with stage := .resolved k jid }
  | unroutable (k : Nat) : s.stage = .resolved k none → b'.logs = b.logs →
    Advance timeoutMs b b' i s (.transmit i) (s.release .unroutable)
  | transmit (k : Nat) (jid : JsString) : s.stage = .resolved k (some jid) →
    b'.logs = (b.sentWamids, ⟨i, k, jid, s.message.text⟩ :: b.transmitted, b.acknowledged) →
    Advance timeoutMs b b' i s (.transmit i) { s with stage := .sending k }
  | acknowledge (k : Nat) (id : Option JsString) : s.stage = .sending k →
    b'.logs = (b.sentWamids, b.transmitted, (i, id) :: b.acknowledged) →
    Advance timeoutMs b b' i s (.acknowledge i id) (s.release (.acknowledged id))
  | fail (k : Nat) (err : JsAny) : s.stage = .sending k → b'.logs = b.logs →
    Advance timeoutMs b b' i s (.fail i err) (s.release (.failed err))
  | timeout : s.stage ≠ .queued → s.answer = none → b'.logs = b.logs →
    Advance timeoutMs b b' i s (.sendTimeout i) (s.settle .timeout)
  | answer (outcome : Outcome) : s.answer = none → s.outcome = some outcome →
    b'.logs = (match outcome with
        | .acknowledged (some wamid) => rememberSent b.sentWamids wamid
        | _ => b.sentWamids, b.transmitted, b.acknowledged) →
    Advance timeoutMs b b' i s (.answer i)
      { s with answer := some (answerOf timeoutMs s.message outcome) }

variable {timeoutMs : JsString} {b b' : WhatsAppBaileysBackend} {action : Action}

theorem modify_eq_of_getElem? {i : Nat} {s : Send} (hs : b.sends[i]? = some s) (f : Send → Send) :
    b.sends.modify i f = b.sends.modify i fun _ => f s := by
  apply List.ext_getElem?
  intro j
  rw [List.getElem?_modify, List.getElem?_modify]
  by_cases hij : i = j
  · subst hij
    simp [hs]
  · simp [hij]

/-- What a step of the sends does: one is added, or one advances. -/
theorem send_cases (h : b.step timeoutMs action = some b') (hsend : action.isSend = true) :
    (∃ message, action = .send message ∧ b'.sends = b.sends ++ [{ message := message }] ∧
      b'.logs = b.logs) ∨
    ∃ i s s', b.sends[i]? = some s ∧ b'.sends = b.sends.modify i (fun _ => s') ∧
      Advance timeoutMs b b' i s action s' := by
  unfold step at h
  split at h
  · cases h
  · cases action with
    | send message =>
      obtain rfl := Option.some.inj h
      exact .inl ⟨message, rfl, rfl, rfl⟩
    | start i =>
      obtain ⟨s, hs, h⟩ := Option.bind_eq_some_iff.1 h
      split at h
      · split at h
        · obtain rfl := Option.some.inj h
          exact .inr ⟨i, s, _, hs, modify_eq_of_getElem? hs _, .start ‹_› ‹_› rfl⟩
        · cases h
      · cases h
    | lookedUp i found =>
      obtain ⟨s, hs, h⟩ := Option.bind_eq_some_iff.1 h
      split at h
      · obtain rfl := Option.some.inj h
        exact .inr ⟨i, s, _, hs, modify_eq_of_getElem? hs _, .lookedUp _ _ ‹_› rfl⟩
      · cases h
    | transmit i =>
      obtain ⟨s, hs, h⟩ := Option.bind_eq_some_iff.1 h
      split at h
      · split at h
        · obtain rfl := Option.some.inj h
          exact .inr ⟨i, s, _, hs, modify_eq_of_getElem? hs _, .unroutable _ ‹_› rfl⟩
        · obtain rfl := Option.some.inj h
          exact .inr ⟨i, s, _, hs, modify_eq_of_getElem? hs _, .transmit _ _ ‹_› rfl⟩
      · cases h
    | acknowledge i id =>
      obtain ⟨s, hs, h⟩ := Option.bind_eq_some_iff.1 h
      split at h
      · obtain rfl := Option.some.inj h
        exact .inr ⟨i, s, _, hs, modify_eq_of_getElem? hs _, .acknowledge _ _ ‹_› rfl⟩
      · cases h
    | fail i err =>
      obtain ⟨s, hs, h⟩ := Option.bind_eq_some_iff.1 h
      split at h
      · obtain rfl := Option.some.inj h
        exact .inr ⟨i, s, _, hs, modify_eq_of_getElem? hs _, .fail _ _ ‹_› rfl⟩
      · cases h
    | sendTimeout i =>
      obtain ⟨s, hs, h⟩ := Option.bind_eq_some_iff.1 h
      split at h
      · cases h
      · split at h
        · cases h
        · rename_i hqueued hanswer
          obtain rfl := Option.some.inj h
          exact .inr ⟨i, s, _, hs, modify_eq_of_getElem? hs _,
            .timeout hqueued (Option.not_isSome_iff_eq_none.1 hanswer) rfl⟩
    | answer i =>
      obtain ⟨s, hs, h⟩ := Option.bind_eq_some_iff.1 h
      split at h
      · rename_i outcome hanswer houtcome
        obtain rfl := Option.some.inj h
        refine .inr ⟨i, s, _, hs, ?_, .answer outcome hanswer houtcome ?_⟩
        · unfold answer
          dsimp only
          split <;> exact modify_eq_of_getElem? hs _
        · unfold answer
          dsimp only
          split <;> simp only [logs, modifySend]
      · cases h
    | _ => cases hsend

theorem resolveJid_eq (b : WhatsAppBaileysBackend) (k : Nat) (message : WhatsAppOutboundMessage) :
    (∃ jid, b.resolveJid k message = .resolved k jid) ∨
      b.resolveJid k message = .resolving k := by
  unfold resolveJid
  split
  · exact .inl ⟨_, rfl⟩
  · split
    · exact .inl ⟨_, rfl⟩
    · split
      · exact .inl ⟨_, rfl⟩
      · split
        · exact .inl ⟨_, rfl⟩
        · exact .inr rfl

/-- A send whose turn has come learns its address, or is refused without a connection. -/
theorem sendNow_eq (b : WhatsAppBaileysBackend) (s : Send) :
    (∃ stage, b.sendNow s = { s with stage } ∧
      ((∃ k jid, stage = .resolved k jid) ∨ ∃ k, stage = .resolving k)) ∨
    ∃ r, b.sendNow s = { s with stage := .free, answer := some (.ok r) } ∧ r.ok = false := by
  unfold sendNow
  split
  · rename_i k _ _
    refine .inl ⟨_, rfl, ?_⟩
    obtain ⟨jid, heq⟩ | heq := b.resolveJid_eq k s.message
    · exact .inl ⟨k, jid, heq⟩
    · exact .inr ⟨k, heq⟩
  · exact .inr ⟨_, rfl, rfl⟩

namespace Advance
variable {i : Nat} {s s' : Send}

theorem message_eq (h : Advance timeoutMs b b' i s action s') : s'.message = s.message := by
  cases h with
  | start => 
    obtain ⟨stage, heq, _⟩ | ⟨r, heq, _⟩ := b.sendNow_eq s <;> rw [heq]
  | _ => rfl

/-- A send starts in its turn only. -/
theorem turn (h : Advance timeoutMs b b' i s action s') (hstarted : s'.hasStarted = true) :
    s.hasStarted = true ∨ b.isTurn i = true := by
  cases h with
  | start _ hturn => exact .inr hturn
  | timeout => exact .inl hstarted
  | answer => exact .inl hstarted
  | lookedUp k jid hstage | unroutable k hstage | transmit k jid hstage
  | acknowledge k id hstage | fail k err hstage =>
    refine .inl ?_
    rw [Send.hasStarted, hstage]

theorem not_isReleased (h : Advance timeoutMs b b' i s action s') : s.isReleased = false := by
  unfold Send.isReleased
  cases h <;> simp_all

theorem isPast (h : Advance timeoutMs b b' i s action s') (hpast : s.isPast = true) :
    s'.isPast = true := by
  unfold Send.isPast at hpast
  cases h with
  | unroutable | acknowledge | fail => rfl
  | timeout | answer => exact hpast
  | start hstage | lookedUp k jid hstage | transmit k jid hstage =>
    rw [hstage] at hpast
    cases hpast

theorem transmitted_eq (h : Advance timeoutMs b b' i s action s') :
    b'.transmitted = b.transmitted ∨ s.isPast = false ∧ ∃ k jid, s'.stage = .sending k ∧
      b'.transmitted = ⟨i, k, jid, s.message.text⟩ :: b.transmitted := by
  cases h with
  | transmit k jid hstage hlogs =>
    exact .inr ⟨by rw [Send.isPast, hstage], k, jid, rfl, (Prod.mk.inj (Prod.mk.inj hlogs).2).1⟩
  | acknowledge k id hstage hlogs => exact .inl (Prod.mk.inj (Prod.mk.inj hlogs).2).1
  | answer outcome _ _ hlogs => exact .inl (Prod.mk.inj (Prod.mk.inj hlogs).2).1
  | start _ _ hlogs | lookedUp k jid _ hlogs | unroutable k _ hlogs | fail k err _ hlogs
  | timeout _ _ hlogs => exact .inl (Prod.mk.inj (Prod.mk.inj hlogs).2).1

theorem acknowledged_eq (h : Advance timeoutMs b b' i s action s') :
    b'.acknowledged = b.acknowledged ∨ ∃ k id, s.stage = .sending k ∧
      action = .acknowledge i id ∧ s' = s.release (.acknowledged id) ∧
        b'.acknowledged = (i, id) :: b.acknowledged := by
  cases h with
  | acknowledge k id hstage hlogs =>
    exact .inr ⟨k, id, hstage, rfl, rfl, (Prod.mk.inj (Prod.mk.inj hlogs).2).2⟩
  | transmit k jid _ hlogs => exact .inl (Prod.mk.inj (Prod.mk.inj hlogs).2).2
  | answer outcome _ _ hlogs => exact .inl (Prod.mk.inj (Prod.mk.inj hlogs).2).2
  | start _ _ hlogs | lookedUp k jid _ hlogs | unroutable k _ hlogs | fail k err _ hlogs
  | timeout _ _ hlogs => exact .inl (Prod.mk.inj (Prod.mk.inj hlogs).2).2

/-- A send inside `sendMessage` has passed its message to the socket. -/
theorem sending (h : Advance timeoutMs b b' i s action s') {k : Nat}
    (hstage : s'.stage = .sending k) :
    s.stage = .sending k ∨
      ∃ jid, b'.transmitted = ⟨i, k, jid, s.message.text⟩ :: b.transmitted := by
  cases h with
  | start =>
    obtain ⟨stage, heq, ⟨k, jid, rfl⟩ | ⟨k, rfl⟩⟩ | ⟨r, heq, _⟩ := b.sendNow_eq s <;>
      rw [heq] at hstage <;> cases hstage
  | transmit k jid _ hlogs =>
    cases hstage
    exact .inr ⟨jid, (Prod.mk.inj (Prod.mk.inj hlogs).2).1⟩
  | timeout | answer => exact .inl hstage
  | _ => cases hstage

/-- The race of a send is won once. -/
theorem outcome (h : Advance timeoutMs b b' i s action s') {id : Option JsString}
    (hwon : s'.outcome = some (.acknowledged id)) :
    s.outcome = some (.acknowledged id) ∨ action = .acknowledge i id := by
  cases h with
  | start =>
    obtain ⟨stage, heq, _⟩ | ⟨r, heq, _⟩ := b.sendNow_eq s <;> rw [heq] at hwon <;> exact .inl hwon
  | lookedUp | transmit | answer => exact .inl hwon
  | unroutable | fail | timeout =>
    obtain hwon | ⟨_, hwon⟩ := Option.or_eq_some_iff.1 hwon
    · exact .inl hwon
    · cases hwon
  | acknowledge =>
    obtain hwon | ⟨_, hwon⟩ := Option.or_eq_some_iff.1 hwon
    · exact .inl hwon
    · cases hwon
      exact .inr rfl

theorem answerOf_ok {message : WhatsAppOutboundMessage} {outcome : Outcome}
    {r : WhatsAppSendResult} (h : answerOf timeoutMs message outcome = .ok r)
    (hok : r.ok = true) : outcome = .acknowledged r.wamid := by
  cases outcome with
  | acknowledged id =>
    obtain rfl := Except.ok.inj h
    rfl
  | unroutable | timeout =>
    obtain rfl := Except.ok.inj h
    cases hok
  | failed err =>
    obtain ⟨text, _, rfl⟩ := map_eq_ok.1 h
    cases hok

/-- An `ok` is told of an acknowledgement only. -/
theorem told (h : Advance timeoutMs b b' i s action s') {r : WhatsAppSendResult}
    (hanswer : s'.answer = some (.ok r)) (hok : r.ok = true)
    (hs : s.answer = some (.ok r) → s.outcome = some (.acknowledged r.wamid)) :
    s'.outcome = some (.acknowledged r.wamid) := by
  cases h with
  | start =>
    obtain ⟨stage, heq, _⟩ | ⟨r', heq, hr'⟩ := b.sendNow_eq s
    · rw [heq] at hanswer ⊢
      exact hs hanswer
    · rw [heq] at hanswer
      cases hanswer
      rw [hr'] at hok
      cases hok
  | lookedUp | transmit => exact hs hanswer
  | unroutable | acknowledge | fail =>
    exact Option.or_eq_some_iff.2 (.inl (hs hanswer))
  | timeout _ hnone => exact (nomatch hnone.symm.trans hanswer)
  | answer outcome _ houtcome =>
    rw [answerOf_ok (Option.some.inj hanswer) hok] at houtcome
    exact houtcome

end Advance

theorem isPast_hasStarted {s : Send} (h : s.isPast = true) : s.hasStarted = true := by
  unfold Send.isPast at h
  unfold Send.hasStarted
  grind

theorem isReleased_hasStarted {s : Send} (h : s.isReleased = true) : s.hasStarted = true := by
  unfold Send.isReleased at h
  unfold Send.hasStarted
  grind

theorem queued_init : Queued {} where
  ordered _ _ _ _ _ h := nomatch h
  once := .nil
  past _ h := nomatch h
  sending _ _ _ h := nomatch h
  acknowledged _ h := nomatch h
  raced _ _ _ h := nomatch h
  told _ _ _ h := nomatch h

theorem Queued.of_outbound (h : b.Queued) (hsame : b'.outbound = b.outbound) : b'.Queued := by
  simp only [outbound, Prod.mk.injEq] at hsame
  obtain ⟨hsends, _, htransmitted, hacknowledged⟩ := hsame
  constructor
  · rw [hsends]
    exact h.ordered
  · rw [htransmitted]
    exact h.once
  · rw [hsends, htransmitted]
    exact h.past
  · rw [hsends, htransmitted]
    exact h.sending
  · rw [htransmitted, hacknowledged]
    exact h.acknowledged
  · rw [hsends, hacknowledged]
    exact h.raced
  · rw [hsends]
    exact h.told

/-- A new send waits behind the others. -/
theorem queued_send (h : b.Queued) {message : WhatsAppOutboundMessage}
    (hsends : b'.sends = b.sends ++ [{ message := message }]) (hlogs : b'.logs = b.logs) :
    b'.Queued := by
  simp only [logs, Prod.mk.injEq] at hlogs
  obtain ⟨_, htransmitted, hacknowledged⟩ := hlogs
  constructor
  · intro i j s t hij hs ht hstarted
    rw [hsends] at hs ht
    obtain ht | ⟨_, rfl⟩ := getElem?_append_singleton.1 ht
    · obtain hs | ⟨rfl, _⟩ := getElem?_append_singleton.1 hs
      · exact h.ordered i j s t hij hs ht hstarted
      · have hlt := (List.getElem?_eq_some_iff.1 ht).1
        omega
    · cases hstarted
  · rw [htransmitted]
    exact h.once
  · intro t ht
    rw [htransmitted] at ht
    obtain ⟨s, hs, htext, hpast⟩ := h.past t ht
    exact ⟨s, by rw [hsends]; exact getElem?_append_singleton.2 (.inl hs), htext, hpast⟩
  · intro i s k hs hstage
    rw [hsends] at hs
    rw [htransmitted]
    obtain hs | ⟨_, rfl⟩ := getElem?_append_singleton.1 hs
    · exact h.sending i s k hs hstage
    · cases hstage
  · rw [htransmitted, hacknowledged]
    exact h.acknowledged
  · intro i s id hs hwon
    rw [hsends] at hs
    rw [hacknowledged]
    obtain hs | ⟨_, rfl⟩ := getElem?_append_singleton.1 hs
    · exact h.raced i s id hs hwon
    · cases hwon
  · intro i s r hs hanswer hok
    rw [hsends] at hs
    obtain hs | ⟨_, rfl⟩ := getElem?_append_singleton.1 hs
    · exact h.told i s r hs hanswer hok
    · cases hanswer

/-- When the turn of a send has come, all before it are through. -/
theorem Queued.released (h : b.Queued) {i j : Nat} {s : Send} (hturn : b.isTurn j = true)
    (hij : i < j) (hs : b.sends[i]? = some s) : s.isReleased = true := by
  cases j with
  | zero => omega
  | succ j =>
    obtain ⟨t, ht, hreleased⟩ := (Option.any_eq_true _ _).1 hturn
    obtain rfl | hlt : i = j ∨ i < j := by omega
    · obtain rfl := Option.some.inj (hs.symm.trans ht)
      exact hreleased
    · exact h.ordered i j s t hlt hs ht (isReleased_hasStarted hreleased)

section
variable {i : Nat} {s s' : Send}

theorem Advance.mem_transmitted (hadvance : Advance timeoutMs b b' i s action s') :
    ∀ t ∈ b.transmitted, t ∈ b'.transmitted := by
  obtain heq | ⟨_, _, _, _, heq⟩ := hadvance.transmitted_eq <;> rw [heq]
  · exact fun t ht => ht
  · exact fun t ht => List.mem_cons_of_mem _ ht

theorem Advance.mem_acknowledged (hadvance : Advance timeoutMs b b' i s action s') :
    ∀ p ∈ b.acknowledged, p ∈ b'.acknowledged := by
  obtain heq | ⟨_, _, _, _, _, heq⟩ := hadvance.acknowledged_eq <;> rw [heq]
  · exact fun p hp => hp
  · exact fun p hp => List.mem_cons_of_mem _ hp

/-- The sends behind one that is not through have transmitted nothing. -/
theorem Queued.behind (h : b.Queued) (hs : b.sends[i]? = some s)
    (hadvance : Advance timeoutMs b b' i s action s') {t : Transmission} (ht : t ∈ b.transmitted)
    (hpast : s.isPast = false) : i > t.send := by
  obtain ⟨u, hu, _, hupast⟩ := h.past t ht
  rcases Nat.lt_trichotomy t.send i with hlt | heq | hlt
  · exact hlt
  · rw [heq] at hu
    obtain rfl := Option.some.inj (hu.symm.trans hs)
    rw [hpast] at hupast
    cases hupast
  · have hreleased := h.ordered i t.send s u hlt hs hu (isPast_hasStarted hupast)
    rw [hadvance.not_isReleased] at hreleased
    cases hreleased

theorem ordered_advance (h : b.Queued) (hs : b.sends[i]? = some s)
    (hsends : b'.sends = b.sends.modify i fun _ => s')
    (hadvance : Advance timeoutMs b b' i s action s') (j k : Nat) (t u : Send) (hjk : j < k)
    (ht : b'.sends[j]? = some t) (hu : b'.sends[k]? = some u) (hstarted : u.hasStarted = true) :
    t.isReleased = true := by
  rw [hsends] at ht hu
  obtain ⟨rfl, rfl⟩ | ⟨_, htold⟩ := getElem?_modify_const ht
  · obtain ⟨rfl, rfl⟩ | ⟨_, huold⟩ := getElem?_modify_const hu
    · omega
    · have hreleased := h.ordered j k s u hjk hs huold hstarted
      rw [hadvance.not_isReleased] at hreleased
      cases hreleased
  · obtain ⟨rfl, rfl⟩ | ⟨_, huold⟩ := getElem?_modify_const hu
    · obtain hbefore | hturn := hadvance.turn hstarted
      · exact h.ordered j k t s hjk htold hs hbefore
      · exact h.released hturn hjk htold
    · exact h.ordered j k t u hjk htold huold hstarted

theorem once_advance (h : b.Queued) (hs : b.sends[i]? = some s)
    (hadvance : Advance timeoutMs b b' i s action s') :
    (b'.transmitted.map (·.send)).Pairwise (· > ·) := by
  obtain heq | ⟨hpast, k, jid, _, heq⟩ := hadvance.transmitted_eq <;> rw [heq]
  · exact h.once
  · rw [List.map_cons, List.pairwise_cons]
    refine ⟨fun j hj => ?_, h.once⟩
    obtain ⟨t, ht, rfl⟩ := List.mem_map.1 hj
    exact h.behind hs hadvance ht hpast

theorem past_advance (h : b.Queued) (hs : b.sends[i]? = some s)
    (hsends : b'.sends = b.sends.modify i fun _ => s')
    (hadvance : Advance timeoutMs b b' i s action s') (t : Transmission)
    (ht : t ∈ b'.transmitted) :
    ∃ u, b'.sends[t.send]? = some u ∧ t.text = u.message.text ∧ u.isPast = true := by
  have hself : b'.sends[i]? = some s' := by
    rw [hsends]
    exact getElem?_modify_eq_some.2 ⟨s, hs, by simp⟩
  have hold (ht : t ∈ b.transmitted) :
      ∃ u, b'.sends[t.send]? = some u ∧ t.text = u.message.text ∧ u.isPast = true := by
    obtain ⟨u, hu, htext, hpast⟩ := h.past t ht
    by_cases hi : t.send = i
    · rw [hi] at hu ⊢
      obtain rfl := Option.some.inj (hu.symm.trans hs)
      exact ⟨s', hself, by rw [hadvance.message_eq]; exact htext, hadvance.isPast hpast⟩
    · refine ⟨u, ?_, htext, hpast⟩
      rw [hsends]
      exact getElem?_modify_eq_some.2 ⟨u, hu, by simp [Ne.symm hi]⟩
  obtain heq | ⟨_, k, jid, hstage, heq⟩ := hadvance.transmitted_eq <;> rw [heq] at ht
  · exact hold ht
  · obtain rfl | ht := List.mem_cons.1 ht
    · exact ⟨s', hself, by rw [hadvance.message_eq], by rw [Send.isPast, hstage]⟩
    · exact hold ht

theorem sending_advance (h : b.Queued) (hs : b.sends[i]? = some s)
    (hsends : b'.sends = b.sends.modify i fun _ => s')
    (hadvance : Advance timeoutMs b b' i s action s') (j : Nat) (t : Send) (k : Nat)
    (ht : b'.sends[j]? = some t) (hstage : t.stage = .sending k) :
    ∃ t ∈ b'.transmitted, t.send = j := by
  rw [hsends] at ht
  obtain ⟨rfl, rfl⟩ | ⟨_, ht⟩ := getElem?_modify_const ht
  · obtain hstage | ⟨jid, heq⟩ := hadvance.sending hstage
    · obtain ⟨t, ht, hsend⟩ := h.sending j s k hs hstage
      exact ⟨t, hadvance.mem_transmitted t ht, hsend⟩
    · exact ⟨_, by rw [heq]; exact List.mem_cons_self, rfl⟩
  · obtain ⟨t, ht, hsend⟩ := h.sending j t k ht hstage
    exact ⟨t, hadvance.mem_transmitted t ht, hsend⟩

theorem acknowledged_advance (h : b.Queued) (hs : b.sends[i]? = some s)
    (hadvance : Advance timeoutMs b b' i s action s') (p : Nat × Option JsString)
    (hp : p ∈ b'.acknowledged) : ∃ t ∈ b'.transmitted, t.send = p.1 := by
  have hold (hp : p ∈ b.acknowledged) : ∃ t ∈ b'.transmitted, t.send = p.1 := by
    obtain ⟨t, ht, hsend⟩ := h.acknowledged p hp
    exact ⟨t, hadvance.mem_transmitted t ht, hsend⟩
  obtain heq | ⟨k, id, hstage, _, _, heq⟩ := hadvance.acknowledged_eq <;> rw [heq] at hp
  · exact hold hp
  · obtain rfl | hp := List.mem_cons.1 hp
    · obtain ⟨t, ht, hsend⟩ := h.sending i s k hs hstage
      exact ⟨t, hadvance.mem_transmitted t ht, hsend⟩
    · exact hold hp

theorem raced_advance (h : b.Queued) (hs : b.sends[i]? = some s)
    (hsends : b'.sends = b.sends.modify i fun _ => s')
    (hadvance : Advance timeoutMs b b' i s action s') (j : Nat) (t : Send) (id : Option JsString)
    (ht : b'.sends[j]? = some t) (hwon : t.outcome = some (.acknowledged id)) :
    (j, id) ∈ b'.acknowledged := by
  rw [hsends] at ht
  obtain ⟨rfl, rfl⟩ | ⟨_, ht⟩ := getElem?_modify_const ht
  · obtain hwon | rfl := hadvance.outcome hwon
    · exact hadvance.mem_acknowledged _ (h.raced j s id hs hwon)
    · cases hadvance with
      | acknowledge k id hstage hlogs =>
        have heq : b'.acknowledged = (j, id) :: b.acknowledged :=
          (Prod.mk.inj (Prod.mk.inj hlogs).2).2
        rw [heq]
        exact List.mem_cons_self
  · exact hadvance.mem_acknowledged _ (h.raced j t id ht hwon)

/-- A send advances. -/
theorem queued_advance (h : b.Queued) (hs : b.sends[i]? = some s)
    (hsends : b'.sends = b.sends.modify i fun _ => s')
    (hadvance : Advance timeoutMs b b' i s action s') : b'.Queued where
  ordered := ordered_advance h hs hsends hadvance
  once := once_advance h hs hadvance
  past := past_advance h hs hsends hadvance
  sending := sending_advance h hs hsends hadvance
  acknowledged := acknowledged_advance h hs hadvance
  raced := raced_advance h hs hsends hadvance
  told j t r ht hanswer hok := by
    rw [hsends] at ht
    obtain ⟨rfl, rfl⟩ | ⟨_, ht⟩ := getElem?_modify_const ht
    · exact hadvance.told hanswer hok fun hbefore => h.told j s r hs hbefore hok
    · exact h.told j t r ht hanswer hok

end

theorem queued_step (h : b.Queued) (hstep : b.step timeoutMs action = some b') : b'.Queued := by
  cases hsend : action.isSend with
  | false => exact h.of_outbound (outbound_of_not_isSend hstep hsend)
  | true =>
    obtain ⟨message, _, hsends, hlogs⟩ | ⟨i, s, s', hs, hsends, hadvance⟩ :=
      send_cases hstep hsend
    · exact queued_send h hsends hlogs
    · exact queued_advance h hs hsends hadvance

/-- Of two sends under way one is the other. -/
theorem Queued.unique (h : b.Queued) {i j : Nat} {s t : Send} (hs : b.sends[i]? = some s)
    (ht : b.sends[j]? = some t) (hsStarted : s.hasStarted = true) (htStarted : t.hasStarted = true)
    (hsOpen : s.isReleased = false) (htOpen : t.isReleased = false) : i = j := by
  rcases Nat.lt_trichotomy i j with hlt | heq | hlt
  · have hreleased := h.ordered i j s t hlt hs ht htStarted
    rw [hsOpen] at hreleased
    cases hreleased
  · exact heq
  · have hreleased := h.ordered j i t s hlt ht hs hsStarted
    rw [htOpen] at hreleased
    cases hreleased

theorem Queued.serial (h : b.Queued) : b.Serial where
  exclusive i j s t hs ht husesS husesT := by
    have hnot {u : Send} (huses : u.usesSocket = true) : u.isReleased = false := by
      unfold Send.usesSocket at huses
      unfold Send.isReleased
      grind
    have hstarted {u : Send} (huses : u.usesSocket = true) : u.hasStarted = true := by
      unfold Send.usesSocket at huses
      unfold Send.hasStarted
      grind
    exact h.unique hs ht (hstarted husesS) (hstarted husesT) (hnot husesS) (hnot husesT)
  ordered := h.ordered
  once := h.once
  own t ht := by
    obtain ⟨s, hs, htext, _⟩ := h.past t ht
    exact ⟨s, hs, htext⟩
  honest i s r hs hanswer hok := by
    have hacknowledged := h.raced i s r.wamid hs (h.told i s r hs hanswer hok)
    exact ⟨hacknowledged, h.acknowledged _ hacknowledged⟩

/-- In every run the sends use the socket one at a time and in order, each passes its message on
once at most, and an `ok` answers an acknowledgement of its own. -/
theorem serial_of_run (timeoutMs : JsString) (as : List Action) (b : WhatsAppBaileysBackend)
    (hrun : run (step timeoutMs) {} as = some b) : b.Serial :=
  (invariant (fun _ _ _ h hstep => queued_step h hstep) queued_init hrun).serial

/-- The backend connects. -/
def connected : List Action :=
  [.connection .connect, .connection (.build 0 (.ok false)), .connection (.subscribe 0),
    .connection (.update 0 .opened), .connection (.resume 0 {})]

/-- Two messages to oneself; the first times out before it is acknowledged. -/
def twoSends : List Action :=
  connected ++ [.send ⟨js "1@lid", false, js "a"⟩, .send ⟨js "1@lid", false, js "b"⟩, .start 0,
    .transmit 0, .sendTimeout 0, .answer 0, .acknowledge 0 (some (js "A")), .start 1, .transmit 1,
    .acknowledge 1 (some (js "B")), .answer 1]

theorem serial_of_run_twoSends : ∃ b, run (step (js "30000")) {} twoSends = some b ∧ b.Serial := by
  have hsome : (run (step (js "30000")) {} twoSends).isSome = true := by decide +kernel
  obtain ⟨b, hrun⟩ := Option.isSome_iff_exists.1 hsome
  exact ⟨b, hrun, serial_of_run (js "30000") twoSends b hrun⟩

end WhatsAppBaileysBackend
end TheokitGateways.WhatsApp.Baileys
