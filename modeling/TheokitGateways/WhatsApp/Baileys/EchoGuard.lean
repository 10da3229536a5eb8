import TheokitGateways.WhatsApp.Baileys.SendQueue

/-!
# The echo guard

WhatsApp hands back what the account itself sent. The ids of sent messages are
remembered so that they are not answered, but an id is remembered only as its
caller is answered with it: not before that, and never when the send has timed
out. `Timely` says that the echo of a message does not come before, and that a
message of somebody else does not carry the id of one's own.
-/

namespace TheokitGateways.WhatsApp.Baileys
open Js Gateway Records Transition

/-- The race of a send was won by an acknowledgement with this id. -/
def Send.isAcknowledged (s : Send) (id : JsString) : Bool :=
  match s.outcome with
  | some (.acknowledged (some wamid)) => wamid = id
  | _ => false

namespace WhatsAppBaileysBackend

/-- The ids that the calls of `sendMessage` produced, the newest first. -/
def produced (b : WhatsAppBaileysBackend) : List JsString := b.acknowledged.filterMap (·.2)

/-- No message that went to a handler has one of the ids produced last. -/
def Guarded (b : WhatsAppBaileysBackend) : Prop :=
  ∀ d ∈ b.deliveries, d.event.wamid ∉ b.produced.take sentWamidWindow

/-- An id that `sendMessage` answers is new, comes in time and was not dispatched before; and a
message with such an id comes from the account itself, once the id is remembered. -/
def Timely (b : WhatsAppBaileysBackend) : Action → Prop
  | .acknowledge i (some id) => (∀ s ∈ b.sends[i]?, s.outcome.isNone = true) ∧
      id ∉ b.sentWamids ∧ ∀ d ∈ b.deliveries, d.event.wamid ≠ id
  | .dispatch => ∀ raw ∈ b.batch.bind (·.rest.head?), ∀ id ∈ b.produced.take sentWamidWindow,
      wamidOf raw = some id → isFromMe raw = true ∧
        ∀ s ∈ b.sends, s.isAcknowledged id = true → s.answer.isSome = true
  | _ => True

instance (b : WhatsAppBaileysBackend) : ∀ action, Decidable (b.Timely action)
  | .acknowledge _ (some _) => inferInstanceAs (Decidable (_ ∧ _ ∧ _))
  | .dispatch => inferInstanceAs (Decidable (∀ raw ∈ b.batch.bind (·.rest.head?), _))
  | .acknowledge _ none | .connection _ | .upsert .. | .cutShort | .onInbound _ | .offInbound _
  | .send _ | .start _ | .lookedUp .. | .transmit _ | .fail .. | .sendTimeout _ | .answer _ =>
    inferInstanceAs (Decidable True)

/-- An id was produced and its caller has not been answered. -/
def IsPending (b : WhatsAppBaileysBackend) (id : JsString) : Prop :=
  ∃ (i : Nat) (s : Send), b.sends[i]? = some s ∧ s.outcome = some (.acknowledged (some id)) ∧
    s.answer = none

/-- What is remembered, up to an id that is still to be. -/
def Remembers (b : WhatsAppBaileysBackend) : Prop :=
  ∃ ids, b.sentWamids = (ids.take sentWamidWindow).reverse ∧
    ((b.produced = ids ∧ ∀ id, ¬b.IsPending id) ∨
      ∃ id, b.produced = id :: ids ∧ b.IsPending id ∧ id ∉ b.sentWamids)

/-- What every timely step keeps. -/
structure Watchful (b : WhatsAppBaileysBackend) : Prop where
  queued : b.Queued
  begun : ∀ (i : Nat) (s : Send), b.sends[i]? = some s → s.outcome.isSome = true →
    s.hasStarted = true
  answered : ∀ (i : Nat) (s : Send), b.sends[i]? = some s → s.answer.isSome = true →
    s.outcome.isSome = true ∨ s.stage = .free
  remembers : b.Remembers
  guarded : b.Guarded

variable {timeoutMs : JsString} {b b' : WhatsAppBaileysBackend} {action : Action}

/-- A new id takes the place of the oldest one. -/
theorem rememberSent_take {ids : List JsString} {id : JsString}
    (h : id ∉ (ids.take sentWamidWindow).reverse) :
    rememberSent (ids.take sentWamidWindow).reverse id =
      ((id :: ids).take sentWamidWindow).reverse := by
  have hadded : (if (ids.take sentWamidWindow).reverse.contains id
      then (ids.take sentWamidWindow).reverse
      else (ids.take sentWamidWindow).reverse ++ [id]) =
        (id :: ids.take sentWamidWindow).reverse := by
    rw [if_neg (by rwa [List.contains_iff_mem]), List.reverse_cons]
  have hwindow (w : Nat) : (id :: ids.take w).take w = (id :: ids).take w := by
    cases w with
    | zero => rfl
    | succ w => rw [List.take_succ_cons, List.take_succ_cons, List.take_take,
      Nat.min_eq_left (by omega)]
  unfold rememberSent
  dsimp only
  rw [hadded, List.length_reverse, ← List.reverse_take, hwindow]

theorem not_isReleased_of_answer {s : Send} (h : s.answer = none) : s.isReleased = false := by
  rw [Send.isReleased, h]
  rfl

/-- What is pending depends on the sends, and what is remembered on the records too. -/
theorem Remembers.of_outbound (h : b.Remembers) (hsame : b'.outbound = b.outbound) :
    b'.Remembers := by
  simp only [outbound, Prod.mk.injEq] at hsame
  obtain ⟨hsends, hwamids, _, hacknowledged⟩ := hsame
  unfold Remembers IsPending produced
  rw [hsends, hwamids, hacknowledged]
  exact h

/-- A message that is dispatched in time does not have an id produced last. -/
theorem guarded_delivery (h : b.Watchful) {raw : RawEnvelope} {e : WhatsAppInboundEvent}
    (hnormalize : normalizeBaileysMessage raw
      { selfJids := some b.conn.selfJids, sentWamids := some b.sentWamids } = .ok (some e))
    (htimely : ∀ id ∈ b.produced.take sentWamidWindow, wamidOf raw = some id →
      isFromMe raw = true ∧ ∀ s ∈ b.sends, s.isAcknowledged id = true →
        s.answer.isSome = true) :
    e.wamid ∉ b.produced.take sentWamidWindow := by
  intro hmem
  obtain ⟨hfrom, hanswered⟩ := htimely e.wamid hmem (wamidOf_of_normalize hnormalize)
  have hforgotten : e.wamid ∉ b.sentWamids := not_mem_sentWamids hnormalize hfrom
  obtain ⟨ids, hwamids, ⟨hproduced, _⟩ | ⟨id, hproduced, ⟨i, s, hs, hwon, hopen⟩, _⟩⟩ :=
    h.remembers
  · refine hforgotten ?_
    rw [hwamids, List.mem_reverse, ← hproduced]
    exact hmem
  · rw [hproduced] at hmem
    have hmem : e.wamid = id ∨ e.wamid ∈ ids.take (sentWamidWindow - 1) := by
      simpa [sentWamidWindow] using hmem
    obtain rfl | hmem := hmem
    · have htold := hanswered s (List.mem_of_getElem? hs) (by simp [Send.isAcknowledged, hwon])
      rw [hopen] at htold
      cases htold
    · refine hforgotten ?_
      rw [hwamids, List.mem_reverse]
      exact (List.take_sublist_take_left (by simp [sentWamidWindow])).subset hmem

/-- A send is pending with an id. -/
def Waits (s : Send) (id : JsString) : Prop :=
  s.outcome = some (.acknowledged (some id)) ∧ s.answer = none

/-- A send that advances is pending as before. -/
theorem isPending_advance {i : Nat} {s s' : Send} (hs : b.sends[i]? = some s)
    (hsends : b'.sends = b.sends.modify i fun _ => s')
    (hsame : ∀ id, Waits s' id ↔ Waits s id) (id : JsString) :
    b'.IsPending id ↔ b.IsPending id := by
  unfold IsPending
  rw [hsends]
  constructor
  · rintro ⟨j, t, ht, hwaits⟩
    obtain ⟨u, hu, rfl⟩ := getElem?_modify_eq_some.1 ht
    by_cases hij : i = j
    · subst hij
      rw [if_pos rfl] at hwaits
      exact ⟨i, s, hs, (hsame id).1 hwaits⟩
    · rw [if_neg hij] at hwaits
      exact ⟨j, u, hu, hwaits⟩
  · rintro ⟨j, t, ht, hwaits⟩
    refine ⟨j, _, getElem?_modify_eq_some.2 ⟨t, ht, rfl⟩, ?_⟩
    by_cases hij : i = j
    · subst hij
      obtain rfl := Option.some.inj (ht.symm.trans hs)
      rw [if_pos rfl]
      exact (hsame id).2 hwaits
    · rw [if_neg hij]
      exact hwaits

theorem Remembers.congr (h : b.Remembers) (hwamids : b'.sentWamids = b.sentWamids)
    (hproduced : b'.produced = b.produced) (hpending : ∀ id, b'.IsPending id ↔ b.IsPending id) :
    b'.Remembers := by
  unfold Remembers
  simp only [hwamids, hproduced, hpending]
  exact h

/-- The race is not won by an acknowledgement with an id. -/
theorem waits_settle {s : Send} {outcome : Outcome}
    (hne : ∀ id, outcome ≠ .acknowledged (some id)) (id : JsString) :
    Waits (s.settle outcome) id ↔ Waits s id := by
  unfold Waits Send.settle
  cases hs : s.outcome with
  | none => simp [hne id]
  | some o => simp

/-- No other caller waits for its answer while a send is inside `sendMessage`. -/
theorem Watchful.not_isPending (h : b.Watchful) {i k : Nat} {s : Send}
    (hs : b.sends[i]? = some s) (hstage : s.stage = .sending k) (hnone : s.outcome = none)
    (id : JsString) : ¬b.IsPending id := by
  rintro ⟨j, t, ht, hwon, hopen⟩
  have hij := h.queued.unique hs ht (by rw [Send.hasStarted, hstage])
    (h.begun j t ht (by rw [hwon]; rfl)) (by rw [Send.isReleased, hstage, Bool.and_false])
    (not_isReleased_of_answer hopen)
  subst hij
  obtain rfl := Option.some.inj (hs.symm.trans ht)
  rw [hnone] at hwon
  cases hwon

/-- An id comes in time and waits to be remembered. -/
theorem remembers_acknowledge (h : b.Watchful) {i k : Nat} {s : Send} {id : JsString}
    (hs : b.sends[i]? = some s) (hstage : s.stage = .sending k) (hnone : s.outcome = none)
    (hfresh : id ∉ b.sentWamids)
    (hsends : b'.sends = b.sends.modify i fun _ => s.release (.acknowledged (some id)))
    (hopen : s.answer = none) (hwamids : b'.sentWamids = b.sentWamids)
    (hacknowledged : b'.acknowledged = (i, some id) :: b.acknowledged) : b'.Remembers := by
  obtain ⟨ids, hids, ⟨hproduced, _⟩ | ⟨id', _, hpending, _⟩⟩ := h.remembers
  · refine ⟨ids, hwamids.trans hids,
      .inr ⟨id, ?_, ⟨i, s.release (.acknowledged (some id)), ?_, ?_, hopen⟩, ?_⟩⟩
    · rw [produced, hacknowledged, ← hproduced]
      rfl
    · rw [hsends]
      exact getElem?_modify_eq_some.2 ⟨s, hs, by simp⟩
    · show s.outcome.or _ = _
      rw [hnone]
      rfl
    · rwa [hwamids]
  · exact absurd hpending (h.not_isPending hs hstage hnone id')

/-- The id that waits is remembered as its caller is answered. -/
theorem remembers_answer (h : b.Watchful) {i : Nat} {s s' : Send} {id : JsString}
    (hs : b.sends[i]? = some s) (hopen : s.answer = none)
    (hwon : s.outcome = some (.acknowledged (some id))) (hanswered : s'.answer.isSome = true)
    (hsends : b'.sends = b.sends.modify i fun _ => s')
    (hwamids : b'.sentWamids = rememberSent b.sentWamids id)
    (hacknowledged : b'.acknowledged = b.acknowledged) : b'.Remembers := by
  have hstarted := h.begun i s hs (by rw [hwon]; rfl)
  have honly {j : Nat} {t : Send} {id' : JsString} (ht : b.sends[j]? = some t)
      (htwon : t.outcome = some (.acknowledged (some id'))) (htopen : t.answer = none) :
      i = j := h.queued.unique hs ht hstarted (h.begun j t ht (by rw [htwon]; rfl))
    (not_isReleased_of_answer hopen) (not_isReleased_of_answer htopen)
  obtain ⟨ids, hids, ⟨_, hnone⟩ | ⟨id', hproduced, ⟨j, t, ht, htwon, htopen⟩, hfresh⟩⟩ :=
    h.remembers
  · exact absurd ⟨i, s, hs, hwon, hopen⟩ (hnone id)
  · obtain rfl := honly ht htwon htopen
    obtain rfl := Option.some.inj (hs.symm.trans ht)
    obtain rfl : id = id' := by
      rw [hwon] at htwon
      simpa using htwon
    rw [hids] at hfresh hwamids
    refine ⟨id :: ids, hwamids.trans (rememberSent_take hfresh), .inl ⟨?_, ?_⟩⟩
    · rw [← hproduced, produced, produced, hacknowledged]
    · rintro id' ⟨j, u, hu, huwon, huopen⟩
      rw [hsends] at hu
      obtain ⟨v, hv, rfl⟩ := getElem?_modify_eq_some.1 hu
      by_cases hij : i = j
      · rw [if_pos hij] at huopen
        rw [huopen] at hanswered
        cases hanswered
      · rw [if_neg hij] at huwon huopen
        exact hij (honly hv huwon huopen)

/-- A send that has not started was not answered, and its race has not begun. -/
theorem Watchful.fresh (h : b.Watchful) {i : Nat} {s : Send} (hs : b.sends[i]? = some s)
    (hstage : s.stage = .queued) : s.outcome = none ∧ s.answer = none := by
  have houtcome : s.outcome = none := by
    refine Option.not_isSome_iff_eq_none.1 fun hsome => ?_
    have hstarted := h.begun i s hs hsome
    rw [Send.hasStarted, hstage] at hstarted
    cases hstarted
  refine ⟨houtcome, Option.not_isSome_iff_eq_none.1 fun hsome => ?_⟩
  obtain hwon | hfree := h.answered i s hs hsome
  · rw [houtcome] at hwon
    cases hwon
  · rw [hstage] at hfree
    cases hfree

/-- What an advance keeps of the send itself. -/
theorem begun_advance (h : b.Watchful) {i : Nat} {s s' : Send} (hs : b.sends[i]? = some s)
    (hadvance : Advance timeoutMs b b' i s action s') :
    (s'.outcome.isSome = true → s'.hasStarted = true) ∧
      (s'.answer.isSome = true → s'.outcome.isSome = true ∨ s'.stage = .free) := by
  have hbegun := h.begun i s hs
  have hanswered := h.answered i s hs
  cases hadvance with
  | start hstage =>
    obtain ⟨houtcome, hanswer⟩ := h.fresh hs hstage
    obtain ⟨stage, heq, _⟩ | ⟨r, heq, _⟩ := b.sendNow_eq s <;> rw [heq]
    · simp [houtcome, hanswer]
    · simp [houtcome]
  | lookedUp k jid hstage | transmit k jid hstage =>
    refine ⟨fun _ => rfl, fun hsome => .inl ?_⟩
    obtain hwon | hfree := hanswered hsome
    · exact hwon
    · rw [hstage] at hfree
      cases hfree
  | unroutable | acknowledge | fail => exact ⟨fun _ => rfl, fun _ => .inr rfl⟩
  | timeout hstage hnone =>
    refine ⟨fun _ => ?_, fun hsome => ?_⟩
    · unfold Send.hasStarted Send.settle
      split
      · contradiction
      · rfl
    · rw [show (s.settle .timeout).answer = s.answer from rfl, hnone] at hsome
      cases hsome
  | answer outcome _ hwon => exact ⟨hbegun, fun _ => .inl (by rw [hwon]; rfl)⟩

/-- An advance leaves what is remembered fit, when an acknowledgement comes in time. -/
theorem remembers_advance (h : b.Watchful) (hC : b.Timely action) {i : Nat} {s s' : Send}
    (hs : b.sends[i]? = some s) (hsends : b'.sends = b.sends.modify i fun _ => s')
    (hadvance : Advance timeoutMs b b' i s action s') : b'.Remembers := by
  have hsame (hlogs : b'.logs = b.logs) (hwaits : ∀ id, Waits s' id ↔ Waits s id) :
      b'.Remembers := by
    simp only [logs, Prod.mk.injEq] at hlogs
    exact h.remembers.congr hlogs.1 (by rw [produced, produced, hlogs.2.2])
      (isPending_advance hs hsends hwaits)
  cases hadvance with
  | start hstage _ hlogs =>
    obtain ⟨houtcome, _⟩ := h.fresh hs hstage
    refine hsame hlogs fun id => ?_
    obtain ⟨stage, heq, _⟩ | ⟨r, heq, _⟩ := b.sendNow_eq s <;> simp [heq, Waits, houtcome]
  | lookedUp k jid _ hlogs => exact hsame hlogs fun id => Iff.rfl
  | unroutable k _ hlogs => exact hsame hlogs (waits_settle (by intro id h; cases h))
  | fail k err _ hlogs => exact hsame hlogs (waits_settle (by intro id h; cases h))
  | timeout _ _ hlogs => exact hsame hlogs (waits_settle (by intro id h; cases h))
  | transmit k jid _ hlogs =>
    simp only [logs, Prod.mk.injEq] at hlogs
    exact h.remembers.congr hlogs.1 (by rw [produced, produced, hlogs.2.2])
      (isPending_advance hs hsends fun id => Iff.rfl)
  | acknowledge k id hstage hlogs =>
    simp only [logs, Prod.mk.injEq] at hlogs
    cases id with
    | none =>
      exact h.remembers.congr hlogs.1 (by rw [produced, produced, hlogs.2.2]; rfl)
        (isPending_advance hs hsends (waits_settle (by intro id h; cases h)))
    | some id =>
      obtain ⟨hunraced, hfresh, _⟩ := hC
      have hnone := Option.isNone_iff_eq_none.1 (hunraced s hs)
      have hopen : s.answer = none := by
        refine Option.not_isSome_iff_eq_none.1 fun hsome => ?_
        obtain hwon | hfree := h.answered i s hs hsome
        · rw [hnone] at hwon
          cases hwon
        · rw [hstage] at hfree
          cases hfree
      exact remembers_acknowledge h hs hstage hnone hfresh hsends hopen hlogs.1 hlogs.2.2
  | answer outcome hopen hwon hlogs =>
    have hlogs' := hlogs
    simp only [logs, Prod.mk.injEq] at hlogs'
    split at hlogs'
    · exact remembers_answer h hs hopen hwon rfl hsends hlogs'.1 hlogs'.2.2
    · rename_i hne
      refine h.remembers.congr hlogs'.1 (by rw [produced, produced, hlogs'.2.2])
        (isPending_advance hs hsends fun id => ?_)
      have hnot : ¬Waits s id := fun hwaits =>
        hne id (Option.some.inj (hwon.symm.trans hwaits.1))
      exact iff_of_false (fun hwaits => by cases hwaits.2) hnot

/-- No id that an advance produces was dispatched. -/
theorem guarded_advance (h : b.Watchful) (hC : b.Timely action) {i : Nat} {s s' : Send}
    (hadvance : Advance timeoutMs b b' i s action s') (hdeliveries : b'.deliveries = b.deliveries) :
    b'.Guarded := by
  intro d hd
  rw [hdeliveries] at hd
  have hbefore := h.guarded d hd
  obtain heq | ⟨k, id, _, rfl, _, heq⟩ := hadvance.acknowledged_eq
  · rw [produced, heq]
    exact hbefore
  · cases id with
    | none =>
      rw [produced, heq]
      exact hbefore
    | some id =>
      have hproduced : b'.produced = id :: b.produced := by
        rw [produced, heq]
        rfl
      intro hmem
      have hmem : d.event.wamid = id ∨ d.event.wamid ∈ b.produced.take (sentWamidWindow - 1) := by
        rw [hproduced] at hmem
        simpa [sentWamidWindow] using hmem
      obtain heq | hmem := hmem
      · exact hC.2.2 d hd heq
      · exact hbefore ((List.take_subset_take_left _ (by simp [sentWamidWindow])) hmem)

theorem watchful_init : Watchful {} where
  queued := queued_init
  begun _ _ h := nomatch h
  answered _ _ h := nomatch h
  remembers := ⟨[], rfl, .inl ⟨rfl, fun _ ⟨_, _, h, _⟩ => nomatch h⟩⟩
  guarded _ h := nomatch h

theorem watchful_step (h : b.Watchful) (hC : b.Timely action)
    (hstep : b.step timeoutMs action = some b') : b'.Watchful := by
  have hqueued := queued_step h.queued hstep
  cases hsend : action.isSend with
  | false =>
    have hsame := outbound_of_not_isSend hstep hsend
    have hfields := hsame
    simp only [outbound, Prod.mk.injEq] at hfields
    obtain ⟨hsends, _, _, hacknowledged⟩ := hfields
    refine ⟨hqueued, hsends ▸ h.begun, hsends ▸ h.answered, h.remembers.of_outbound hsame, ?_⟩
    have hproduced : b'.produced = b.produced := by rw [produced, produced, hacknowledged]
    unfold Guarded
    rw [hproduced]
    obtain heq | ⟨batch, raw, rest, d, rfl, hbatch, hrest, heq, hnormalize⟩ :=
      deliveries_step hstep hsend
    · rw [heq]
      exact h.guarded
    · rw [heq]
      refine List.forall_mem_cons.2 ⟨?_, h.guarded⟩
      exact guarded_delivery h hnormalize (hC raw (by simp [hbatch, hrest]))
  | true =>
    have hinbound := inbound_of_isSend hstep hsend
    simp only [inbound, Prod.mk.injEq] at hinbound
    obtain ⟨_, _, _, hdeliveries⟩ := hinbound
    obtain ⟨message, rfl, hsends, hlogs⟩ | ⟨i, s, s', hs, hsends, hadvance⟩ :=
      send_cases hstep hsend
    · simp only [logs, Prod.mk.injEq] at hlogs
      have hproduced : b'.produced = b.produced := by rw [produced, produced, hlogs.2.2]
      have hnew {j : Nat} {t : Send} (ht : b'.sends[j]? = some t) :
          b.sends[j]? = some t ∨ t = { message := message } := by
        rw [hsends] at ht
        obtain ht | ⟨_, rfl⟩ := getElem?_append_singleton.1 ht
        · exact .inl ht
        · exact .inr rfl
      refine ⟨hqueued, fun j t ht hwon => ?_, fun j t ht hanswer => ?_, ?_, ?_⟩
      · obtain ht | rfl := hnew ht
        · exact h.begun j t ht hwon
        · cases hwon
      · obtain ht | rfl := hnew ht
        · exact h.answered j t ht hanswer
        · cases hanswer
      · refine h.remembers.congr hlogs.1 hproduced fun id => ⟨?_, ?_⟩
        · rintro ⟨j, t, ht, hwon, hopen⟩
          obtain ht | rfl := hnew ht
          · exact ⟨j, t, ht, hwon, hopen⟩
          · cases hwon
        · rintro ⟨j, t, ht, hwaits⟩
          exact ⟨j, t, by rw [hsends]; exact getElem?_append_singleton.2 (.inl ht), hwaits⟩
      · unfold Guarded
        rw [hproduced, hdeliveries]
        exact h.guarded
    · have hself := begun_advance h hs hadvance
      have hnew {j : Nat} {t : Send} (ht : b'.sends[j]? = some t) :
          b.sends[j]? = some t ∨ t = s' := by
        rw [hsends] at ht
        obtain ⟨_, rfl⟩ | ⟨_, ht⟩ := getElem?_modify_const ht
        · exact .inr rfl
        · exact .inl ht
      refine ⟨hqueued, fun j t ht => ?_, fun j t ht => ?_,
        remembers_advance h hC hs hsends hadvance, guarded_advance h hC hadvance hdeliveries⟩
      · obtain ht | rfl := hnew ht
        · exact h.begun j t ht
        · exact hself.1
      · obtain ht | rfl := hnew ht
        · exact h.answered j t ht
        · exact hself.2

/-- In a run in which the echo of a message comes after its caller was answered, no message with
one of the ids produced last goes to a handler. -/
theorem guarded_of_timely (timeoutMs : JsString) (as : List Action) (b : WhatsAppBaileysBackend)
    (hrun : run (step timeoutMs) {} as = some b) (htimely : Meets (step timeoutMs) Timely {} as) :
    b.Guarded :=
  (invariant_of_meets (fun _ _ _ h hC hstep => watchful_step h hC hstep) watchful_init htimely
    hrun).guarded

/-- The account's own message `W` in its chat with itself, as the server hands it back. -/
def echo : RawEnvelope where
  json := .object
    [(js "key", .object [(js "remoteJid", .string (js "1@lid")), (js "id", .string (js "W")),
      (js "fromMe", .bool true)]),
    (js "message", .object [(js "conversation", .string (js "a"))]),
    (js "messageTimestamp", .number (1 : JsNumber))]

/-- The account is logged in, its messages are answered, and it sends itself one. -/
def selfChat : List Action :=
  [.connection .connect, .connection (.build 0 (.ok false)), .connection (.subscribe 0),
    .connection (.update 0 .opened), .connection (.resume 0 { lid := some (js "1@lid") }),
    .onInbound 0, .send ⟨js "1@lid", false, js "a"⟩, .start 0, .transmit 0]

/-- The server hands the message back. -/
def echoed : List Action := [.upsert 0 (some (js "notify")) [echo], .dispatch]

theorem guarded_of_timely_selfChat : ∃ b, run (step (js "30000")) {}
    (selfChat ++ [.acknowledge 0 (some (js "W")), .answer 0] ++ echoed) = some b ∧ b.Guarded := by
  have hsome : (run (step (js "30000")) {}
    (selfChat ++ [.acknowledge 0 (some (js "W")), .answer 0] ++ echoed)).isSome = true := by
    decide +kernel
  obtain ⟨b, hrun⟩ := Option.isSome_iff_exists.1 hsome
  exact ⟨b, hrun, guarded_of_timely (js "30000") _ b hrun (by decide +kernel)⟩

/-- A message that is acknowledged after its send has timed out is answered when it comes back. -/
theorem timed_out_send_echoes : ¬ ∀ (timeoutMs : JsString) (as : List Action)
    (b : WhatsAppBaileysBackend), run (step timeoutMs) {} as = some b → b.Guarded := by
  intro h
  have hsome : ((run (step (js "30000")) {} (selfChat ++ [.sendTimeout 0, .answer 0,
      .acknowledge 0 (some (js "W"))] ++ echoed)).any fun b =>
        b.deliveries.any fun d => (b.produced.take sentWamidWindow).contains d.event.wamid) =
      true := by
    decide +kernel
  obtain ⟨b, hrun, hany⟩ := (Option.any_eq_true _ _).1 hsome
  obtain ⟨d, hd, hcontains⟩ := List.any_eq_true.1 hany
  exact h (js "30000") _ b hrun d hd (List.contains_iff_mem.1 hcontains)

end WhatsAppBaileysBackend
end TheokitGateways.WhatsApp.Baileys
