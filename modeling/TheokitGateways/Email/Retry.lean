import TheokitGateways.Email.Flagging

/-!
# Flagging again what the server refused

A UID whose `markSeen` failed should be offered again by a later drain that still
lists it, and no UID that is finished with should be forgotten while it is not
flagged. What is offered leaves `pendingSeen`, and only a UID that `seenUids` does
not hold is dispatched, so finished, again. `Released` says of a refusal that it
concerns such UIDs only.
-/

namespace TheokitGateways.Email
open Js Gateway History Transition

namespace Event

def offers (uid : Nat) : Event → Bool
  | offered uids => uid ∈ uids
  | _ => false

def refuses (uid : Nat) : Event → Bool
  | refused uids => uid ∈ uids
  | _ => false

end Event

namespace Turn

def dispatches (uid : Nat) : Turn → Bool
  | parsing msg => msg.uid = uid
  | handling x _ => x = uid
  | marking .. => false

def marks (uid : Nat) : Turn → Bool
  | marking uids _ => uid ∈ uids
  | _ => false

end Turn

/-- The last `markSeen` of the UID failed. -/
def Awaiting (uid : Nat) : List Event → Prop := Open (Event.refuses uid) (Event.offers uid)

/-- A drain listed the UID while it was awaiting its flag; `since` is what has happened since. -/
def Owes (log : List Event) (drain uid : Nat) (since : List Event) : Prop :=
  ∃ uids before, log = since ++ .listed drain uids :: before ∧ uid ∈ uids ∧ Awaiting uid before

/-- A drain that is over has offered every awaiting UID it listed. -/
def Reoffered : List Event → Prop :=
  Each fun e past => ∀ drain uid since, e = .ended drain → Owes past drain uid since →
    since.any (·.offers uid) = true

def WasFlagged (uid : Nat) (log : List Event) : Prop := ∃ uids, .flagged uids ∈ log ∧ uid ∈ uids

/-- A message with the UID is dispatched before the flush of a drain. -/
def dispatchedBefore (drain uid : Nat) : List Job → Bool
  | [] => false
  | .dispatch msg :: jobs => msg.uid = uid || dispatchedBefore drain uid jobs
  | .flush d :: jobs => d ≠ drain && dispatchedBefore drain uid jobs

namespace Inbox

/-- The UID waits for its flag or is being dispatched, or it will be if `listed`. -/
def Due (b : Inbox) (uid : Nat) (listed : Prop) : Prop :=
  uid ∈ b.pendingSeen ∨ b.turn.any (·.dispatches uid) = true ∨
    b.seenUids.has uid = false ∧ listed

/-- The UID is not forgotten: at the latest the next drain that lists it takes it up. -/
def Keeps (b : Inbox) (uid : Nat) : Prop := b.Due uid True

/-- Flagging is retried. -/
structure Retries (b : Inbox) : Prop where
  reoffered : Reoffered b.log
  remembered : ∀ uid, .finished uid ∈ b.log →
    WasFlagged uid b.log ∨ b.turn.any (·.marks uid) = true ∨ b.Keeps uid

end Inbox

/-- A refused `markSeen` is of UIDs that `seenUids` does not hold. -/
def Released (a : EmailAdapter) : Action → Prop
  | .marked (.error _) => ∀ uids drain, a.inbox.turn = some (.marking uids drain) →
      ∀ uid ∈ uids, a.inbox.seenUids.has uid = false
  | _ => True

theorem owes_cons {log since : List Event} {e : Event} {drain uid : Nat}
    (h : Owes (e :: log) drain uid since) :
    (since = [] ∧ Awaiting uid log ∧ ∃ uids, e = .listed drain uids ∧ uid ∈ uids) ∨
      ∃ later, since = e :: later ∧ Owes log drain uid later := by
  obtain ⟨uids, before, hlog, huid, hawaiting⟩ := h
  cases since with
  | nil =>
    obtain ⟨rfl, rfl⟩ := List.cons.inj hlog
    exact .inl ⟨rfl, hawaiting, uids, rfl, huid⟩
  | cons e' later =>
    obtain ⟨rfl, rfl⟩ := List.cons.inj hlog
    exact .inr ⟨later, rfl, uids, before, rfl, huid, hawaiting⟩

theorem listed_of_owes {log since : List Event} {drain uid : Nat}
    (h : Owes log drain uid since) : ∃ uids, .listed drain uids ∈ log := by
  obtain ⟨uids, before, rfl, _, _⟩ := h
  exact ⟨uids, by simp⟩

theorem dispatchedBefore_append {drain uid : Nat} {jobs : List Job}
    (h : dispatchedBefore drain uid jobs = true) (more : List Job) :
    dispatchedBefore drain uid (jobs ++ more) = true := by
  induction jobs with
  | nil => cases h
  | cons job jobs ih =>
    cases job with
    | dispatch msg =>
      simp only [dispatchedBefore, List.cons_append, Bool.or_eq_true] at h ⊢
      exact h.imp_right ih
    | flush d =>
      simp only [dispatchedBefore, List.cons_append, Bool.and_eq_true] at h ⊢
      exact ⟨h.1, ih h.2⟩

/-- A drain's own messages are dispatched before its flush. -/
theorem dispatchedBefore_drained {drain uid : Nat} {jobs : List Job} (hnew : .flush drain ∉ jobs)
    {messages : List FetchedMessage} (huid : uid ∈ messages.map (·.uid)) (more : List Job) :
    dispatchedBefore drain uid (jobs ++ (messages.map .dispatch ++ more)) = true := by
  induction jobs with
  | nil =>
    rw [List.nil_append]
    apply dispatchedBefore_append
    induction messages with
    | nil => simp at huid
    | cons msg messages ih =>
      simp only [List.map_cons, dispatchedBefore, Bool.or_eq_true, decide_eq_true_eq]
      rcases List.mem_cons.1 huid with rfl | huid
      · exact .inl rfl
      · exact .inr (ih huid)
  | cons job jobs ih =>
    have hrest := ih fun hmem => hnew (List.mem_cons_of_mem _ hmem)
    cases job with
    | dispatch msg => simp [dispatchedBefore, hrest]
    | flush d =>
      have hd : d ≠ drain := by
        rintro rfl
        exact hnew List.mem_cons_self
      simp [dispatchedBefore, hrest, hd]

namespace Inbox

/-- What every step of a run that is released keeps. -/
structure Sound (b : Inbox) : Prop where
  retries : b.Retries
  awaiting : ∀ uid, Awaiting uid b.log → b.Keeps uid
  numbered : ∀ drain uids, .listed drain uids ∈ b.log → drain < b.drains
  flushes : ∀ drain, .flush drain ∈ b.queue → drain < b.drains
  current : ∀ uids drain, b.turn = some (.marking uids drain) → drain < b.drains
  owed : ∀ drain uid since, Owes b.log drain uid since → .flush drain ∈ b.queue →
    since.any (·.offers uid) = true ∨ b.Due uid (dispatchedBefore drain uid b.queue = true)
  marking : ∀ uids drain uid since, b.turn = some (.marking uids drain) →
    Owes b.log drain uid since → since.any (·.offers uid) = true

variable {b : Inbox}

theorem Due.imp {uid : Nat} {p q : Prop} (h : b.Due uid p) (hpq : p → q) : b.Due uid q :=
  h.imp_right (·.imp_right (·.imp_right hpq))

/-- Recording an event, with what it must not contradict. -/
theorem Sound.record (h : b.Sound) {e : Event} (hlisted : ∀ drain uids, e ≠ .listed drain uids)
    (hrefused : ∀ uid, e.refuses uid = true → b.Keeps uid)
    (hfinished : ∀ uid, e = .finished uid → b.Keeps uid)
    (hended : ∀ drain uid since, e = .ended drain → Owes b.log drain uid since →
      since.any (·.offers uid) = true) : (b.record e).Sound := by
  have howes {drain uid : Nat} {since : List Event} (ho : Owes (e :: b.log) drain uid since) :
      ∃ later, since = e :: later ∧ Owes b.log drain uid later := by
    obtain ⟨_, _, uids, he, _⟩ | hlater := owes_cons ho
    · exact absurd he (hlisted drain uids)
    · exact hlater
  have hlater {later : List Event} {uid : Nat} (ha : later.any (·.offers uid) = true) :
      (e :: later).any (·.offers uid) = true := by
    rw [List.any_cons, ha, Bool.or_true]
  refine ⟨⟨⟨hended, h.retries.reoffered⟩, fun uid hf => ?_⟩, fun uid ha => ?_,
    fun drain uids hl => ?_, h.flushes, h.current, fun drain uid since ho hflush => ?_,
    fun uids drain uid since hturn ho => ?_⟩
  · obtain heq | hf := List.mem_cons.1 hf
    · exact .inr (.inr (hfinished uid heq.symm))
    · obtain ⟨uids, hmem, huid⟩ | hkept := h.retries.remembered uid hf
      · exact .inl ⟨uids, List.mem_cons_of_mem _ hmem, huid⟩
      · exact .inr hkept
  · obtain ha | ⟨_, ha⟩ := ha
    · exact hrefused uid ha
    · exact h.awaiting uid ha
  · obtain heq | hl := List.mem_cons.1 hl
    · exact absurd heq.symm (hlisted drain uids)
    · exact h.numbered drain uids hl
  · obtain ⟨later, rfl, hlog⟩ := howes ho
    exact (h.owed drain uid later hlog hflush).imp_left hlater
  · obtain ⟨later, rfl, hlog⟩ := howes ho
    exact hlater (h.marking uids drain uid later hturn hlog)

/-- Changing the rest of the inbox so that what was due still is. -/
theorem Sound.change (h : b.Sound) {c : Inbox} (hlog : c.log = b.log) (hqueue : c.queue = b.queue)
    (hdrains : c.drains = b.drains) (hdue : ∀ uid p, b.Due uid p → c.Due uid p)
    (hmarks : ∀ uid, b.turn.any (·.marks uid) = true →
      WasFlagged uid b.log ∨ c.turn.any (·.marks uid) = true ∨ c.Keeps uid)
    (hmarking : ∀ uids drain, c.turn = some (.marking uids drain) →
      b.turn = some (.marking uids drain)) : c.Sound := by
  obtain ⟨⟨hreoffered, hremembered⟩, hawaiting, hnumbered, hflushes, hcurrent, howed, hold⟩ := h
  refine ⟨⟨hlog ▸ hreoffered, fun uid hf => ?_⟩, fun uid ha => ?_, ?_, ?_, ?_,
    fun drain uid since ho hflush => ?_, fun uids drain uid since hturn ho => ?_⟩
  · rw [hlog] at hf ⊢
    obtain hflagged | hm | hkept := hremembered uid hf
    · exact .inl hflagged
    · exact hmarks uid hm
    · exact .inr (.inr (hdue uid True hkept))
  · rw [hlog] at ha
    exact hdue uid True (hawaiting uid ha)
  · rw [hlog, hdrains]
    exact hnumbered
  · rw [hqueue, hdrains]
    exact hflushes
  · rw [hdrains]
    exact fun uids drain hturn => hcurrent uids drain (hmarking uids drain hturn)
  · rw [hlog] at ho
    rw [hqueue] at hflush ⊢
    exact (howed drain uid since ho hflush).imp_right (hdue uid _)
  · rw [hlog] at ho
    exact hold uids drain uid since (hmarking uids drain hturn) ho

theorem Sound.report (h : b.Sound) (err : JsAny) : (b.report err).Sound := by
  unfold Inbox.report
  split
  · exact h
  · exact h.change rfl rfl rfl (fun _ _ hd => hd) (fun _ hm => .inr (.inl hm)) (fun _ _ ht => ht)

theorem Sound.clear (h : b.Sound) : b.clear.Sound := by
  refine h.change rfl rfl rfl (fun uid p hd => ?_) (fun _ hm => .inr (.inl hm)) (fun _ _ ht => ht)
  exact hd.imp_right (·.imp_right fun hnew => ⟨SeenUidSet.has_empty uid, hnew.2⟩)

/-- The dispatch that runs is over, and its UID waits for its flag. -/
theorem Sound.finish (h : b.Sound) {uid : Nat}
    (hturn : ∀ t, b.turn = some t → (∀ x, t.dispatches x = true → x = uid) ∧
      ∀ x, t.marks x = false) : (b.finish uid).Sound := by
  have hidle : Sound { b with turn := none, pendingSeen := addUid b.pendingSeen uid } := by
    refine h.change rfl rfl rfl (fun x p hd => ?_) (fun x hm => ?_) (fun _ _ ht => nomatch ht)
    · obtain hx | hx | hx := hd
      · exact .inl (mem_addUid.2 (.inl hx))
      · obtain ⟨t, ht, hx⟩ := (Option.any_eq_true _ _).1 hx
        exact .inl (mem_addUid.2 (.inr ((hturn t ht).1 x hx)))
      · exact .inr (.inr hx)
    · obtain ⟨t, ht, hx⟩ := (Option.any_eq_true _ _).1 hm
      rw [(hturn t ht).2 x] at hx
      cases hx
  refine hidle.record (by simp) (fun _ hr => nomatch hr) (fun x hx => ?_) (by simp)
  obtain rfl := Event.finished.inj hx
  exact .inl (mem_addUid.2 (.inr rfl))

theorem flush_mem_append {jobs : List Job} {messages : List FetchedMessage} {drain last : Nat} :
    .flush drain ∈ jobs ++ (messages.map .dispatch ++ [.flush last]) ↔
      .flush drain ∈ jobs ∨ drain = last := by
  simp

/-- A drain's messages are chained. -/
theorem Sound.drained (h : b.Sound) (messages : List FetchedMessage) :
    (b.drained messages).Sound := by
  have hqueue : (b.drained messages).queue =
      b.queue ++ (messages.map .dispatch ++ [.flush b.drains]) := List.append_assoc ..
  refine ⟨⟨⟨fun _ _ _ heq => (nomatch heq), h.retries.reoffered⟩, fun uid hf => ?_⟩,
    fun uid ha => ?_, fun drain uids hl => ?_, fun drain hflush => ?_,
    fun uids drain hturn => Nat.lt_succ_of_lt (h.current uids drain hturn),
    fun drain uid since ho hflush => ?_, fun uids drain uid since hturn ho => ?_⟩
  · obtain heq | hf := List.mem_cons.1 hf
    · cases heq
    · obtain ⟨uids, hmem, huid⟩ | hkept := h.retries.remembered uid hf
      · exact .inl ⟨uids, List.mem_cons_of_mem _ hmem, huid⟩
      · exact .inr hkept
  · obtain ha | ⟨_, ha⟩ := ha
    · cases ha
    · exact h.awaiting uid ha
  · show drain < b.drains + 1
    obtain heq | hl := List.mem_cons.1 hl
    · cases heq
      omega
    · have hlt := h.numbered drain uids hl
      omega
  · show drain < b.drains + 1
    rw [hqueue, flush_mem_append] at hflush
    rcases hflush with hflush | rfl
    · have hlt := h.flushes drain hflush
      omega
    · omega
  · rw [hqueue, flush_mem_append] at hflush
    rw [hqueue]
    obtain ⟨rfl, hawaiting, uids, heq, huid⟩ | ⟨later, rfl, hbefore⟩ := owes_cons ho
    · cases heq
      have hnew : .flush b.drains ∉ b.queue := fun hmem => Nat.lt_irrefl _ (h.flushes _ hmem)
      exact .inr ((h.awaiting uid hawaiting).imp fun _ => dispatchedBefore_drained hnew huid _)
    · obtain ⟨uids, hlisted⟩ := listed_of_owes hbefore
      have hlt := h.numbered drain uids hlisted
      obtain hflush | rfl := hflush
      · obtain hoffered | hdue := h.owed drain uid later hbefore hflush
        · exact .inl (by rw [List.any_cons, hoffered, Bool.or_true])
        · exact .inr (hdue.imp fun hfirst => dispatchedBefore_append hfirst _)
      · omega
  · obtain ⟨_, _, x, heq, _⟩ | ⟨later, rfl, hbefore⟩ := owes_cons ho
    · cases heq
      exact absurd (h.current uids b.drains hturn) (Nat.lt_irrefl _)
    · rw [List.any_cons, h.marking uids drain uid later hturn hbefore, Bool.or_true]

/-- A message's turn comes: it is dispatched unless its UID has been seen. -/
theorem Sound.dispatch (h : b.Sound) (hidle : b.turn = none) {msg : FetchedMessage}
    {rest : List Job} (hqueue : b.queue = .dispatch msg :: rest) :
    (dispatchInboundInner { b with queue := rest } msg).Sound := by
  have hflushes {drain : Nat} (hflush : .flush drain ∈ rest) : .flush drain ∈ b.queue := by
    rw [hqueue]
    exact List.mem_cons_of_mem _ hflush
  unfold dispatchInboundInner
  split
  · rename_i hseen
    refine ⟨⟨h.retries.reoffered, h.retries.remembered⟩, h.awaiting, h.numbered,
      fun drain hf => h.flushes drain (hflushes hf),
      h.current, fun drain uid since ho hf => ?_, h.marking⟩
    refine (h.owed drain uid since ho (hflushes hf)).imp_right fun hdue => ?_
    obtain hp | hd | ⟨hnew, hfirst⟩ := hdue
    · exact .inl hp
    · exact .inr (.inl hd)
    · refine .inr (.inr ⟨hnew, ?_⟩)
      rw [hqueue] at hfirst
      simp only [dispatchedBefore, Bool.or_eq_true, decide_eq_true_eq] at hfirst
      rcases hfirst with rfl | hfirst
      · have hnot : b.seenUids.has msg.uid = true := hseen
        rw [hnew] at hnot
        cases hnot
      · exact hfirst
  · have hdue {uid : Nat} {p q : Prop} (hd : b.Due uid p) (hpq : p → msg.uid = uid ∨ q) :
        Due { b with queue := rest, seenUids := b.seenUids.add msg.uid,
                     turn := some (.parsing msg) } uid q := by
      obtain hp | hd | ⟨hnew, hp⟩ := hd
      · exact .inl hp
      · simp [hidle] at hd
      · by_cases heq : msg.uid = uid
        · exact .inr (.inl (by simp [Turn.dispatches, heq]))
        · refine .inr (.inr ⟨?_, (hpq hp).resolve_left heq⟩)
          refine Bool.eq_false_iff.2 fun hhas => ?_
          rw [SeenUidSet.has_of_add (Ne.symm heq) hhas] at hnew
          cases hnew
    refine ⟨⟨h.retries.reoffered, fun uid hf => ?_⟩, fun uid ha => ?_, h.numbered,
      fun drain hf => h.flushes drain (hflushes hf), fun _ _ ht => (nomatch ht),
      fun drain uid since ho hf => ?_, fun _ _ _ _ ht => (nomatch ht)⟩
    · obtain hflagged | hm | hkept := h.retries.remembered uid hf
      · exact .inl hflagged
      · simp [hidle] at hm
      · exact .inr (.inr (hdue hkept fun _ => .inr trivial))
    · exact hdue (h.awaiting uid ha) fun _ => .inr trivial
    · refine (h.owed drain uid since ho (hflushes hf)).imp_right fun hd => hdue hd fun hfirst => ?_
      rw [hqueue] at hfirst
      simpa [dispatchedBefore] using hfirst

/-- The turn of a drain's flush comes. -/
theorem Sound.flush (h : b.Sound) (hidle : b.turn = none) {drain : Nat} {rest : List Job}
    (hqueue : b.queue = .flush drain :: rest) (imap : Bool) :
    (flushSeen { b with queue := rest } imap drain).Sound := by
  have hflushes {d : Nat} (hflush : .flush d ∈ rest) : .flush d ∈ b.queue := by
    rw [hqueue]
    exact List.mem_cons_of_mem _ hflush
  -- nothing is dispatched before the flush, so what it owes was offered or is pending
  have hfirst {uid : Nat} {since : List Event} (ho : Owes b.log drain uid since) :
      since.any (·.offers uid) = true ∨ uid ∈ b.pendingSeen := by
    have hflush : .flush drain ∈ b.queue := hqueue ▸ List.mem_cons_self
    refine (h.owed drain uid since ho hflush).imp_right fun hd => ?_
    obtain hp | hd | ⟨_, hd⟩ := hd
    · exact hp
    · simp [hidle] at hd
    · simp [hqueue, dispatchedBefore] at hd
  have hrest : Sound { b with queue := rest } := by
    refine ⟨⟨h.retries.reoffered, h.retries.remembered⟩, h.awaiting, h.numbered,
      fun d hf => h.flushes d (hflushes hf), h.current,
      fun d uid since ho hf => ?_, h.marking⟩
    refine (h.owed d uid since ho (hflushes hf)).imp_right fun hd => hd.imp fun hbefore => ?_
    rw [hqueue] at hbefore
    simp only [dispatchedBefore, Bool.and_eq_true] at hbefore
    exact hbefore.2
  unfold flushSeen
  split
  · exact hrest
  · split
    · rename_i hempty
      refine hrest.record (by simp) (fun _ hr => nomatch hr) (by simp) fun d uid since heq ho => ?_
      cases heq
      refine (hfirst ho).resolve_right fun hp => ?_
      rw [hempty] at hp
      cases hp
    · have hoffered := hrest.record (e := .offered b.pendingSeen) (by simp)
        (fun _ hr => nomatch hr) (by simp) (by simp)
      have hoffers {uid : Nat} {later : List Event} (hp : uid ∈ b.pendingSeen) :
          (.offered b.pendingSeen :: later : List Event).any (·.offers uid) = true := by
        simp [Event.offers, hp]
      have hlater {d uid : Nat} {since : List Event}
          (ho : Owes (.offered b.pendingSeen :: b.log) d uid since) :
          ∃ later, since = .offered b.pendingSeen :: later ∧ Owes b.log d uid later := by
        obtain ⟨_, _, uids, heq, _⟩ | hlater := owes_cons ho
        · cases heq
        · exact hlater
      -- the batch leaves `pendingSeen`, and everything else that was due still is
      have hdue {uid : Nat} {p : Prop} (hd : b.Due uid p) : uid ∈ b.pendingSeen ∨
          Due { b with queue := rest, turn := some (.marking b.pendingSeen drain),
                       pendingSeen := [], log := .offered b.pendingSeen :: b.log } uid p := by
        obtain hp | hd | hnew := hd
        · exact .inl hp
        · simp [hidle] at hd
        · exact .inr (.inr (.inr hnew))
      refine ⟨⟨hoffered.retries.reoffered, fun uid hf => ?_⟩, fun uid ha => ?_, hoffered.numbered,
        hoffered.flushes, fun uids d ht => ?_, fun d uid since ho hf => ?_,
        fun uids d uid since ht ho => ?_⟩
      · obtain hflagged | hm | hkept := hoffered.retries.remembered uid hf
        · exact .inl hflagged
        · simp [Inbox.record, hidle] at hm
        · obtain hp | hkept := hdue hkept
          · exact .inr (.inl (by simp [Turn.marks, hp]))
          · exact .inr (.inr hkept)
      · obtain ha | ⟨hnot, ha⟩ := ha
        · cases ha
        · refine (hdue (h.awaiting uid ha)).resolve_left fun hp => ?_
          simp [Event.offers, hp] at hnot
      · cases ht
        exact h.flushes drain (hqueue ▸ List.mem_cons_self)
      · obtain hany | hd := hoffered.owed d uid since ho hf
        · exact .inl hany
        · refine (hdue hd).imp_left fun hp => ?_
          obtain ⟨later, rfl, _⟩ := hlater ho
          exact hoffers hp
      · cases ht
        obtain ⟨later, rfl, hlog⟩ := hlater ho
        obtain hany | hp := hfirst hlog
        · rw [List.any_cons, hany, Bool.or_true]
        · exact hoffers hp

theorem Sound.answered (h : b.Sound) {uid : Nat} {handler : Handler}
    (hturn : b.turn = some (.handling uid handler)) (settled : Except JsAny Unit) :
    (b.answered uid handler settled).Sound := by
  have hfinish : ((b.record (.answered uid handler)).finish uid).Sound := by
    apply (h.record (by simp) (by simp [Event.refuses]) (by simp) (by simp)).finish
    intro t ht
    obtain rfl := Option.some.inj (hturn.symm.trans ht)
    exact ⟨fun x hx => (of_decide_eq_true hx).symm, fun _ => rfl⟩
  cases settled with
  | ok => exact hfinish
  | error err => exact hfinish.report err

/-- `markSeen` has settled: a refusal is of UIDs that `seenUids` does not hold. -/
theorem Sound.marked (h : b.Sound) {uids : List Nat} {drain : Nat}
    (hturn : b.turn = some (.marking uids drain)) {settled : Except JsAny Unit}
    (hreleased : ∀ err, settled = .error err → ∀ uid ∈ uids, b.seenUids.has uid = false) :
    (b.marked uids drain settled).Sound := by
  -- the answer is recorded while the turn lasts, then the turn ends with its drain
  have hend {e : Event} (he : (b.record e).Sound) (hne : ∀ d x, e ≠ .listed d x)
      (hmarks : ∀ uid ∈ uids, WasFlagged uid (e :: b.log) ∨ b.seenUids.has uid = false) :
      (({ b.record e with turn := none } : Inbox).record (.ended drain)).Sound := by
    have hidle : Sound { b.record e with turn := none } := by
      refine he.change rfl rfl rfl (fun uid p hd => ?_) (fun uid hm => ?_)
        (fun _ _ ht => nomatch ht)
      · refine hd.imp_right fun hd => .inr (hd.resolve_left fun hd => ?_)
        simp [Inbox.record, hturn, Turn.dispatches] at hd
      · simp only [Inbox.record, hturn, Option.any_some, Turn.marks, decide_eq_true_eq] at hm
        obtain hflagged | hnew := hmarks uid hm
        · exact .inl hflagged
        · exact .inr (.inr (.inr (.inr ⟨hnew, trivial⟩)))
    refine hidle.record (by simp) (fun _ hr => nomatch hr) (by simp) fun d uid since heq ho => ?_
    cases heq
    exact he.marking uids drain uid since hturn ho
  cases settled with
  | ok =>
    have hflagged := h.record (e := .flagged uids) (by simp) (fun _ hr => nomatch hr) (by simp)
      (by simp)
    exact hend hflagged (by simp) fun uid huid => .inl ⟨uids, List.mem_cons_self, huid⟩
  | error err =>
    have hnew := hreleased err rfl
    have hrefused := h.record (e := .refused uids) (by simp)
      (fun uid hr => .inr (.inr ⟨hnew uid (of_decide_eq_true hr), trivial⟩)) (by simp) (by simp)
    exact (hend hrefused (by simp) fun uid huid => .inr (hnew uid huid)).report err

variable {m : CaseMapping} {simpleParser : List UInt8 → Except JsAny ParsedMail}
  {opts : EmailAdapterOptions}

theorem Sound.dispatchOrDrop (h : b.Sound) {msg : FetchedMessage}
    (hturn : b.turn = some (.parsing msg)) (now : JsNumber) :
    (b.dispatchOrDrop m simpleParser opts msg now).Sound := by
  have hparsing (t : Turn) (ht : b.turn = some t) :
      (∀ x, t.dispatches x = true → x = msg.uid) ∧ ∀ x, t.marks x = false := by
    obtain rfl := Option.some.inj (hturn.symm.trans ht)
    exact ⟨fun x hx => (of_decide_eq_true hx).symm, fun _ => rfl⟩
  unfold Inbox.dispatchOrDrop
  split
  · apply Sound.report
    exact (h.record (by simp) (by simp [Event.refuses]) (by simp) (by simp)).finish hparsing
  · split
    · exact (h.record (by simp) (by simp [Event.refuses]) (by simp) (by simp)).finish hparsing
    · exact h.finish hparsing
    · rename_i event hevent _ _ handler _ _
      have hhanded := h.record (e := .handed msg.uid handler event) (by simp)
        (fun _ hr => nomatch hr) (by simp) (by simp)
      refine hhanded.change rfl rfl rfl (fun uid p hd => ?_) (fun uid hm => ?_)
        (fun _ _ ht => nomatch ht)
      · refine hd.imp_right (.imp_left fun hd => ?_)
        simp only [Inbox.record, hturn, Option.any_some, Turn.dispatches] at hd
        simpa [Turn.dispatches] using hd
      · simp [Inbox.record, hturn, Turn.marks] at hm

end Inbox

namespace EmailAdapter
variable {m : CaseMapping} {simpleParser : List UInt8 → Except JsAny ParsedMail}
  {opts : EmailAdapterOptions}

theorem sound_step {a b : EmailAdapter} {act : Action} (h : a.inbox.Sound)
    (hreleased : Released a act) (hstep : step m simpleParser opts a act = some b) :
    b.inbox.Sound := by
  have hmoves := moves_of_step hstep
  generalize b.inbox = c at hmoves ⊢
  cases hmoves with
  | same => exact h
  | cleared => exact h.clear
  | subscribed =>
    exact h.change rfl rfl rfl (fun _ _ hd => hd) (fun _ hm => .inr (.inl hm)) (fun _ _ ht => ht)
  | drained _ messages => exact h.drained messages
  | next imap job rest hturn hqueue =>
    cases job with
    | dispatch msg => exact h.dispatch hturn hqueue
    | flush drain => exact h.flush hturn hqueue imap
  | parsed now msg hturn => exact h.dispatchOrDrop hturn now
  | answered settled uid handler hturn => exact h.answered hturn settled
  | marked settled uids drain hturn =>
    refine h.marked hturn fun err herr => ?_
    rw [herr] at hreleased
    exact hreleased uids drain hturn

theorem sound_new : Inbox.Sound {} where
  retries := ⟨trivial, by simp⟩
  awaiting _ ha := ha.elim
  numbered := by simp
  flushes := by simp
  current _ _ ht := nomatch ht
  owed _ _ _ _ hflush := nomatch hflush
  marking _ _ _ _ ht := nomatch ht

/-- When no `markSeen` is refused for a UID that `seenUids` holds, flagging is retried in every
state of the run. -/
theorem retries_of_released (m : CaseMapping)
    (simpleParser : List UInt8 → Except JsAny ParsedMail) (opts : EmailAdapterOptions)
    (as : List Action) (a : EmailAdapter) (hrun : run (step m simpleParser opts) {} as = some a)
    (hreleased : Meets (step m simpleParser opts) Released {} as) : a.inbox.Retries := by
  have hsound := invariant_of_meets (I := fun a => a.inbox.Sound)
    (fun _ _ _ h hC hstep => sound_step h hC hstep) sound_new hreleased hrun
  exact hsound.retries

def noAnswer : JsAny := .error (js "Error") (js "Command failed")

/-- The flag of the first mail is refused once `disconnect` has cleared the seen UIDs. -/
def refusedAfterDisconnect : List Action :=
  .onInbound 0 :: firstDrain ++ [.parsed (.finite 0), .answered (.ok ()), .next, .disconnect,
    .imapClosed, .smtpClosed, .marked (.error noAnswer)]

/-- The next connection lists the mail again, and it is handled and flagged again. -/
def offeredAgain : List Action := .onInbound 0 :: firstDrain ++ [.parsed (.finite 0),
  .answered (.ok ()), .next, .marked (.ok ())]

theorem released_of_noRefusal {s : EmailAdapter} {as : List Action}
    (h : ∀ act ∈ as, ∀ err, act ≠ .marked (.error err)) :
    Meets (step m simpleParser opts) Released s as :=
  meets_of_forall fun act ha t => by
    cases act with
    | marked settled =>
      cases settled with
      | ok => trivial
      | error err => exact absurd rfl (h _ ha err)
    | _ => trivial

theorem released_offeredAgain :
    Meets (step asciiCase oneSender bot) Released {} (refusedAfterDisconnect ++ offeredAgain) := by
  have htail (s : EmailAdapter) :
      Meets (step asciiCase oneSender bot) Released s offeredAgain :=
    released_of_noRefusal (by simp [offeredAgain, firstDrain])
  refine meets_cons trivial rfl ?_
  refine meets_cons trivial rfl ?_
  refine meets_cons trivial rfl ?_
  refine meets_cons trivial rfl ?_
  refine meets_cons trivial rfl ?_
  refine meets_cons trivial rfl ?_
  refine meets_cons trivial rfl ?_
  refine meets_cons trivial rfl ?_
  refine meets_cons trivial rfl ?_
  refine meets_cons trivial rfl ?_
  refine meets_cons trivial rfl ?_
  refine meets_cons trivial rfl ?_
  exact meets_cons (fun _ _ _ _ _ => rfl) rfl (htail _)

theorem retries_of_released_offeredAgain :
    ∃ a, run (step asciiCase oneSender bot) {} (refusedAfterDisconnect ++ offeredAgain) = some a ∧
      a.inbox.Retries := by
  have hsome : (run (step asciiCase oneSender bot) {}
      (refusedAfterDisconnect ++ offeredAgain)).isSome = true := by
    decide +kernel
  obtain ⟨a, hrun⟩ := Option.isSome_iff_exists.1 hsome
  exact ⟨a, hrun, retries_of_released asciiCase oneSender bot _ a hrun released_offeredAgain⟩

/-- A UID whose flag was refused is skipped by the next drain, and not offered again. -/
theorem refused_uid_forgotten :
    ¬ ∀ (m : CaseMapping) (simpleParser : List UInt8 → Except JsAny ParsedMail)
      (opts : EmailAdapterOptions) (as : List Action) (a : EmailAdapter),
      run (step m simpleParser opts) {} as = some a → a.inbox.Retries := by
  intro h
  have hlost : (run (step asciiCase oneSender bot) {} (.onInbound 0 :: firstDrain ++
      [.parsed (.finite 0), .answered (.ok ()), .next, .marked (.error noAnswer), .drain,
        .fetched 0 (.ok [mail 1]), .next, .next])).any
      (fun a => a.inbox.log.take 4 = [.ended 1, .listed 1 [1], .ended 0, .refused [1]]) = true := by
    decide +kernel
  obtain ⟨a, hrun, htake⟩ := (Option.any_eq_true _ _).1 hlost
  simp only [decide_eq_true_eq] at htake
  have hreoffered := (h asciiCase oneSender bot _ a hrun).reoffered
  rw [← List.take_append_drop 4 a.inbox.log, htake] at hreoffered
  have hany := hreoffered.1 1 1 [] rfl
    ⟨[1], _, rfl, by simp, .inr ⟨rfl, .inl (by simp [Event.refuses])⟩⟩
  cases hany

end EmailAdapter

end TheokitGateways.Email
