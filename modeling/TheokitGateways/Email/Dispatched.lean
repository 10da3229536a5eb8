import TheokitGateways.Email.Flagging

/-!
# At most one dispatch of a UID

Overlapping drains list the same unseen mail, and each chains a dispatch of it.
The chain runs one link at a time, and `SeenUidSet` holds what was dispatched
last: its UIDs are the end of the history of dispatches, all of it or at least
`trimTo` of it (`Remembers`). So none of the last 4000 is dispatched again until
`disconnect` empties the set (`dispatched_once`).
-/

namespace TheokitGateways.Email
open Js Gateway Transition

/-- The last `n` distinct UIDs of a history, which is oldest first, latest first. -/
def latest (n : Nat) (history : List Nat) : List Nat := history.reverse.eraseDups.take n

/-- The UIDs that were added last are the end of the history of them. -/
def SeenUidSet.Remembers (s : SeenUidSet) (history : List Nat) : Prop :=
  ∃ old, history = old ++ s.uids ∧ (old = [] ∨ trimTo ≤ s.uids.length)

theorem eraseDups_of_nodup {l : List Nat} (h : l.Nodup) : l.eraseDups = l := by
  induction l with
  | nil => rfl
  | cons a l ih =>
    obtain ⟨ha, hl⟩ := List.nodup_cons.1 h
    have hfilter : l.filter (fun b => !b == a) = l := by
      rw [List.filter_eq_self]
      intro b hb
      simpa using fun hab : b = a => ha (hab ▸ hb)
    rw [List.eraseDups_cons, hfilter, ih hl]

namespace SeenUidSet

variable {s : SeenUidSet} {history : List Nat}

theorem remembers_empty : empty.Remembers [] := ⟨[], rfl, .inl rfl⟩

theorem Remembers.add (h : s.Remembers history) {uid : Nat} (hnew : s.has uid = false) :
    (s.add uid).Remembers (history ++ [uid]) := by
  obtain ⟨old, rfl, hold⟩ := h
  have hroom : uid ∉ s.room := fun hmem =>
    absurd (s.room_sublist.subset hmem) (by simpa [has] using hnew)
  have hadd : (s.add uid).uids = s.room ++ [uid] := by simp [SeenUidSet.add, addUid, hroom]
  rw [Remembers, hadd]
  unfold room
  split
  · rename_i hfull
    refine ⟨old ++ s.uids.take (s.uids.length - trimTo), ?_, .inr ?_⟩
    · rw [trimmed, List.append_assoc, List.append_assoc, ← List.append_assoc (s.uids.take _),
        List.take_append_drop]
    · rw [trimmed, List.length_append, List.length_drop]
      simp only [maxSize, trimTo] at hfull ⊢
      omega
  · refine ⟨old, by simp, hold.imp_right fun hlen => ?_⟩
    rw [List.length_append]
    omega

/-- The set holds the UIDs that were added last. -/
theorem Remembers.latest_subset (h : s.Remembers history) : latest trimTo history ⊆ s.uids := by
  obtain ⟨old, rfl, hold⟩ := h
  have hnodup : s.uids.reverse.Nodup := List.pairwise_reverse.2 (s.nodup.imp Ne.symm)
  rw [latest, List.reverse_append, List.eraseDups_append, eraseDups_of_nodup hnodup]
  intro uid huid
  obtain rfl | hlen := hold
  · simpa using List.mem_of_mem_take huid
  · rw [List.take_append_of_le_length (by rwa [List.length_reverse])] at huid
    exact List.mem_reverse.1 (List.mem_of_mem_take huid)

end SeenUidSet

/-- The UID whose dispatch is under way. -/
def Turn.dispatched : Turn → List Nat
  | parsing msg => [msg.uid]
  | handling uid _ => [uid]
  | marking .. => []

/-- The UIDs whose dispatch is over, oldest first. -/
def finishedUids (log : List Event) : List Nat :=
  (log.filterMap fun | .finished uid => some uid | _ => none).reverse

@[simp] theorem finishedUids_cons_finished (uid : Nat) (log : List Event) :
    finishedUids (.finished uid :: log) = finishedUids log ++ [uid] := by
  simp [finishedUids]

namespace Inbox

def running (b : Inbox) : List Nat := (b.turn.map Turn.dispatched).getD []

/-- The UIDs whose dispatch has begun, each over but the one under way. -/
def begun (b : Inbox) : List Nat := finishedUids b.log ++ b.running

variable {b : Inbox}

theorem begun_record {e : Event} (he : ∀ uid, e ≠ .finished uid) :
    (b.record e).begun = b.begun := by
  cases e <;> first | rfl | exact absurd rfl (he _)

theorem begun_finish {uid : Nat} (h : b.running = [uid]) : (b.finish uid).begun = b.begun := by
  rw [begun, begun, h]
  simp [finish, running]

theorem begun_report (err : JsAny) : (b.report err).begun = b.begun := by
  unfold report
  split <;> rfl

theorem seenUids_report (err : JsAny) : (b.report err).seenUids = b.seenUids := by
  unfold report
  split <;> rfl

variable {m : CaseMapping} {simpleParser : List UInt8 → Except JsAny ParsedMail}
  {opts : EmailAdapterOptions}

theorem begun_dispatchOrDrop {msg : FetchedMessage} (hturn : b.turn = some (.parsing msg))
    (now : JsNumber) :
    (b.dispatchOrDrop m simpleParser opts msg now).begun = b.begun ∧
      (b.dispatchOrDrop m simpleParser opts msg now).seenUids = b.seenUids := by
  have hrunning (e : Event) : (b.record e).running = [msg.uid] := by
    simp [running, record, hturn, Turn.dispatched]
  unfold dispatchOrDrop
  split
  · rw [begun_report, begun_finish (hrunning _), begun_record (by simp), seenUids_report]
    exact ⟨rfl, rfl⟩
  · split
    · rw [begun_finish (hrunning _), begun_record (by simp)]
      exact ⟨rfl, rfl⟩
    · rw [begun_finish (by simp [running, hturn, Turn.dispatched])]
      exact ⟨rfl, rfl⟩
    · refine ⟨?_, rfl⟩
      simp [begun, running, hturn, Turn.dispatched, finishedUids]

theorem begun_answered {uid : Nat} {handler : Handler}
    (hturn : b.turn = some (.handling uid handler)) (settled : Except JsAny Unit) :
    (b.answered uid handler settled).begun = b.begun ∧
      (b.answered uid handler settled).seenUids = b.seenUids := by
  have hrunning : (b.record (.answered uid handler)).running = [uid] := by
    simp [running, record, hturn, Turn.dispatched]
  cases settled with
  | ok =>
    simp only [answered]
    rw [begun_finish hrunning, begun_record (by simp)]
    exact ⟨rfl, rfl⟩
  | error err =>
    simp only [answered]
    rw [begun_report, begun_finish hrunning, begun_record (by simp), seenUids_report]
    exact ⟨rfl, rfl⟩

theorem begun_marked {uids : List Nat} {drain : Nat} (hturn : b.turn = some (.marking uids drain))
    (settled : Except JsAny Unit) :
    (b.marked uids drain settled).begun = b.begun ∧
      (b.marked uids drain settled).seenUids = b.seenUids := by
  have hidle : ({ b with turn := none } : Inbox).begun = b.begun := by
    simp [begun, running, hturn, Turn.dispatched]
  cases settled with
  | ok =>
    simp only [marked]
    rw [begun_record (by simp), begun_record (by simp), hidle]
    exact ⟨rfl, rfl⟩
  | error err =>
    simp only [marked]
    rw [begun_report, begun_record (by simp), begun_record (by simp), hidle, seenUids_report]
    exact ⟨rfl, rfl⟩

/-- No step but the queue's next link begins a dispatch or adds a UID, and none but the end of
`disconnect` empties the set. -/
theorem begun_of_moves {clears : Bool} {act : Action} {c : Inbox} (hact : act ≠ .next)
    (h : b.Moves m simpleParser opts clears act c) :
    c.begun = b.begun ∧ c.seenUids = if clears then .empty else b.seenUids := by
  have hkept {c : Inbox} (hopen : clears = false)
      (hc : c.begun = b.begun ∧ c.seenUids = b.seenUids) :
      c.begun = b.begun ∧ c.seenUids = if clears then .empty else b.seenUids := by
    subst hopen
    exact hc
  cases h with
  | same _ hopen => exact hkept hopen ⟨rfl, rfl⟩
  | cleared _ hclears =>
    subst hclears
    exact ⟨rfl, rfl⟩
  | subscribed _ _ hopen => exact hkept hopen ⟨rfl, rfl⟩
  | drained _ _ hopen => exact hkept hopen ⟨rfl, rfl⟩
  | next => exact absurd rfl hact
  | parsed now msg hturn hopen => exact hkept hopen (begun_dispatchOrDrop hturn now)
  | answered settled uid handler hturn hopen => exact hkept hopen (begun_answered hturn settled)
  | marked settled uids drain hturn hopen => exact hkept hopen (begun_marked hturn settled)

end Inbox

/-- The UID whose dispatch the queue's next link began. -/
def beginning (b : EmailAdapter) : Action → Option Nat
  | .next =>
    match b.inbox.turn with
    | some (.parsing msg) => some msg.uid
    | _ => none
  | _ => none

/-- The adapter with what it dispatched: `begun` since it was made, `recent` since a `disconnect`
last came to its end; the UID that began first is first. -/
structure Traced where
  adapter : EmailAdapter := {}
  begun : List Nat := []
  recent : List Nat := []

namespace Traced
variable (m : CaseMapping) (simpleParser : List UInt8 → Except JsAny ParsedMail)
  (opts : EmailAdapterOptions)

def step (t : Traced) (act : Action) : Option Traced :=
  (t.adapter.step m simpleParser opts act).map fun b =>
    match beginning b act with
    | some uid => ⟨b, t.begun ++ [uid], t.recent ++ [uid]⟩
    | none => ⟨b, t.begun, if t.adapter.clears act then [] else t.recent⟩

/-- Tracing a run does not change it. -/
theorem run_adapter (t : Traced) (as : List Action) :
    (run (step m simpleParser opts) t as).map (·.adapter) =
      run (EmailAdapter.step m simpleParser opts) t.adapter as := by
  induction as generalizing t with
  | nil => rfl
  | cons act as ih =>
    rw [run_cons, run_cons, step, Option.map_bind, Option.bind_map]
    refine Option.bind_congr fun b _ => ?_
    rw [Function.comp_apply, Function.comp_apply, ih]
    split <;> rfl

/-- What every run keeps. -/
structure Sound (t : Traced) : Prop where
  inOrder : t.begun = t.adapter.inbox.begun
  remembers : t.adapter.inbox.seenUids.Remembers t.recent

variable {m : CaseMapping} {simpleParser : List UInt8 → Except JsAny ParsedMail}
  {opts : EmailAdapterOptions} {t u : Traced}

/-- The queue's next link begins the dispatch of a UID that is not in the set, or none. -/
theorem step_next {b : EmailAdapter}
    (h : t.adapter.step m simpleParser opts .next = some b) :
    (∃ uid, beginning b .next = some uid ∧ t.adapter.inbox.running = [] ∧
        t.adapter.inbox.seenUids.has uid = false ∧
        b.inbox.begun = t.adapter.inbox.begun ++ [uid] ∧
        b.inbox.seenUids = t.adapter.inbox.seenUids.add uid) ∨
      beginning b .next = none ∧ b.inbox.begun = t.adapter.inbox.begun ∧
        b.inbox.seenUids = t.adapter.inbox.seenUids := by
  simp only [EmailAdapter.step] at h
  split at h
  · rename_i job rest _ hturn _
    cases h
    have hrunning : t.adapter.inbox.running = [] := by simp [Inbox.running, hturn]
    cases job with
    | dispatch msg =>
      simp only [Inbox.runJob, Inbox.dispatchInboundInner]
      split
      · refine .inr ⟨?_, rfl, rfl⟩
        simp [beginning, hturn]
      · rename_i hnew
        refine .inl ⟨msg.uid, rfl, hrunning, Bool.eq_false_iff.2 hnew, ?_, rfl⟩
        rw [Inbox.begun, Inbox.begun, hrunning, List.append_nil]
        rfl
    | flush drain =>
      simp only [Inbox.runJob, Inbox.flushSeen]
      split
      · refine .inr ⟨?_, rfl, rfl⟩
        simp [beginning, hturn]
      · split
        · refine .inr ⟨?_, Inbox.begun_record (by simp), rfl⟩
          simp [beginning, Inbox.record, hturn]
        · refine .inr ⟨rfl, ?_, rfl⟩
          rw [Inbox.begun, Inbox.begun, hrunning]
          rfl
  · cases h

theorem beginning_of_ne_next {b : EmailAdapter} {act : Action} (h : act ≠ .next) :
    beginning b act = none := by
  cases act <;> first | rfl | exact absurd rfl h

/-- A dispatch begins while none is under way, of a UID that is not in the set. -/
theorem step_cases {act : Action} (h : t.step m simpleParser opts act = some u) :
    (∃ uid, beginning u.adapter act = some uid ∧ t.adapter.inbox.running = [] ∧
        t.adapter.inbox.seenUids.has uid = false ∧
        u.adapter.inbox.begun = t.adapter.inbox.begun ++ [uid] ∧ u.begun = t.begun ++ [uid] ∧
        u.adapter.inbox.seenUids = t.adapter.inbox.seenUids.add uid ∧
        u.recent = t.recent ++ [uid]) ∨
      beginning u.adapter act = none ∧
        u.adapter.inbox.begun = t.adapter.inbox.begun ∧ u.begun = t.begun ∧
        (u.adapter.inbox.seenUids =
          if t.adapter.clears act then .empty else t.adapter.inbox.seenUids) ∧
        u.recent = if t.adapter.clears act then [] else t.recent := by
  obtain ⟨b, hstep, hu⟩ := Option.map_eq_some_iff.1 h
  by_cases hact : act = .next
  · subst hact
    obtain ⟨uid, hbegin, hrunning, hnew, hbegun, hseen⟩ | ⟨hbegin, hbegun, hseen⟩ :=
      step_next hstep
    · rw [hbegin] at hu
      cases hu
      exact .inl ⟨uid, hbegin, hrunning, hnew, hbegun, rfl, hseen, rfl⟩
    · rw [hbegin] at hu
      cases hu
      exact .inr ⟨hbegin, hbegun, rfl, hseen, rfl⟩
  · have hbegin := beginning_of_ne_next (b := b) hact
    rw [hbegin] at hu
    cases hu
    obtain ⟨hbegun, hseen⟩ := Inbox.begun_of_moves hact (EmailAdapter.moves_of_step hstep)
    exact .inr ⟨hbegin, hbegun, rfl, hseen, rfl⟩

theorem sound_step {act : Action} (h : t.Sound) (hstep : t.step m simpleParser opts act = some u) :
    u.Sound := by
  obtain ⟨uid, _, _, hnew, hbegun, hu, hseen, hrecent⟩ | ⟨_, hbegun, hu, hseen, hrecent⟩ :=
    step_cases hstep
  · refine ⟨by rw [hu, hbegun, h.inOrder], ?_⟩
    rw [hseen, hrecent]
    exact h.remembers.add hnew
  · refine ⟨by rw [hu, hbegun, h.inOrder], ?_⟩
    rw [hseen, hrecent]
    split
    · exact SeenUidSet.remembers_empty
    · exact h.remembers

theorem sound_new : Sound {} := ⟨rfl, SeenUidSet.remembers_empty⟩

/-- In every run, dispatches run one at a time, none is of a UID among the last 4000, and the set
holds at most 5000 UIDs and always these. -/
theorem dispatched_once (m : CaseMapping) (simpleParser : List UInt8 → Except JsAny ParsedMail)
    (opts : EmailAdapterOptions) (as : List Action) (t : Traced)
    (hrun : run (step m simpleParser opts) {} as = some t) :
    t.begun = finishedUids t.adapter.inbox.log ++ t.adapter.inbox.running ∧
      t.adapter.inbox.running.length ≤ 1 ∧
      t.adapter.inbox.seenUids.uids.length ≤ 5000 ∧
      latest 4000 t.recent ⊆ t.adapter.inbox.seenUids.uids ∧
      ∀ act u uid, t.step m simpleParser opts act = some u →
        beginning u.adapter act = some uid →
        t.adapter.inbox.running = [] ∧ uid ∉ latest 4000 t.recent := by
  have hsound : t.Sound := invariant (fun _ _ _ h hstep => sound_step h hstep) sound_new hrun
  have hlatest := hsound.remembers.latest_subset
  refine ⟨hsound.inOrder, ?_, t.adapter.inbox.seenUids.bounded, hlatest,
    fun act u uid hstep hbegin => ?_⟩
  · cases hturn : t.adapter.inbox.turn with
    | none => simp [Inbox.running, hturn]
    | some turn => cases turn <;> simp [Inbox.running, hturn, Turn.dispatched]
  · obtain ⟨x, hx, hrunning, hnew, _⟩ | ⟨hnone, _⟩ := step_cases hstep
    · cases hx.symm.trans hbegin
      refine ⟨hrunning, fun hmem => ?_⟩
      rw [SeenUidSet.has, decide_eq_false_iff_not] at hnew
      exact hnew (hlatest hmem)
    · cases hnone.symm.trans hbegin

open EmailAdapter (mail oneSender bot)

/-- The drain of `connect` and one of the poll timer list the same mail, and so does one after the
dispatch. -/
def overlappingDrains : List Action :=
  [.connect, .advance 0 (.ok true), .advance 0 (.ok false), .drain,
    .fetched 0 (.ok [mail 1]), .fetched 0 (.ok [mail 1]), .next, .parsed (.finite 0), .next,
    .marked (.ok ()), .next, .next, .drain, .fetched 0 (.ok [mail 1]), .next]

theorem dispatched_once_overlappingDrains :
    ∃ t, run (step asciiCase oneSender bot) {} overlappingDrains = some t ∧
      t.begun = [1] ∧ t.begun = finishedUids t.adapter.inbox.log ++ t.adapter.inbox.running ∧
      t.recent = [1] ∧ latest 4000 t.recent ⊆ t.adapter.inbox.seenUids.uids := by
  have hsome : (run (step asciiCase oneSender bot) {} overlappingDrains).any
      (fun t => t.begun = [1] && t.recent = [1]) = true := by
    decide +kernel
  obtain ⟨t, hrun, hlists⟩ := (Option.any_eq_true _ _).1 hsome
  obtain ⟨hbegun, hrecent⟩ := Bool.and_eq_true_iff.1 hlists
  obtain ⟨horder, _, _, hlatest, _⟩ :=
    dispatched_once asciiCase oneSender bot overlappingDrains t hrun
  exact ⟨t, hrun, of_decide_eq_true hbegun, horder, of_decide_eq_true hrecent, hlatest⟩

end Traced

end TheokitGateways.Email
