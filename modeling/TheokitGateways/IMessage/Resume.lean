import TheokitGateways.History
import TheokitGateways.IMessage.Adapter
import TheokitGateways.Records

/-!
# Resuming after a child has died

With a handler subscribed throughout, rows should be handed over once and in
order, the cursor should cover no row whose turn has not finished, and no row a
session received should be lost with it. A subscription without a cursor names
no row to resume after: the rows that wait then are dropped and not asked for
again. `Resumable` says of a step that it does not come to that.
-/

namespace TheokitGateways.IMessage
open Js Gateway History Records Transition

/-- The child has the row before it. -/
def Session.willWrite (s : Session) (database : List IMessageRow) (row : IMessageRow) : Prop :=
  match s.position with
  | some p => row ∈ database.drop p
  | none => ∃ cursor, s.sinceRowId = some cursor ∧ cursor < row.id

/-- The row that a session received. -/
def Observed.row? : Observed → Option IMessageRow
  | .received _ row => some row
  | .handed .. | .finished _ => none

namespace IMessageAdapter

/-- The row waits for its turn, or is still to be written by the child; without a session, the
cursor does not cover it. -/
def Due (a : IMessageAdapter) (row : IMessageRow) : Prop :=
  match a.session with
  | some k => (k, row) ∈ a.rows ∨ ∃ s, a.sessions[k]? = some s ∧ s.willWrite a.database row
  | none => a.covers row.id = false

/-- Rows are handed over in increasing order, each once. -/
def Increasing : List Observed → Prop :=
  Each fun e past => ∀ handler row event handler' row' event',
    e = .handed handler row event → .handed handler' row' event' ∈ past → row'.id < row.id

/-- What a resumed session owes the rows. -/
structure Resumes (a : IMessageAdapter) : Prop where
  increasing : Increasing a.log
  covered : ∀ k row, .received k row ∈ a.log → a.covers row.id = true → .finished row.id ∈ a.log
  kept : ∀ k row, .received k row ∈ a.log →
    .finished row.id ∈ a.log ∨ a.running = some row ∨ a.Due row

/-- The child of the session has nothing more to write, and no row waits or is being handled. -/
def CaughtUp (a : IMessageAdapter) : Prop :=
  ∃ k s, a.session = some k ∧ a.sessions[k]? = some s ∧ s.position = some a.database.length ∧
    a.rows = [] ∧ a.running = none

/-- A handler stays subscribed. -/
def Subscribed (a : IMessageAdapter) : Action → Prop
  | .unsubscribe handler => a.handler ≠ some handler
  | _ => True

/-- No subscription without a cursor leaves a waiting row behind, a child writes a row anew or above
every row that was taken up, and what a handler throws can be printed. -/
def Resumable (a : IMessageAdapter) : Action → Prop
  | .connect spawned => spawned = true → a.connected = false → a.connecting = none →
      a.lastRowId = none → ∀ k row, .received k row ∈ a.log →
        .finished row.id ∈ a.log ∨ a.running = some row
  | .write k => ∀ s p row, a.sessions[k]? = some s → s.position = some p →
      a.database[p]? = some row → .finished row.id ∈ a.log ∨
        a.covers row.id = false ∧ ∀ ahead, a.running = some ahead → ahead.id ≤ row.id
  | .turn settled => ∃ answer, runHandler (js "imessage") (some settled) = .ok answer
  | _ => True

instance (a : IMessageAdapter) (P : IMessageRow → Prop) [DecidablePred P] :
    Decidable (∀ k row, .received k row ∈ a.log → P row) :=
  decidable_of_iff (∀ row ∈ a.log.filterMap Observed.row?, P row) <| by
    simp only [List.mem_filterMap]
    refine ⟨fun h k row hr => h row ⟨_, hr, rfl⟩, ?_⟩
    rintro h row ⟨e, he, hrow⟩
    cases e with
    | received k => exact Option.some.inj hrow ▸ h k _ he
    | handed | finished => cases hrow

instance (a : IMessageAdapter) : ∀ action, Decidable (a.Resumable action)
  | .connect spawned => inferInstanceAs (Decidable (spawned = true → a.connected = false →
      a.connecting = none → a.lastRowId = none → ∀ k row, .received k row ∈ a.log →
        .finished row.id ∈ a.log ∨ a.running = some row))
  | .write k => decidable_of_iff (∀ s ∈ a.sessions[k]?, ∀ p ∈ s.position, ∀ row ∈ a.database[p]?,
      .finished row.id ∈ a.log ∨
        a.covers row.id = false ∧ ∀ ahead ∈ a.running, ahead.id ≤ row.id)
      ⟨fun h s p row hs hp hrow => h s hs p hp row hrow,
        fun h s hs p hp row hrow => h s p row hs hp hrow⟩
  | .turn settled => match h : runHandler (js "imessage") (some settled) with
    | .ok answer => isTrue ⟨answer, h⟩
    | .error _ => isFalse fun ⟨_, hok⟩ => nomatch h.symm.trans hok
  | .arrive _ | .disconnect | .onInbound _ | .unsubscribe _ | .watch _ | .answered .. |
    .settled _ | .closed _ | .next _ => inferInstanceAs (Decidable True)

/-- What every resumable step keeps. -/
structure Sound (a : IMessageAdapter) : Prop where
  handler : a.handler.isSome = true
  intact : a.broken = none
  sorted : a.database.Pairwise (·.id < ·.id)
  known : ∀ k row, .received k row ∈ a.log → row ∈ a.database ∧ k < a.sessions.length
  current : ∀ k, a.session = some k → ∃ s, a.sessions[k]? = some s ∧
    (s.answered = true → a.connected = true) ∧ (s.answered = false → a.connecting = some k)
  alone : ∀ k s, a.sessions[k]? = some s → s.isOpen = true → a.session = some k
  queued : ∀ k row, (k, row) ∈ a.rows → .received k row ∈ a.log
  behind : ∀ k s row, a.sessions[k]? = some s → (k, row) ∈ a.rows →
    row ∈ a.database.take (s.position.getD 0)
  ordered : a.rows.Pairwise fun x y => x.1 = y.1 → x.2.id < y.2.id
  least : ∀ ahead k row, a.running = some ahead → .received k row ∈ a.log →
    .finished row.id ∉ a.log → ahead.id ≤ row.id
  ahead : ∀ row, a.running = some row → a.covers row.id = false
  done : ∀ rowId, .finished rowId ∈ a.log → a.covers rowId = true
  handed : ∀ handler row event, .handed handler row event ∈ a.log →
    a.covers row.id = true ∨ a.running = some row
  resumes : a.Resumes

variable {a : IMessageAdapter}

theorem covers_finish (rowId other : Int) :
    (a.finish rowId).covers other = true ↔ other ≤ rowId ∨ a.covers other = true := by
  cases h : a.lastRowId with
  | none => simp [finish, covers, h]
  | some cursor =>
    simp only [finish, covers, h, Option.any_some, Option.getD_some, decide_eq_true_eq]
    omega

theorem increasing_cons_of {e : Observed} (he : ∀ handler row event, e ≠ .handed handler row event)
    {past : List Observed} : Increasing (e :: past) ↔ Increasing past := by
  refine and_iff_right fun handler row event _ _ _ h => ?_
  exact absurd h (he handler row event)

/-- A turn is over: the cursor moves past the row. -/
theorem sound_conclude (h : a.Sound) {rowId : Int}
    (hrunning : ∀ row, a.running = some row → row.id = rowId)
    (hleast : ∀ k row, .received k row ∈ a.log → .finished row.id ∉ a.log → rowId ≤ row.id) :
    Sound (finish { a with running := none } rowId) := by
  have hreceived {k : Nat} {row : IMessageRow}
      (hr : .received k row ∈ (finish { a with running := none } rowId).log) :
      .received k row ∈ a.log := by simpa [finish] using hr
  have hcovers (x : Int) : (finish { a with running := none } rowId).covers x = true ↔
      x ≤ rowId ∨ a.covers x = true := covers_finish (a := { a with running := none }) rowId x
  have hfinished {k : Nat} {row : IMessageRow} (hr : .received k row ∈ a.log)
      (hle : row.id ≤ rowId) : .finished row.id ∈ Observed.finished rowId :: a.log := by
    by_cases hf : .finished row.id ∈ a.log
    · exact List.mem_cons_of_mem _ hf
    · rw [Int.le_antisymm hle (hleast k row hr hf)]
      exact List.mem_cons_self
  refine ⟨h.handler, h.intact, h.sorted, fun k row hr => h.known k row (hreceived hr), h.current,
    h.alone, fun k row hr => List.mem_cons_of_mem _ (h.queued k row hr), h.behind, h.ordered,
    by simp [finish], by simp [finish], ?_, ?_, ?_⟩
  · intro x hx
    rw [hcovers]
    obtain hx | hx := List.mem_cons.1 hx
    · cases hx
      exact .inl (Int.le_refl _)
    · exact .inr (h.done x hx)
  · intro handler row event hr
    refine .inl ((hcovers _).2 ?_)
    obtain hr | hr := List.mem_cons.1 hr
    · cases hr
    · obtain hc | hrun := h.handed handler row event hr
      · exact .inr hc
      · exact .inl (Int.le_of_eq (hrunning row hrun))
  · refine ⟨(increasing_cons_of (by simp)).2 h.resumes.increasing, ?_, ?_⟩
    · intro k row hr hc
      obtain hle | hc := (hcovers _).1 hc
      · exact hfinished (hreceived hr) hle
      · exact List.mem_cons_of_mem _ (h.resumes.covered k row (hreceived hr) hc)
    · intro k row hr
      obtain hf | hrun | hdue := h.resumes.kept k row (hreceived hr)
      · exact .inl (List.mem_cons_of_mem _ hf)
      · exact .inl (hfinished (hreceived hr) (Int.le_of_eq (hrunning row hrun)))
      · by_cases hle : row.id ≤ rowId
        · exact .inl (hfinished (hreceived hr) hle)
        · refine .inr (.inr ?_)
          unfold Due at hdue ⊢
          cases hsession : a.session with
          | some k => simpa [finish, hsession] using hdue
          | none =>
            rw [hsession] at hdue
            have hnot : ¬(finish { a with running := none } rowId).covers row.id = true := by
              rw [hcovers, hdue]
              simpa using hle
            simpa [finish, hsession] using hnot

/-- Dropping the first row of the chain when it is not to be handled. -/
theorem sound_drop (h : a.Sound) {k : Nat} {row : IMessageRow} {rest : List (Nat × IMessageRow)}
    (hrows : a.rows = (k, row) :: rest) (hdrop : a.session ≠ some k ∨ a.covers row.id = true) :
    Sound { a with rows := rest } := by
  have hmem {x : Nat × IMessageRow} (hx : x ∈ rest) : x ∈ a.rows := by
    rw [hrows]
    exact List.mem_cons_of_mem _ hx
  have hordered := h.ordered
  rw [hrows] at hordered
  refine ⟨h.handler, h.intact, h.sorted, h.known, h.current, h.alone,
    fun k row hr => h.queued k row (hmem hr), fun k s row hs hr => h.behind k s row hs (hmem hr),
    (List.pairwise_cons.1 hordered).2, h.least, h.ahead, h.done, h.handed,
    ⟨h.resumes.increasing, h.resumes.covered, fun j other hr => ?_⟩⟩
  obtain hf | hrun | hdue := h.resumes.kept j other hr
  · exact .inl hf
  · exact .inr (.inl hrun)
  · by_cases hcovers : a.covers other.id = true
    · exact .inl (h.resumes.covered j other hr hcovers)
    · refine .inr (.inr ?_)
      unfold Due at hdue ⊢
      cases hsession : a.session with
      | none => simpa [covers] using hcovers
      | some i =>
        rw [hsession] at hdue
        refine hdue.imp_left fun hqueued => ?_
        rw [hrows] at hqueued
        obtain heq | hrest := List.mem_cons.1 hqueued
        · cases heq
          exact absurd hdrop (by simp [hsession, hcovers])
        · exact hrest

/-- Every row still to come after one of the chain is above it. -/
theorem lt_of_due (h : a.Sound) {k : Nat} {row other : IMessageRow}
    {rest : List (Nat × IMessageRow)} (hrows : a.rows = (k, row) :: rest)
    (hsession : a.session = some k) (hdue : a.Due other) : other = row ∨ row.id < other.id := by
  unfold Due at hdue
  rw [hsession] at hdue
  have hhead : (k, row) ∈ a.rows := hrows ▸ List.mem_cons_self
  obtain hqueued | ⟨s, hs, hwrite⟩ := hdue
  · rw [hrows] at hqueued
    obtain heq | hrest := List.mem_cons.1 hqueued
    · cases heq
      exact .inl rfl
    · have hordered := h.ordered
      rw [hrows] at hordered
      exact .inr ((List.pairwise_cons.1 hordered).1 _ hrest rfl)
  · have hbehind := h.behind k s row hs hhead
    unfold Session.willWrite at hwrite
    cases hp : s.position with
    | none => simp [hp] at hbehind
    | some p =>
      rw [hp] at hwrite hbehind
      have hsorted := h.sorted
      rw [← List.take_append_drop p a.database, List.pairwise_append] at hsorted
      exact .inr (hsorted.2.2 row hbehind other hwrite)

/-- The first row of the chain is taken up. -/
theorem sound_take (h : a.Sound) (hidle : a.running = none) {k : Nat} {row : IMessageRow}
    {rest : List (Nat × IMessageRow)} (hrows : a.rows = (k, row) :: rest)
    (hsession : a.session = some k) (hcovers : a.covers row.id = false) :
    Sound { a with rows := rest, running := some row } := by
  have hmem {x : Nat × IMessageRow} (hx : x ∈ rest) : x ∈ a.rows := by
    rw [hrows]
    exact List.mem_cons_of_mem _ hx
  have hordered := h.ordered
  rw [hrows] at hordered
  have hkept {j : Nat} {other : IMessageRow} (hr : .received j other ∈ a.log)
      (hf : .finished other.id ∉ a.log) : a.Due other := by
    obtain hf' | hrun | hdue := h.resumes.kept j other hr
    · exact absurd hf' hf
    · rw [hidle] at hrun
      cases hrun
    · exact hdue
  refine ⟨h.handler, h.intact, h.sorted, h.known, h.current, h.alone,
    fun k row hr => h.queued k row (hmem hr), fun k s row hs hr => h.behind k s row hs (hmem hr),
    (List.pairwise_cons.1 hordered).2, ?_, ?_, h.done, ?_,
    ⟨h.resumes.increasing, h.resumes.covered, ?_⟩⟩
  · intro ahead j other hahead hr hf
    obtain rfl := Option.some.inj hahead
    obtain rfl | hlt := lt_of_due h hrows hsession (hkept hr hf)
    · exact Int.le_refl _
    · exact Int.le_of_lt hlt
  · intro other hother
    obtain rfl := Option.some.inj hother
    exact hcovers
  · intro handler other event hr
    obtain hc | hrun := h.handed handler other event hr
    · exact .inl hc
    · rw [hidle] at hrun
      cases hrun
  · intro j other hr
    by_cases hf : .finished other.id ∈ a.log
    · exact .inl hf
    · have hdue := hkept hr hf
      unfold Due at hdue ⊢
      rw [hsession] at hdue ⊢
      obtain hqueued | hwrite := hdue
      · rw [hrows] at hqueued
        obtain heq | hrest := List.mem_cons.1 hqueued
        · cases heq
          exact .inr (.inl rfl)
        · exact .inr (.inr (.inl hrest))
      · exact .inr (.inr (.inr hwrite))

/-- Handing over the row that was taken up, above all that were handed over before. -/
theorem sound_handed (h : a.Sound) {row : IMessageRow} (hrunning : a.running = some row)
    (hbefore : ∀ handler other event, .handed handler other event ∈ a.log →
      a.covers other.id = true) (handler : Handler) (event : IMessageMessageEvent) :
    Sound { a with log := .handed handler row event :: a.log } := by
  have hreceived {e : Observed} (he : ∀ handler row event, e ≠ .handed handler row event)
      (hr : e ∈ Observed.handed handler row event :: a.log) : e ∈ a.log := by
    obtain rfl | hr := List.mem_cons.1 hr
    · exact absurd rfl (he handler row event)
    · exact hr
  refine ⟨h.handler, h.intact, h.sorted, fun k row hr => h.known k row (hreceived (by simp) hr),
    h.current, h.alone, fun k row hr => List.mem_cons_of_mem _ (h.queued k row hr), h.behind,
    h.ordered, fun ahead k row hahead hr hf => ?_, h.ahead,
    fun rowId hr => h.done rowId (hreceived (by simp) hr), fun handler other event hr => ?_,
    ⟨⟨?_, h.resumes.increasing⟩, fun k row hr hc => ?_, fun k row hr => ?_⟩⟩
  · exact h.least ahead k row hahead (hreceived (by simp) hr)
      fun hf' => hf (List.mem_cons_of_mem _ hf')
  · obtain hr | hr := List.mem_cons.1 hr
    · cases hr
      exact .inr hrunning
    · exact .inl (hbefore handler other event hr)
  · intro handler' other event' handler'' other' event'' he hmem
    cases he
    have hcovered := hbefore handler'' other' event'' hmem
    have hahead := h.ahead row hrunning
    unfold covers at hcovered hahead
    cases hcursor : a.lastRowId with
    | none => simp [hcursor] at hcovered
    | some cursor =>
      simp only [hcursor, Option.any_some, decide_eq_true_eq,
        decide_eq_false_iff_not] at hcovered hahead
      omega
  · exact List.mem_cons_of_mem _ (h.resumes.covered k row (hreceived (by simp) hr) hc)
  · exact (h.resumes.kept k row (hreceived (by simp) hr)).imp_left (List.mem_cons_of_mem _)

theorem sound_nextRow (h : a.Sound) (hidle : a.running = none) {k : Nat} {row : IMessageRow}
    {rest : List (Nat × IMessageRow)} (hrows : a.rows = (k, row) :: rest) (now : JsNumber) :
    (a.nextRow k row rest now).Sound := by
  have hnext : a.nextRow k row rest now = handleRow { a with rows := rest } k row now := by
    unfold nextRow
    dsimp only
    split
    · rename_i err herr
      rw [h.intact] at herr
      cases herr
    · rfl
  rw [hnext]
  unfold handleRow
  split
  · rename_i hsession
    exact sound_drop h hrows (.inl hsession)
  · rename_i hsession
    split
    · rename_i hcovers
      exact sound_drop h hrows (.inr hcovers)
    · rename_i hcovers
      have htake := sound_take h hidle hrows (Decidable.not_not.1 hsession)
        (Bool.eq_false_iff.2 hcovers)
      have hbefore (handler : Handler) (other : IMessageRow) (event : IMessageMessageEvent)
          (hr : .handed handler other event ∈ a.log) : a.covers other.id = true := by
        obtain hc | hrun := h.handed handler other event hr
        · exact hc
        · rw [hidle] at hrun
          cases hrun
      split
      · have hconclude := @sound_conclude _ htake row.id
          (fun other hother => by cases hother; rfl)
          (fun j other hr hf => htake.least row j other rfl hr hf)
        have hsame : finish { a with rows := rest, running := none } row.id =
            finish { a with rows := rest } row.id := by rw [← hidle]
        exact hsame ▸ hconclude
      · rename_i hhandler
        have := h.handler
        rw [hhandler] at this
        cases this
      · rename_i handler _ _
        exact sound_handed htake rfl hbefore handler _

/-- What is due without a session is what the cursor does not cover. -/
theorem Resumes.not_covers (h : a.Resumes) {k : Nat} {row : IMessageRow}
    (hr : .received k row ∈ a.log) (hf : .finished row.id ∉ a.log) : a.covers row.id = false :=
  Bool.eq_false_iff.2 fun hc => hf (h.covered k row hr hc)

theorem sound_close (h : a.Sound) (k : Nat) : (a.close k).Sound := by
  have hbehind (j : Nat) (t : Session) (row : IMessageRow)
      (ht : (a.sessions.modify k fun s => { s with isOpen := false })[j]? = some t)
      (hr : (j, row) ∈ a.rows) : row ∈ a.database.take (t.position.getD 0) := by
    obtain ⟨s, hs, rfl⟩ := getElem?_modify_eq_some.1 ht
    have := h.behind j s row hs hr
    split <;> exact this
  have hknown (j : Nat) (row : IMessageRow) (hr : .received j row ∈ a.log) :
      row ∈ a.database ∧ j < (a.sessions.modify k fun s => { s with isOpen := false }).length := by
    simpa using h.known j row hr
  by_cases hk : a.session = some k
  · simp only [close, leave, setSession, hk, if_true]
    refine ⟨h.handler, h.intact, h.sorted, hknown, by simp, fun j t ht hopen => ?_, h.queued,
      hbehind, h.ordered, h.least, h.ahead, h.done, h.handed,
      ⟨h.resumes.increasing, h.resumes.covered, ?_⟩⟩
    · obtain ⟨s, hs, rfl⟩ := getElem?_modify_eq_some.1 ht
      split at hopen
      · cases hopen
      · rename_i hkj
        have := h.alone j s hs hopen
        exact absurd (Option.some.inj (hk.symm.trans this)) hkj
    · intro j row hr
      by_cases hf : .finished row.id ∈ a.log
      · exact .inl hf
      · exact .inr (.inr (h.resumes.not_covers hr hf))
  · simp only [close, leave, setSession, hk, if_false]
    refine ⟨h.handler, h.intact, h.sorted, hknown, fun j hj => ?_, fun j t ht hopen => ?_, h.queued,
      hbehind, h.ordered, h.least, h.ahead, h.done, h.handed,
      ⟨h.resumes.increasing, h.resumes.covered, fun j row hr => ?_⟩⟩
    · obtain ⟨s, hs, hanswered, hopen⟩ := h.current j hj
      have hkj : k ≠ j := fun hkj => hk (hkj ▸ hj)
      exact ⟨s, getElem?_modify_eq_some.2 ⟨s, hs, by simp [hkj]⟩, hanswered, hopen⟩
    · obtain ⟨s, hs, rfl⟩ := getElem?_modify_eq_some.1 ht
      split at hopen
      · cases hopen
      · exact h.alone j s hs hopen
    · refine (h.resumes.kept j row hr).imp_right fun hkept => hkept.imp_right fun hdue => ?_
      unfold Due at hdue ⊢
      cases hsession : a.session with
      | none => simpa [hsession, covers] using hdue
      | some i =>
        rw [hsession] at hdue
        have hki : k ≠ i := by
          rintro rfl
          exact hk hsession
        refine hdue.imp_right ?_
        rintro ⟨s, hs, hwrite⟩
        exact ⟨s, getElem?_modify_eq_some.2 ⟨s, hs, by simp [hki]⟩, hwrite⟩

/-- Without a connection or an attempt under way there is no session. -/
theorem session_of_idle (h : a.Sound) (hconnected : a.connected = false)
    (hconnecting : a.connecting = none) : a.session = none := by
  cases hk : a.session with
  | none => rfl
  | some k =>
    obtain ⟨s, _, hanswered, hopen⟩ := h.current k hk
    cases hs : s.answered with
    | true => simp [hanswered hs] at hconnected
    | false => simp [hopen hs] at hconnecting

theorem sound_connect (h : a.Sound) {spawned : Bool} (hC : a.Resumable (.connect spawned)) :
    (a.connect spawned).Sound := by
  unfold connect
  split
  · exact h
  · rename_i hidle
    obtain ⟨hconnected, hconnecting⟩ : a.connected = false ∧ a.connecting = none := by
      simpa using hidle
    have hsession := session_of_idle h hconnected hconnecting
    dsimp only
    rw [hsession]
    have hknown (j : Nat) (row : IMessageRow) (hr : .received j row ∈ a.log) :
        row ∈ a.database ∧
          j < (a.sessions ++ [(⟨a.lastRowId, spawned, false, none⟩ : Session)]).length := by
      have := h.known j row hr
      refine ⟨this.1, ?_⟩
      simp only [List.length_append, List.length_singleton]
      omega
    have hbehind (j : Nat) (t : Session) (row : IMessageRow)
        (ht : (a.sessions ++ [(⟨a.lastRowId, spawned, false, none⟩ : Session)])[j]? = some t)
        (hr : (j, row) ∈ a.rows) : row ∈ a.database.take (t.position.getD 0) := by
      obtain hs | ⟨rfl, _⟩ := getElem?_append_singleton.1 ht
      · exact h.behind j t row hs hr
      · exact absurd (h.known _ row (h.queued _ row hr)).2 (Nat.lt_irrefl _)
    cases spawned with
    | false =>
      refine ⟨h.handler, h.intact, h.sorted, hknown, by simp, fun j t ht hopen => ?_, h.queued,
        hbehind, h.ordered, h.least, h.ahead, h.done, h.handed,
        ⟨h.resumes.increasing, h.resumes.covered, fun j row hr => ?_⟩⟩
      · obtain hs | ⟨_, rfl⟩ := getElem?_append_singleton.1 ht
        · cases hsession.symm.trans (h.alone j t hs hopen)
        · cases hopen
      · by_cases hf : .finished row.id ∈ a.log
        · exact .inl hf
        · exact .inr (.inr (h.resumes.not_covers hr hf))
    | true =>
      refine ⟨h.handler, h.intact, h.sorted, hknown, fun j hj => ?_, fun j t ht hopen => ?_,
        h.queued, hbehind, h.ordered, h.least, h.ahead, h.done, h.handed,
        ⟨h.resumes.increasing, h.resumes.covered, fun j row hr => ?_⟩⟩
      · obtain rfl := Option.some.inj hj
        exact ⟨_, getElem?_append_singleton.2 (.inr ⟨rfl, rfl⟩), by simp, fun _ => rfl⟩
      · obtain hs | ⟨rfl, _⟩ := getElem?_append_singleton.1 ht
        · cases hsession.symm.trans (h.alone j t hs hopen)
        · rfl
      · by_cases hf : .finished row.id ∈ a.log
        · exact .inl hf
        · cases hcursor : a.lastRowId with
          | none => exact (hC rfl hconnected hconnecting hcursor j row hr).imp_right .inl
          | some cursor =>
            refine .inr (.inr (.inr ⟨_, getElem?_append_singleton.2 (.inr ⟨rfl, rfl⟩), ?_⟩))
            have hcovers := h.resumes.not_covers hr hf
            refine ⟨cursor, rfl, ?_⟩
            simp only [covers, hcursor, Option.any_some, decide_eq_false_iff_not] at hcovers
            omega

theorem sound_answered (h : a.Sound) (k : Nat) {connected : Bool}
    (hcurrent : a.session = some k → connected = true)
    (hconnected : a.connected = true → connected = true) :
    Sound { a.setSession k fun s => { s with answered := true } with connected := connected } := by
  refine ⟨h.handler, h.intact, h.sorted, ?_, fun j hj => ?_, fun j t ht hopen => ?_, h.queued,
    fun j t row ht hr => ?_, h.ordered, h.least, h.ahead, h.done, h.handed,
    ⟨h.resumes.increasing, h.resumes.covered, fun j row hr => ?_⟩⟩
  · intro j row hr
    simpa [setSession] using h.known j row hr
  · obtain ⟨s, hs, hanswered, hnot⟩ := h.current j hj
    refine ⟨_, getElem?_modify_eq_some.2 ⟨s, hs, rfl⟩, ?_⟩
    by_cases hkj : k = j
    · subst hkj
      simp [hcurrent hj]
    · simp only [hkj, if_false]
      exact ⟨fun ha => hconnected (hanswered ha), hnot⟩
  · obtain ⟨s, hs, rfl⟩ := getElem?_modify_eq_some.1 ht
    exact h.alone j s hs (by split at hopen <;> exact hopen)
  · obtain ⟨s, hs, rfl⟩ := getElem?_modify_eq_some.1 ht
    have hbehind := h.behind j s row hs hr
    split <;> exact hbehind
  · refine (h.resumes.kept j row hr).imp_right fun hkept => hkept.imp_right fun hdue => ?_
    unfold Due at hdue ⊢
    cases hsession : a.session with
    | none => simpa [hsession, covers, setSession] using hdue
    | some i =>
      rw [hsession] at hdue
      have hsession' : ({ a.setSession k fun s => { s with answered := true } with
          connected := connected } : IMessageAdapter).session = some i := hsession
      rw [hsession']
      refine hdue.imp_right ?_
      rintro ⟨s, hs, hwrite⟩
      refine ⟨_, getElem?_modify_eq_some.2 ⟨s, hs, rfl⟩, ?_⟩
      split <;> exact hwrite

theorem sound_openSession (h : a.Sound) (k : Nat) (result : Bool) :
    (a.openSession k result).Sound := by
  unfold openSession
  dsimp only
  split
  · exact sound_answered h k (fun _ => rfl) (fun _ => rfl)
  · split
    · rename_i hk
      have hclosed := sound_close h k
      have hgone : (a.close k).session ≠ some k := by
        have hk' : a.session = some k := hk
        simp [close, leave, setSession, hk']
      have hanswered := @sound_answered _ hclosed k (a.close k).connected
        (fun hk' => absurd hk' hgone) id
      have hsame : (a.setSession k fun s => { s with answered := true }).close k =
          { (a.close k).setSession k fun s => { s with answered := true } with
            connected := (a.close k).connected } := by
        have hk' : a.session = some k := hk
        simp [close, leave, setSession, hk', List.modify_modify_eq, Function.comp_def]
      rw [hsame]
      exact hanswered
    · rename_i hk
      exact sound_answered h k (fun hk' => absurd hk' hk) id

theorem mem_drop_takeWhile {database : List IMessageRow} {row : IMessageRow} {cursor : Int}
    (hrow : row ∈ database) (hlt : cursor < row.id) :
    row ∈ database.drop (database.takeWhile (·.id ≤ cursor)).length := by
  have hsplit := database.takeWhile_append_dropWhile (p := (·.id ≤ cursor))
  rw [← hsplit] at hrow
  obtain hbefore | hafter := List.mem_append.1 hrow
  · have hall := List.all_eq_true.1 List.all_takeWhile row hbefore
    simp only [decide_eq_true_eq] at hall
    omega
  · have hdrop := @List.drop_left _ (database.takeWhile (·.id ≤ cursor))
      (database.dropWhile (·.id ≤ cursor))
    rw [hsplit] at hdrop
    rw [hdrop]
    exact hafter

theorem sound_watch (h : a.Sound) {k : Nat} {s : Session} (hs : a.sessions[k]? = some s)
    (hopen : s.isOpen = true) (hposition : s.position = none) : (a.watch k).Sound := by
  have hsession := h.alone k s hs hopen
  refine ⟨h.handler, h.intact, h.sorted, fun j row hr => ?_, fun j hj => ?_, fun j t ht hopen => ?_,
    h.queued, fun j t row ht hr => ?_, h.ordered, h.least, h.ahead, h.done, h.handed,
    ⟨h.resumes.increasing, h.resumes.covered, fun j row hr => ?_⟩⟩
  · simpa [watch, setSession] using h.known j row hr
  · obtain ⟨t, ht, hanswered⟩ := h.current j hj
    refine ⟨_, getElem?_modify_eq_some.2 ⟨t, ht, rfl⟩, ?_⟩
    split <;> exact hanswered
  · obtain ⟨t', ht', rfl⟩ := getElem?_modify_eq_some.1 ht
    exact h.alone j t' ht' (by split at hopen <;> exact hopen)
  · obtain ⟨t', ht', rfl⟩ := getElem?_modify_eq_some.1 ht
    have hbehind := h.behind j t' row ht' hr
    split
    · rename_i hkj
      subst hkj
      obtain rfl := Option.some.inj (hs.symm.trans ht')
      simp [hposition] at hbehind
    · exact hbehind
  · refine (h.resumes.kept j row hr).imp_right fun hkept => hkept.imp_right fun hdue => ?_
    unfold Due at hdue ⊢
    rw [hsession] at hdue
    have hsession' : (a.watch k).session = some k := hsession
    rw [hsession']
    refine hdue.imp_right ?_
    rintro ⟨t, ht, hwrite⟩
    obtain rfl := Option.some.inj (hs.symm.trans ht)
    refine ⟨_, getElem?_modify_eq_some.2 ⟨s, hs, rfl⟩, ?_⟩
    simp only [Session.willWrite, hposition] at hwrite
    obtain ⟨cursor, hcursor, hlt⟩ := hwrite
    simp only [if_true, Session.willWrite, Session.behind, hcursor]
    exact mem_drop_takeWhile (h.known j row hr).1 hlt

theorem sound_onNotification (h : a.Sound) {k p : Nat} {row : IMessageRow} {s : Session}
    (hs : a.sessions[k]? = some s) (hopen : s.isOpen = true) (hp : s.position = some p)
    (hrow : a.database[p]? = some row) (hC : a.Resumable (.write k)) :
    (a.onNotification k p row).Sound := by
  have hsession := h.alone k s hs hopen
  obtain ⟨hlt, hget⟩ := List.getElem?_eq_some_iff.1 hrow
  have hdrop : a.database.drop p = row :: a.database.drop (p + 1) := by
    rw [List.drop_eq_getElem_cons hlt, hget]
  have hsorted := h.sorted
  rw [← List.take_append_drop p a.database, List.pairwise_append, hdrop] at hsorted
  have hordinary := hC s p row hs hp hrow
  have hreceived {j : Nat} {other : IMessageRow}
      (hr : .received j other ∈ Observed.received k row :: a.log) :
      j = k ∧ other = row ∨ .received j other ∈ a.log := by
    obtain heq | hr := List.mem_cons.1 hr
    · cases heq
      exact .inl ⟨rfl, rfl⟩
    · exact .inr hr
  have hfinished {rowId : Int} (hf : .finished rowId ∈ Observed.received k row :: a.log) :
      .finished rowId ∈ a.log := by simpa using hf
  refine ⟨h.handler, h.intact, h.sorted, fun j other hr => ?_, fun j hj => ?_,
    fun j t ht hopen => ?_, fun j other hr => ?_, fun j t other ht hr => ?_, ?_,
    fun ahead j other hahead hr hf => ?_, h.ahead, fun rowId hf => h.done rowId (hfinished hf),
    fun handler other event hr => h.handed handler other event (by simpa [onNotification] using hr),
    ⟨(increasing_cons_of (by simp)).2 h.resumes.increasing, fun j other hr hc => ?_,
      fun j other hr => ?_⟩⟩
  · rw [show (a.onNotification k p row).sessions.length = a.sessions.length by
      simp [onNotification, setSession]]
    obtain ⟨rfl, rfl⟩ | hr := hreceived hr
    · refine ⟨List.mem_of_getElem? hrow, ?_⟩
      exact (List.getElem?_eq_some_iff.1 hs).1
    · exact h.known j other hr
  · obtain ⟨t, ht, hanswered⟩ := h.current j hj
    refine ⟨_, getElem?_modify_eq_some.2 ⟨t, ht, rfl⟩, ?_⟩
    split <;> exact hanswered
  · obtain ⟨t', ht', rfl⟩ := getElem?_modify_eq_some.1 ht
    exact h.alone j t' ht' (by split at hopen <;> exact hopen)
  · obtain hr | hr := List.mem_append.1 hr
    · exact List.mem_cons_of_mem _ (h.queued j other hr)
    · cases List.mem_singleton.1 hr
      exact List.mem_cons_self
  · obtain ⟨t', ht', rfl⟩ := getElem?_modify_eq_some.1 ht
    obtain hr | hr := List.mem_append.1 hr
    · have hbehind := h.behind j t' other ht' hr
      split
      · rename_i hkj
        subst hkj
        obtain rfl := Option.some.inj (hs.symm.trans ht')
        rw [hp, Option.getD_some] at hbehind
        exact List.take_subset_take_left _ (Nat.le_succ p) hbehind
      · exact hbehind
    · cases List.mem_singleton.1 hr
      rw [if_pos rfl]
      have hbound : p < min (p + 1) a.database.length := by omega
      exact List.mem_take_iff_getElem.2 ⟨p, hbound, hget⟩
  · refine List.pairwise_append.2 ⟨h.ordered, List.pairwise_singleton _ _, ?_⟩
    rintro ⟨j, other⟩ hother x hx rfl
    cases List.mem_singleton.1 hx
    have hbehind := h.behind k s other hs hother
    rw [hp, Option.getD_some] at hbehind
    exact hsorted.2.2 other hbehind row List.mem_cons_self
  · obtain ⟨rfl, rfl⟩ | hr := hreceived hr
    · obtain hdone | ⟨_, hleast⟩ := hordinary
      · exact absurd (List.mem_cons_of_mem _ hdone) hf
      · exact hleast ahead hahead
    · exact h.least ahead j other hahead hr fun hf' => hf (List.mem_cons_of_mem _ hf')
  · refine List.mem_cons_of_mem _ ?_
    obtain ⟨rfl, rfl⟩ | hr := hreceived hr
    · obtain hdone | ⟨hnot, _⟩ := hordinary
      · exact hdone
      · exact absurd hc (Bool.eq_false_iff.1 hnot)
    · exact h.resumes.covered j other hr hc
  · have hsession' : (a.onNotification k p row).session = some k := hsession
    unfold Due
    rw [hsession']
    obtain ⟨rfl, rfl⟩ | hr := hreceived hr
    · exact .inr (.inr (.inl (List.mem_append_right _ List.mem_cons_self)))
    · refine (h.resumes.kept j other hr).imp (List.mem_cons_of_mem _) fun hkept =>
        hkept.imp_right fun hdue => ?_
      unfold Due at hdue
      rw [hsession] at hdue
      obtain hqueued | ⟨t, ht, hwrite⟩ := hdue
      · exact .inl (List.mem_append_left _ hqueued)
      · obtain rfl := Option.some.inj (hs.symm.trans ht)
        simp only [Session.willWrite, hp, hdrop] at hwrite
        obtain rfl | hafter := List.mem_cons.1 hwrite
        · exact .inl (List.mem_append_right _ List.mem_cons_self)
        · refine .inr ⟨_, getElem?_modify_eq_some.2 ⟨s, hs, rfl⟩, ?_⟩
          simpa [Session.willWrite, onNotification, setSession] using hafter

theorem sound_arrive (h : a.Sound) {row : IMessageRow}
    (hrow : ∀ other ∈ a.database, other.id < row.id) :
    Sound { a with database := a.database ++ [row] } := by
  refine ⟨h.handler, h.intact, ?_, fun j other hr => ?_, h.current, h.alone, h.queued,
    fun j s other hs hr => ?_, h.ordered, h.least, h.ahead, h.done, h.handed,
    ⟨h.resumes.increasing, h.resumes.covered, fun j other hr => ?_⟩⟩
  · refine List.pairwise_append.2 ⟨h.sorted, List.pairwise_singleton _ _, ?_⟩
    intro other hother x hx
    rw [List.mem_singleton.1 hx]
    exact hrow other hother
  · have hknown := h.known j other hr
    exact ⟨List.mem_append_left _ hknown.1, hknown.2⟩
  · have hbehind := h.behind j s other hs hr
    rw [List.take_append]
    exact List.mem_append_left _ hbehind
  · refine (h.resumes.kept j other hr).imp_right fun hkept => hkept.imp_right fun hdue => ?_
    unfold Due at hdue ⊢
    cases hsession : a.session with
    | none => simpa [hsession, covers] using hdue
    | some k =>
      rw [hsession] at hdue
      refine hdue.imp_right ?_
      rintro ⟨s, hs, hwrite⟩
      refine ⟨s, hs, ?_⟩
      unfold Session.willWrite at hwrite ⊢
      cases hp : s.position with
      | none => simpa [hp] using hwrite
      | some p =>
        simp only [hp] at hwrite
        simp only [List.drop_append]
        exact List.mem_append_left _ hwrite

/-- Another handler is subscribed. -/
theorem sound_handler (h : a.Sound) {handler : Option Handler} (hsome : handler.isSome = true) :
    Sound { a with handler := handler } :=
  ⟨hsome, h.intact, h.sorted, h.known, h.current, h.alone, h.queued, h.behind, h.ordered, h.least,
    h.ahead, h.done, h.handed, ⟨h.resumes.increasing, h.resumes.covered, h.resumes.kept⟩⟩

/-- An attempt that was answered leaves the slot. -/
theorem sound_settled (h : a.Sound) {k : Nat} {s : Session} (hs : a.sessions[k]? = some s)
    (hanswered : s.answered = true) (hslot : a.connecting = some k) :
    Sound { a with connecting := none } := by
  refine ⟨h.handler, h.intact, h.sorted, h.known, fun j hj => ?_, h.alone, h.queued, h.behind,
    h.ordered, h.least, h.ahead, h.done, h.handed,
    ⟨h.resumes.increasing, h.resumes.covered, h.resumes.kept⟩⟩
  obtain ⟨t, ht, hconnected, hopen⟩ := h.current j hj
  refine ⟨t, ht, hconnected, fun hnot => ?_⟩
  have hjk : k = j := Option.some.inj (hslot.symm.trans (hopen hnot))
  subst hjk
  obtain rfl := Option.some.inj (hs.symm.trans ht)
  rw [hanswered] at hnot
  cases hnot

theorem sound_turnOver (h : a.Sound) {row : IMessageRow} (hrunning : a.running = some row)
    {settled : Except JsAny Unit} (hC : a.Resumable (.turn settled)) :
    (a.turnOver row settled).Sound := by
  obtain ⟨answer, hanswer⟩ := hC
  have hturn : a.turnOver row settled = finish { a with running := none } row.id := by
    simp only [turnOver, hanswer]
  rw [hturn]
  refine sound_conclude h (fun other hother => ?_) fun k other hr hf => ?_
  · rw [Option.some.inj (hrunning.symm.trans hother)]
  · exact h.least row k other hrunning hr hf

theorem sound_step {a' : IMessageAdapter} {action : Action} (h : a.Sound)
    (hC : a.Subscribed action ∧ a.Resumable action) (hstep : a.step action = some a') :
    a'.Sound := by
  cases action with
  | arrive row =>
    simp only [step, Option.ite_none_right_eq_some, Option.some.injEq, List.all_eq_true,
      decide_eq_true_eq] at hstep
    obtain ⟨hrow, rfl⟩ := hstep
    exact sound_arrive h hrow
  | connect spawned =>
    obtain rfl := Option.some.inj hstep
    exact sound_connect h hC.2
  | disconnect =>
    obtain rfl := Option.some.inj hstep
    unfold disconnect
    split
    · exact h
    · exact sound_close h _
  | onInbound handler =>
    obtain rfl := Option.some.inj hstep
    exact sound_handler h rfl
  | unsubscribe handler =>
    obtain rfl := Option.some.inj hstep
    unfold unsubscribe
    rw [if_neg hC.1]
    exact h
  | watch k =>
    obtain ⟨s, hs, hstep'⟩ := Option.bind_eq_some_iff.1 hstep
    simp only [Option.ite_none_right_eq_some, Option.some.injEq] at hstep'
    obtain ⟨⟨hopen, hposition⟩, rfl⟩ := hstep'
    exact sound_watch h hs hopen hposition
  | write k =>
    obtain ⟨s, hs, hstep'⟩ := Option.bind_eq_some_iff.1 hstep
    obtain ⟨p, hp, hstep'⟩ := Option.bind_eq_some_iff.1 hstep'
    obtain ⟨row, hrow, hstep'⟩ := Option.bind_eq_some_iff.1 hstep'
    simp only [Option.ite_none_right_eq_some, Option.some.injEq] at hstep'
    obtain ⟨hopen, rfl⟩ := hstep'
    exact sound_onNotification h hs hopen hp hrow hC.2
  | answered k result =>
    obtain ⟨s, hs, hstep'⟩ := Option.bind_eq_some_iff.1 hstep
    simp only [Option.ite_none_left_eq_some, Option.some.injEq] at hstep'
    obtain ⟨_, rfl⟩ := hstep'
    exact sound_openSession h k result
  | settled k =>
    obtain ⟨s, hs, hstep'⟩ := Option.bind_eq_some_iff.1 hstep
    simp only [Option.ite_none_right_eq_some, Option.some.injEq] at hstep'
    obtain ⟨⟨hanswered, hslot⟩, rfl⟩ := hstep'
    exact sound_settled h hs hanswered hslot
  | closed k =>
    simp only [step, Option.ite_none_right_eq_some, Option.some.injEq] at hstep
    obtain ⟨_, rfl⟩ := hstep
    exact sound_close h k
  | next now =>
    simp only [step] at hstep
    split at hstep
    · rename_i k row rest hidle hrows
      obtain rfl := Option.some.inj hstep
      exact sound_nextRow h hidle hrows now
    · cases hstep
  | turn settled =>
    obtain ⟨row, hrunning, rfl⟩ := Option.map_eq_some_iff.1 hstep
    exact sound_turnOver h hrunning hC.2

theorem sound_subscribed (handler : Handler) : Sound { handler := some handler } where
  handler := rfl
  intact := rfl
  sorted := .nil
  known k row hr := by cases hr
  current k hk := by cases hk
  alone k s hs := by simp at hs
  queued k row hr := by cases hr
  behind k s row hs := by simp at hs
  ordered := .nil
  least ahead k row hahead := by cases hahead
  ahead row hrow := by cases hrow
  done rowId hf := by cases hf
  handed handler row event hr := by cases hr
  resumes := ⟨trivial, fun k row hr => (by cases hr), fun k row hr => (by cases hr)⟩

/-- Once the child of a session has nothing more to write and the chain is empty, every row ever
received has finished its turn. -/
theorem finished_of_caughtUp (h : a.Resumes) (hcaught : a.CaughtUp) {j : Nat} {row : IMessageRow}
    (hr : .received j row ∈ a.log) : .finished row.id ∈ a.log := by
  obtain ⟨k, s, hsession, hs, hposition, hrows, hidle⟩ := hcaught
  obtain hf | hrunning | hdue := h.kept j row hr
  · exact hf
  · rw [hidle] at hrunning
    cases hrunning
  · unfold Due at hdue
    rw [hsession] at hdue
    obtain hqueued | ⟨t, ht, hwrite⟩ := hdue
    · simp [hrows] at hqueued
    · obtain rfl := Option.some.inj (hs.symm.trans ht)
      simp [Session.willWrite, hposition] at hwrite

/-- With a handler subscribed throughout, rows are handed over once and in order, the cursor covers
no row whose turn has not finished and no row is lost, in every run of resumable steps. -/
theorem resumes_of_resumable (handler : Handler) (as : List Action) (a : IMessageAdapter)
    (hrun : run step { handler := some handler } as = some a)
    (hsubscribed : Meets step Subscribed { handler := some handler } as)
    (hresumable : Meets step Resumable { handler := some handler } as) :
    a.Resumes ∧ (a.CaughtUp → ∀ k row, .received k row ∈ a.log → .finished row.id ∈ a.log) := by
  have hsound := invariant_of_meets (fun _ _ _ h hC hstep => sound_step h hC hstep)
    (sound_subscribed handler) (hsubscribed.and hresumable) hrun
  exact ⟨hsound.resumes, fun hcaught k row hr => finished_of_caughtUp hsound.resumes hcaught hr⟩

/-- A message from someone else. -/
def textRow (id : Int) : IMessageRow where
  id := id
  chatId := some (.finite 7)
  guid := some (js "guid")
  sender := some (js "+15550100")
  isFromMe := some false
  text := some (js "hi")

def childBegins (k : Nat) : List Action :=
  [.connect true, .watch k, .answered k true, .settled k]

/-- A child dies while one row is being handled and another waits, and the next one is asked for
what comes after the first two. -/
def resumption : List Action :=
  childBegins 0 ++ [.arrive (textRow 1), .write 0, .next (.finite 0), .turn (.ok ()),
    .arrive (textRow 2), .write 0, .arrive (textRow 3), .write 0, .next (.finite 0), .closed 0,
    .turn (.ok ())] ++
  childBegins 1 ++ [.next (.finite 0), .write 1, .next (.finite 0), .turn (.ok ())]

theorem subscribed_of_noUnsubscribe {s : IMessageAdapter} {as : List Action}
    (h : ∀ action ∈ as, ∀ handler, action ≠ .unsubscribe handler) : Meets step Subscribed s as :=
  meets_of_forall fun action ha t => by
    cases action with
    | unsubscribe handler => exact absurd rfl (h _ ha handler)
    | _ => trivial

theorem resumes_of_resumable_resumption :
    ∃ a, run step { handler := some 0 } resumption = some a ∧ a.Resumes ∧
      .received 0 (textRow 3) ∈ a.log ∧ .received 1 (textRow 3) ∈ a.log ∧
      ∀ k row, .received k row ∈ a.log → .finished row.id ∈ a.log := by
  have hany : (run step { handler := some 0 } resumption).any (fun a =>
      a.session = some 1 ∧ (∃ s ∈ a.sessions[1]?, s.position = some a.database.length) ∧
      a.rows = [] ∧ a.running = none ∧ .received 0 (textRow 3) ∈ a.log ∧
      .received 1 (textRow 3) ∈ a.log) = true := by
    decide +kernel
  obtain ⟨a, hrun, ha⟩ := (Option.any_eq_true _ _).1 hany
  obtain ⟨hsession, ⟨s, hs, hposition⟩, hrows, hidle, hfirst, hsecond⟩ := of_decide_eq_true ha
  obtain ⟨hresumes, hfinished⟩ := resumes_of_resumable 0 resumption a hrun
    (subscribed_of_noUnsubscribe (by simp [resumption, childBegins])) (by decide +kernel)
  exact ⟨a, hrun, hresumes, hfirst, hsecond,
    hfinished ⟨1, s, hsession, hs, hposition, hrows, hidle⟩⟩

/-- A row that waits when the first child dies is not asked for again, and the cursor passes it. -/
theorem waiting_row_lost :
    ¬ ∀ (handler : Handler) (as : List Action) (a : IMessageAdapter),
      run step { handler := some handler } as = some a →
      Meets step Subscribed { handler := some handler } as → a.Resumes := by
  intro h
  have hlost : (run step { handler := some 0 } (childBegins 0 ++
      [.arrive (textRow 1), .write 0, .arrive (textRow 2), .write 0, .next (.finite 0),
        .closed 0] ++
      childBegins 1 ++ [.turn (.ok ()), .next (.finite 0), .arrive (textRow 3), .write 1,
        .next (.finite 0), .turn (.ok ())])).any
      (fun a => .received 0 (textRow 2) ∈ a.log ∧ a.covers 2 = true ∧ .finished 2 ∉ a.log) := by
    decide +kernel
  obtain ⟨a, hrun, hlost⟩ := (Option.any_eq_true _ _).1 hlost
  simp only [decide_eq_true_eq] at hlost
  obtain ⟨hreceived, hcovers, hunfinished⟩ := hlost
  have hresumes := h 0 _ a hrun (subscribed_of_noUnsubscribe (by simp [childBegins]))
  exact hunfinished (hresumes.covered 0 (textRow 2) hreceived hcovers)

end IMessageAdapter

end TheokitGateways.IMessage
