/-!
# A copy that is read again

Something is read from time to time, one read after another, and the copy of the
latest read that succeeded is kept. A history lists the reads, the newest first;
only its first one can be in flight. `Spaced` says that reads keep a distance,
measured from a time of the earlier read that `since` names, and that each began
when the one before had ended. What starting, completing and ending a read do to
it and to the copy are the rules a proof about such a component needs.
-/

namespace TheokitGateways.Refresh

variable {ε α : Type}

structure Read (ε α : Type) where
  startedAt : Rat
  /-- What it came to. -/
  outcome : Option (Except ε α) := none
  endedAt : Option Rat := none

abbrev History (ε α : Type) := List (Read ε α)

/-- A time has come; `none` is before all time. -/
def reached (t : Option Rat) (now : Rat) : Bool := t.all fun t => t ≤ now

@[simp] theorem reached_some {t now : Rat} : reached (some t) now = true ↔ t ≤ now := by
  simp [reached]

namespace History

/-- The first read has not ended. -/
def inFlight : History ε α → Bool
  | [] => false
  | r :: _ => r.endedAt.isNone

/-- The first read has come to something. -/
def isComplete (rs : History ε α) : Bool := rs.head?.any (·.outcome.isSome)

/-- When the first read began. -/
def lastStart (rs : History ε α) : Option Rat := rs.head?.map (·.startedAt)

/-- The read of a number; they are counted from 1. -/
def numbered (rs : History ε α) (n : Nat) : Option (Read ε α) := rs[rs.length - n]?

/-- What the read of a number came to. -/
def outcomeOf (rs : History ε α) (n : Nat) : Option (Except ε α) :=
  (rs.numbered n).bind (·.outcome)

/-- What the latest read that completed came to. -/
def latest (rs : History ε α) : Option (Except ε α) := rs.findSome? (·.outcome)

/-- The copy of the latest read that succeeded. -/
def copy (rs : History ε α) : Option α := rs.findSome? fun r => r.outcome.bind Except.toOption

def start (now : Rat) (rs : History ε α) : History ε α := { startedAt := now } :: rs

def complete (outcome : Except ε α) : History ε α → History ε α
  | [] => []
  | r :: rs => { r with outcome := some outcome } :: rs

def finish (now : Rat) : History ε α → History ε α
  | [] => []
  | r :: rs => { r with endedAt := some now } :: rs

/-- Each read began when those before it had ended, and a distance after the time of them that
`since` names. -/
def Spaced (since : Read ε α → Option Rat) (gap : Rat) (rs : History ε α) : Prop :=
  rs.Pairwise fun later earlier => earlier.endedAt.isSome = true ∧
    ∃ t, since earlier = some t ∧ t + gap ≤ later.startedAt

variable {rs : History ε α} {now gap : Rat} {outcome : Except ε α} {since : Read ε α → Option Rat}

@[simp] theorem latest_finish : (rs.finish now).latest = rs.latest := by
  cases rs <;> rfl

@[simp] theorem copy_finish : (rs.finish now).copy = rs.copy := by
  cases rs <;> rfl

@[simp] theorem inFlight_complete : (rs.complete outcome).inFlight = rs.inFlight := by
  cases rs <;> rfl

@[simp] theorem inFlight_finish : (rs.finish now).inFlight = false := by
  cases rs <;> rfl

@[simp] theorem length_complete : (rs.complete outcome).length = rs.length := by
  cases rs <;> rfl

@[simp] theorem length_finish : (rs.finish now).length = rs.length := by
  cases rs <;> rfl

@[simp] theorem lastStart_complete : (rs.complete outcome).lastStart = rs.lastStart := by
  cases rs <;> rfl

@[simp] theorem lastStart_finish : (rs.finish now).lastStart = rs.lastStart := by
  cases rs <;> rfl

/-- Completing a read changes no time. -/
theorem exists_of_mem_complete {r : Read ε α} (h : r ∈ rs.complete outcome) :
    ∃ before ∈ rs, before.startedAt = r.startedAt ∧ before.endedAt = r.endedAt := by
  cases rs with
  | nil => cases h
  | cons first rs =>
    obtain rfl | h := List.mem_cons.1 h
    · exact ⟨first, List.mem_cons_self, rfl, rfl⟩
    · exact ⟨r, List.mem_cons_of_mem _ h, rfl, rfl⟩

/-- Nor does ending one change where reads began. -/
theorem exists_of_mem_finish {r : Read ε α} (h : r ∈ rs.finish now) :
    ∃ before ∈ rs, before.startedAt = r.startedAt := by
  cases rs with
  | nil => cases h
  | cons first rs =>
    obtain rfl | h := List.mem_cons.1 h
    · exact ⟨first, List.mem_cons_self, rfl⟩
    · exact ⟨r, List.mem_cons_of_mem _ h, rfl⟩

theorem outcomeOf_start {n : Nat} (hn : n ≤ rs.length) :
    (rs.start now).outcomeOf n = rs.outcomeOf n := by
  have hindex : rs.length + 1 - n = rs.length - n + 1 := by omega
  rw [outcomeOf, outcomeOf, numbered, numbered, start, List.length_cons, hindex,
    List.getElem?_cons_succ]

@[simp] theorem outcomeOf_finish (n : Nat) : (rs.finish now).outcomeOf n = rs.outcomeOf n := by
  cases rs with
  | nil => rfl
  | cons r rs =>
    show ((({ r with endedAt := some now } : Read ε α) :: rs)[rs.length + 1 - n]?).bind _ =
      ((r :: rs)[rs.length + 1 - n]?).bind _
    cases rs.length + 1 - n <;> rfl

/-- Completing the read in flight leaves what others came to. -/
theorem outcomeOf_complete (hopen : rs.isComplete = false) {n : Nat} {earlier : Except ε α}
    (h : rs.outcomeOf n = some earlier) : (rs.complete outcome).outcomeOf n = some earlier := by
  cases rs with
  | nil => exact h
  | cons r rs =>
    have hnone : r.outcome = none := by simpa [isComplete] using hopen
    simp only [outcomeOf, numbered, complete, List.length_cons] at h ⊢
    cases hindex : rs.length + 1 - n with
    | zero =>
      rw [hindex, List.getElem?_cons_zero, Option.bind_some, hnone] at h
      cases h
    | succ i =>
      rw [hindex] at h
      exact h

theorem outcomeOf_length : rs.outcomeOf rs.length = rs.head?.bind (·.outcome) := by
  rw [outcomeOf, numbered, Nat.sub_self, List.head?_eq_getElem?]

theorem latest_complete (h : rs.inFlight = true) : (rs.complete outcome).latest = some outcome := by
  cases rs with
  | nil => cases h
  | cons r rs => rfl

/-- A read that succeeds replaces the copy. -/
theorem copy_complete_ok (h : rs.inFlight = true) (fresh : α) :
    (rs.complete (.ok fresh)).copy = some fresh := by
  cases rs with
  | nil => cases h
  | cons r rs => rfl

/-- A read that fails keeps it. -/
theorem copy_complete_error (hopen : rs.isComplete = false) (err : ε) :
    (rs.complete (.error err)).copy = rs.copy := by
  cases rs with
  | nil => rfl
  | cons r rs =>
    have hnone : r.outcome = none := by simpa [isComplete] using hopen
    have hbind : r.outcome.bind Except.toOption = none := by rw [hnone]; rfl
    rw [complete, copy, copy, List.findSome?_cons_of_isNone (by rfl),
      List.findSome?_cons_of_isNone (by rw [hbind]; rfl)]

/-- What is kept when the latest read succeeded is what it read. -/
theorem copy_of_latest {fresh : α} (h : rs.latest = some (.ok fresh)) : rs.copy = some fresh := by
  induction rs with
  | nil => cases h
  | cons r rs ih =>
    cases hr : r.outcome with
    | none =>
      simp only [latest, copy, List.findSome?_cons, hr, Option.bind_none] at h ⊢
      exact ih h
    | some o =>
      simp only [latest, List.findSome?_cons, hr, Option.some.injEq] at h
      subst h
      simp [copy, hr, Except.toOption]

theorem latest_isSome_of_copy {fresh : α} (h : rs.copy = some fresh) : rs.latest.isSome = true := by
  obtain ⟨r, hr, hfresh⟩ := List.exists_of_findSome?_eq_some h
  rw [latest, List.findSome?_isSome_iff]
  obtain ⟨o, ho, _⟩ := Option.bind_eq_some_iff.1 hfresh
  exact ⟨r, hr, by rw [ho]; rfl⟩

theorem Spaced.start (h : rs.Spaced since gap) (hended : ∀ r ∈ rs, r.endedAt.isSome = true)
    (hgap : ∀ r ∈ rs, ∃ t, since r = some t ∧ t + gap ≤ now) : (rs.start now).Spaced since gap :=
  List.pairwise_cons.2 ⟨fun r hr => ⟨hended r hr, hgap r hr⟩, h⟩

/-- When the distance is measured from where reads begin, the first one is the latest. -/
theorem Spaced.start_of_lastStart (h : rs.Spaced (fun r => some r.startedAt) gap) (hgap : 0 ≤ gap)
    (hended : ∀ r ∈ rs, r.endedAt.isSome = true)
    (hlast : ∀ t, rs.lastStart = some t → t + gap ≤ now) :
    (rs.start now).Spaced (fun r => some r.startedAt) gap := by
  refine h.start hended fun r hr => ⟨r.startedAt, rfl, ?_⟩
  cases rs with
  | nil => cases hr
  | cons first rs =>
    have hfirst : first.startedAt + gap ≤ now := hlast _ rfl
    obtain rfl | hr := List.mem_cons.1 hr
    · exact hfirst
    · obtain ⟨_, t, ht, hle⟩ := (List.pairwise_cons.1 h).1 r hr
      obtain rfl := Option.some.inj ht
      grind

theorem Spaced.complete (h : rs.Spaced since gap) : (rs.complete outcome).Spaced since gap := by
  cases rs with
  | nil => exact h
  | cons r rs =>
    obtain ⟨hfirst, hrest⟩ := List.pairwise_cons.1 h
    exact List.pairwise_cons.2 ⟨hfirst, hrest⟩

theorem Spaced.finish (h : rs.Spaced since gap) : (rs.finish now).Spaced since gap := by
  cases rs with
  | nil => exact h
  | cons r rs =>
    obtain ⟨hfirst, hrest⟩ := List.pairwise_cons.1 h
    exact List.pairwise_cons.2 ⟨hfirst, hrest⟩

/-- When the read in flight ends, it is the last one to have ended. -/
theorem Spaced.ended_le (h : rs.Spaced (·.endedAt) gap) (hgap : 0 ≤ gap)
    (hstarted : ∀ r ∈ rs, r.startedAt ≤ now) :
    ∀ r ∈ rs.finish now, ∃ t, r.endedAt = some t ∧ t ≤ now := by
  intro r hr
  cases rs with
  | nil => cases hr
  | cons first rs =>
    obtain rfl | hr := List.mem_cons.1 hr
    · exact ⟨now, rfl, Rat.le_refl⟩
    · obtain ⟨_, t, ht, hle⟩ := (List.pairwise_cons.1 h).1 r hr
      have hfirst := hstarted first List.mem_cons_self
      exact ⟨t, ht, by grind⟩

/-- One read at most is in flight. -/
theorem Spaced.single (h : rs.Spaced since gap) {i j : Nat} {r s : Read ε α}
    (hr : rs[i]? = some r) (hs : rs[j]? = some s) (hopenR : r.endedAt = none)
    (hopenS : s.endedAt = none) : i = j := by
  rw [Spaced, List.pairwise_iff_getElem] at h
  obtain ⟨hi, rfl⟩ := List.getElem?_eq_some_iff.1 hr
  obtain ⟨hj, rfl⟩ := List.getElem?_eq_some_iff.1 hs
  rcases Nat.lt_trichotomy i j with hlt | heq | hlt
  · have hended := (h i j hi hj hlt).1
    rw [hopenS] at hended
    cases hended
  · exact heq
  · have hended := (h j i hj hi hlt).1
    rw [hopenR] at hended
    cases hended

/-- When none is in flight, all have ended. -/
theorem Spaced.ended (h : rs.Spaced since gap) (hnone : rs.inFlight = false) :
    ∀ r ∈ rs, r.endedAt.isSome = true := by
  cases rs with
  | nil => exact fun _ hr => nomatch hr
  | cons first rs =>
    intro r hr
    obtain rfl | hr := List.mem_cons.1 hr
    · simpa [inFlight] using hnone
    · exact ((List.pairwise_cons.1 h).1 r hr).1

/-- A read that has been started has ended, unless it is the first and in flight. -/
theorem Spaced.numbered_ended (h : rs.Spaced since gap) {n : Nat} (hpos : 0 < n)
    (hle : n ≤ rs.length) (hpast : n < rs.length ∨ rs.inFlight = false) :
    ∃ r, rs.numbered n = some r ∧ r.endedAt.isSome = true := by
  have hlt : rs.length - n < rs.length := by omega
  refine ⟨rs[rs.length - n], List.getElem?_eq_getElem hlt, ?_⟩
  rcases hpast with hpast | hidle
  · rw [Spaced, List.pairwise_iff_getElem] at h
    exact (h 0 (rs.length - n) (by omega) hlt (by omega)).1
  · exact h.ended hidle _ (List.getElem_mem hlt)

end History
end TheokitGateways.Refresh
