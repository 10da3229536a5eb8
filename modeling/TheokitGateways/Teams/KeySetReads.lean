import TheokitGateways.Records
import TheokitGateways.Teams.PublishedKeySet

/-!
# When a key set is read, and what it answers

`Contract` holds after every run: reads are apart and keep the last good copy, a
key of the copy is answered at once, and a lookup that has waited is answered
with what the latest read came to.
-/

namespace TheokitGateways.Teams
open Js Records Refresh Transition

namespace KeySet

variable {Key : Type} {createPublicKey : Json → Option Key} {asymmetricKeyType : Key → JsString}

/-- What an answer says of the reads. -/
def Fits (s : KeySet Key) (kid : JsString) : KeyLookup Key → Prop
  | .listed key => ∃ keys, s.history.copy = some keys ∧ keys.get kid = some key
  | .unlisted => ∃ keys, s.history.latest = some (.ok keys) ∧ keys.get kid = none
  | .unavailable _ => s.history.copy = none ∨ ∃ failed, s.history.latest = some (.error failed)

/-- What holds of a key set, and of what it does next. -/
structure Contract (createPublicKey : Json → Option Key) (asymmetricKeyType : Key → JsString)
    (s : KeySet Key) : Prop where
  single : ∀ (i j : Nat) (r t : Read JsString (Keys Key)), s.history[i]? = some r →
    s.history[j]? = some t → r.endedAt = none → t.endedAt = none → i = j
  spaced : s.history.Spaced (·.endedAt) keySetReadIntervalMs
  held : s.held = s.history.copy
  atOnce : ∀ (kid : JsString) (now : Rat) (key : PublishedKey Key) (s' : KeySet Key),
    s.held.bind (·.get kid) = some key →
    s.step createPublicKey asymmetricKeyType (.lookup kid now) = some s' →
    s'.lookups = s.lookups ++ [{ kid := kid, answer := some (.listed key) }]
  answers : ∀ (action : KeySetAction) (s' : KeySet Key),
    s.step createPublicKey asymmetricKeyType action = some s' →
    ∀ (i : Nat) (l : Lookup Key) (answer : KeyLookup Key), s'.lookups[i]? = some l →
      l.answer = some answer →
      (∃ before, s.lookups[i]? = some before ∧ before.answer = some answer) ∨ s.Fits l.kid answer
  goesOn : ∀ (i : Nat) (l : Lookup Key), s.lookups[i]? = some l → l.answer = none →
    (l.waits.isSome = true ∧ l.waits = s.reading) ∨ ∃ s' l',
      s.step createPublicKey asymmetricKeyType (.resume i) = some s' ∧
        s'.lookups[i]? = some l' ∧ l'.answer.isSome = true
  settles : s.reading.isSome = true → ∀ now, reached s.clock now = true →
    (∀ fetched, (s.step createPublicKey asymmetricKeyType (.complete fetched now)).isSome = true) ∨
      (s.step createPublicKey asymmetricKeyType (.finish now)).isSome = true

/-- Why a read failed, if it did. -/
def failureOf : Option (Except JsString (Keys Key)) → Option JsString
  | some (.error failed) => some failed
  | _ => none

/-- What every step keeps. -/
structure Sound (s : KeySet Key) : Prop where
  spaced : s.history.Spaced (·.endedAt) keySetReadIntervalMs
  held : s.held = s.history.copy
  failure : s.lastFailure = failureOf s.history.latest
  reading : s.reading.isSome = s.history.inFlight
  rested : s.reading = none → ∀ r ∈ s.history, ∃ t n, r.endedAt = some t ∧ s.nextReadAt = some n ∧
    t + keySetReadIntervalMs ≤ n
  past : ∀ r ∈ s.history, ∃ now, s.clock = some now ∧ r.startedAt ≤ now

variable {s s' : KeySet Key} {action : KeySetAction}

/-! ## Steps -/

theorem Sound.tick (h : s.Sound) (hclock : action.now.all (reached s.clock) = true) :
    (s.tick action).Sound := by
  refine ⟨h.spaced, h.held, h.failure, h.reading, h.rested, fun r hr => ?_⟩
  obtain ⟨before, hbefore, hle⟩ := h.past r hr
  cases hnow : action.now with
  | none => exact ⟨before, by simp [KeySet.tick, hnow, hbefore], hle⟩
  | some now =>
    rw [hnow, hbefore] at hclock
    have hlater : before ≤ now := reached_some.1 hclock
    exact ⟨now, by simp [KeySet.tick, hnow], by grind⟩

/-- The reading of the clock that an action has taken. -/
theorem clock_tick {now : Rat} (hnow : action.now = some now) :
    (s.tick action).clock = some now := by
  simp [KeySet.tick, hnow]

theorem sound_currentRead (h : s.Sound) {now : Rat} (hclock : s.clock = some now) :
    (s.currentRead now).Sound := by
  unfold currentRead
  split
  · rename_i hfree
    simp only [Bool.and_eq_true, Option.isNone_iff_eq_none] at hfree
    obtain ⟨hnone, hreached⟩ := hfree
    have hidle : s.history.inFlight = false := by rw [← h.reading, hnone]; rfl
    refine ⟨h.spaced.start (h.spaced.ended hidle) fun r hr => ?_, h.held, h.failure, rfl, nofun,
      fun r hr => ?_⟩
    · obtain ⟨t, n, hended, hnext, hle⟩ := h.rested hnone r hr
      rw [hnext, reached_some] at hreached
      exact ⟨t, hended, by grind⟩
    · obtain rfl | hr := List.mem_cons.1 hr
      · exact ⟨now, hclock, Rat.le_refl⟩
      · exact h.past r hr
  · exact h

/-- The lookups are of no matter. -/
theorem Sound.withLookups (h : s.Sound) (lookups : List (Lookup Key)) :
    Sound { s with lookups := lookups } :=
  ⟨h.spaced, h.held, h.failure, h.reading, h.rested, h.past⟩

theorem sound_lookup (h : s.Sound) (kid : JsString) {now : Rat} (hclock : s.clock = some now) :
    (s.lookup kid now).Sound := by
  unfold lookup
  split
  · dsimp only
    split
    · exact (sound_currentRead h hclock).withLookups _
    · exact h.withLookups _
  · exact (sound_currentRead h hclock).withLookups _

theorem sound_complete (h : s.Sound) (hreading : s.reading.isSome = true)
    (hopen : s.history.isComplete = false) (outcome : Except JsString (Keys Key)) (now : Rat) :
    (s.complete outcome now).Sound := by
  have hflight : s.history.inFlight = true := by rw [← h.reading, hreading]
  have hrested : s.reading = none → False := fun hnone => by simp [hnone] at hreading
  have hpast (o : Except JsString (Keys Key)) : ∀ r ∈ s.history.complete o,
      ∃ now, s.clock = some now ∧ r.startedAt ≤ now := by
    intro r hr
    obtain ⟨before, hbefore, hstart, _⟩ := History.exists_of_mem_complete hr
    rw [← hstart]
    exact h.past before hbefore
  have hreading' (o : Except JsString (Keys Key)) :
      s.reading.isSome = (s.history.complete o).inFlight := by
    rw [h.reading, History.inFlight_complete]
  cases outcome with
  | ok fresh =>
    refine ⟨h.spaced.complete, (History.copy_complete_ok hflight fresh).symm, ?_, hreading' _,
      fun hnone => (hrested hnone).elim, hpast _⟩
    show none = failureOf (s.history.complete (.ok fresh)).latest
    rw [History.latest_complete hflight]
    rfl
  | error failed =>
    refine ⟨h.spaced.complete, ?_, ?_, hreading' _, fun hnone => (hrested hnone).elim, hpast _⟩
    · show s.held = (s.history.complete (.error failed)).copy
      rw [h.held, History.copy_complete_error hopen]
    · show some failed = failureOf (s.history.complete (.error failed)).latest
      rw [History.latest_complete hflight]
      rfl

theorem sound_finish (h : s.Sound) {now : Rat} (hclock : s.clock = some now) :
    (s.finish now).Sound := by
  have hstarted : ∀ r ∈ s.history, r.startedAt ≤ now := by
    intro r hr
    obtain ⟨clock, hclock', hle⟩ := h.past r hr
    obtain rfl : now = clock := Option.some.inj (hclock.symm.trans hclock')
    exact hle
  refine ⟨h.spaced.finish, ?_, ?_, ?_, fun _ r hr => ?_, fun r hr => ?_⟩
  · show s.held = (s.history.finish now).copy
    rw [h.held, History.copy_finish]
  · show s.lastFailure = failureOf (s.history.finish now).latest
    rw [h.failure, History.latest_finish]
  · exact History.inFlight_finish.symm
  · obtain ⟨t, ht, hle⟩ := h.spaced.ended_le (by decide) hstarted r hr
    exact ⟨t, _, ht, rfl, by grind⟩
  · obtain ⟨before, hbefore, hsame⟩ := History.exists_of_mem_finish hr
    exact ⟨now, hclock, by rw [← hsame]; exact hstarted before hbefore⟩

theorem sound_init (label url : JsString) :
    Sound ({ label := label, url := url } : KeySet Key) where
  spaced := .nil
  held := rfl
  failure := rfl
  reading := rfl
  rested _ _ h := nomatch h
  past _ h := nomatch h

theorem sound_step (h : s.Sound)
    (hstep : s.step createPublicKey asymmetricKeyType action = some s') : s'.Sound := by
  unfold step at hstep
  split at hstep
  · cases hstep
  · rename_i hclock
    have htick := h.tick (by simpa using hclock)
    cases action with
    | lookup kid now =>
      obtain rfl := Option.some.inj hstep
      exact sound_lookup htick kid (clock_tick rfl)
    | complete fetched now =>
      simp only [Option.ite_none_right_eq_some, Bool.and_eq_true, Bool.not_eq_true'] at hstep
      obtain ⟨⟨hreading, hopen⟩, hstep⟩ := hstep
      obtain rfl := Option.some.inj hstep
      exact sound_complete htick hreading hopen _ now
    | finish now =>
      simp only [Option.ite_none_right_eq_some] at hstep
      obtain ⟨_, hstep⟩ := hstep
      obtain rfl := Option.some.inj hstep
      exact sound_finish htick (clock_tick rfl)
    | resume i =>
      obtain ⟨l, _, hstep⟩ := Option.bind_eq_some_iff.1 hstep
      split at hstep
      · cases hstep
      · obtain rfl := Option.some.inj hstep
        exact htick.withLookups _

/-! ## Answers -/

theorem fits_listed (h : s.Sound) {kid : JsString} {key : PublishedKey Key}
    (hkey : s.held.bind (·.get kid) = some key) : s.Fits kid (.listed key) := by
  obtain ⟨keys, hkeys, hget⟩ := Option.bind_eq_some_iff.1 hkey
  exact ⟨keys, h.held ▸ hkeys, hget⟩

theorem fits_answer (h : s.Sound) (kid : JsString) : s.Fits kid (s.answer kid) := by
  unfold answer
  split
  · exact fits_listed h ‹_›
  · rename_i hmissing
    split
    · rename_i hwhy
      simp only [Bool.or_eq_true, Option.isNone_iff_eq_none] at hwhy
      obtain hnone | hfailed := hwhy
      · exact .inl (h.held ▸ hnone)
      · rw [h.failure] at hfailed
        cases hlatest : s.history.latest with
        | none => rw [hlatest] at hfailed; cases hfailed
        | some outcome =>
          cases outcome with
          | ok keys => rw [hlatest] at hfailed; cases hfailed
          | error failed => exact .inr ⟨failed, hlatest⟩
    · rename_i hwhy
      simp only [Bool.or_eq_true, Option.isNone_iff_eq_none, not_or] at hwhy
      obtain ⟨hheld, hfailure⟩ := hwhy
      -- There is a copy, and so a read that completed; it did not fail.
      obtain ⟨keys, hkeys⟩ := Option.ne_none_iff_exists'.1 hheld
      have hcopy : s.history.copy = some keys := h.held ▸ hkeys
      obtain ⟨outcome, hlatest⟩ := Option.isSome_iff_exists.1 (History.latest_isSome_of_copy hcopy)
      cases outcome with
      | error failed =>
        rw [h.failure, hlatest] at hfailure
        exact absurd rfl hfailure
      | ok fresh =>
        have hfresh := History.copy_of_latest hlatest
        rw [hcopy, Option.some.injEq] at hfresh
        subst hfresh
        refine ⟨keys, hlatest, ?_⟩
        rw [hkeys] at hmissing
        exact hmissing

theorem lookups_currentRead (now : Rat) : (s.currentRead now).lookups = s.lookups := by
  unfold currentRead
  split <;> rfl

/-- A key of the copy is answered at once. -/
theorem lookups_of_held {kid : JsString} {now : Rat} {key : PublishedKey Key}
    (hkey : s.held.bind (·.get kid) = some key) : (s.lookup kid now).lookups =
      s.lookups ++ [{ kid := kid, answer := some (.listed key) }] := by
  unfold lookup
  rw [hkey]
  dsimp only
  split
  · rw [lookups_currentRead]
  · rfl

theorem lookups_of_missing {kid : JsString} {now : Rat} (hkey : s.held.bind (·.get kid) = none) :
    (s.lookup kid now).lookups =
      s.lookups ++ [{ kid := kid, waits := (s.currentRead now).reading }] := by
  unfold lookup
  rw [hkey]
  dsimp only
  rw [lookups_currentRead]

theorem lookups_complete (outcome : Except JsString (Keys Key)) (now : Rat) :
    (s.complete outcome now).lookups = s.lookups := by
  cases outcome <;> rfl

/-- A step that answers a lookup answers it with what the reads came to. -/
theorem fits_step (h : s.Sound)
    (hstep : s.step createPublicKey asymmetricKeyType action = some s') {i : Nat} {l : Lookup Key}
    {answer : KeyLookup Key} (hl : s'.lookups[i]? = some l) (hanswer : l.answer = some answer) :
    (∃ before, s.lookups[i]? = some before ∧ before.answer = some answer) ∨
      s.Fits l.kid answer := by
  unfold step at hstep
  split at hstep
  · cases hstep
  · cases action with
    | lookup kid now =>
      obtain rfl := Option.some.inj hstep
      cases hkey : s.held.bind (·.get kid) with
      | some key =>
        rw [lookups_of_held (s := s.tick _) hkey] at hl
        obtain hl | ⟨_, rfl⟩ := getElem?_append_singleton.1 hl
        · exact .inl ⟨l, hl, hanswer⟩
        · obtain rfl := Option.some.inj hanswer
          exact .inr (fits_listed h hkey)
      | none =>
        rw [lookups_of_missing (s := s.tick _) hkey] at hl
        obtain hl | ⟨_, rfl⟩ := getElem?_append_singleton.1 hl
        · exact .inl ⟨l, hl, hanswer⟩
        · cases hanswer
    | complete fetched now =>
      dsimp only at hstep
      split at hstep
      · obtain rfl := Option.some.inj hstep
        rw [lookups_complete] at hl
        exact .inl ⟨l, hl, hanswer⟩
      · cases hstep
    | finish now =>
      dsimp only at hstep
      split at hstep
      · obtain rfl := Option.some.inj hstep
        exact .inl ⟨l, hl, hanswer⟩
      · cases hstep
    | resume j =>
      obtain ⟨before, _, hstep⟩ := Option.bind_eq_some_iff.1 hstep
      split at hstep
      · cases hstep
      · obtain rfl := Option.some.inj hstep
        obtain ⟨_, rfl⟩ | ⟨_, hl⟩ := getElem?_set_eq_some hl
        · obtain rfl := Option.some.inj hanswer
          exact .inr (fits_answer h before.kid)
        · exact .inl ⟨l, hl, hanswer⟩

/-- A lookup that waits for no read in flight can go on. -/
theorem resume_step {i : Nat} {l : Lookup Key} (hl : s.lookups[i]? = some l)
    (hnone : l.answer = none) (hfree : ¬(l.waits.isSome = true ∧ l.waits = s.reading)) :
    ∃ s' l', s.step createPublicKey asymmetricKeyType (.resume i) = some s' ∧
      s'.lookups[i]? = some l' ∧ l'.answer.isSome = true := by
  have hgoes : (l.answer.isSome || (l.waits.isSome && l.waits = s.reading)) = false := by
    simpa [hnone] using hfree
  refine ⟨{ s with lookups := s.lookups.set i { l with answer := some (s.answer l.kid) } },
    { l with answer := some (s.answer l.kid) }, ?_, ?_, rfl⟩
  · show ((s.tick (.resume i)).lookups[i]?).bind _ = some _
    rw [show (s.tick (.resume i)).lookups[i]? = some l from hl, Option.bind_some,
      show (l.answer.isSome || (l.waits.isSome && l.waits = (s.tick (.resume i)).reading)) = false
        from hgoes]
    rfl
  · exact List.getElem?_set_self (List.getElem?_eq_some_iff.1 hl).1

/-- A read in flight can come to anything, and then end. -/
theorem settles_step (hreading : s.reading.isSome = true) {now : Rat}
    (hclock : reached s.clock now = true) :
    (∀ fetched, (s.step createPublicKey asymmetricKeyType (.complete fetched now)).isSome = true) ∨
      (s.step createPublicKey asymmetricKeyType (.finish now)).isSome = true := by
  have hreading' (action : KeySetAction) : (s.tick action).reading.isSome = true := hreading
  have hsame (action : KeySetAction) : (s.tick action).history = s.history := rfl
  cases hcomplete : s.history.isComplete with
  | false =>
    refine .inl fun fetched => ?_
    simp [step, KeySetAction.now, hclock, hreading', hsame, hcomplete]
  | true => exact .inr (by simp [step, KeySetAction.now, hclock, hreading', hsame, hcomplete])

theorem Sound.contract (h : s.Sound) : s.Contract createPublicKey asymmetricKeyType where
  single _ _ _ _ hr ht hopenR hopenT := h.spaced.single hr ht hopenR hopenT
  spaced := h.spaced
  held := h.held
  atOnce kid now key s' hkey hstep := by
    unfold step at hstep
    split at hstep
    · cases hstep
    · obtain rfl := Option.some.inj hstep
      exact lookups_of_held (s := s.tick _) hkey
  answers _ _ hstep _ _ _ hl hanswer := fits_step h hstep hl hanswer
  goesOn i l hl hnone := by
    by_cases hwaits : l.waits.isSome = true ∧ l.waits = s.reading
    · exact .inl hwaits
    · exact .inr (resume_step hl hnone hwaits)
  settles hreading _ hclock := settles_step hreading hclock

/-- Whatever is looked up and whatever the reads come to, a key set keeps its contract. -/
theorem keySet_contract (createPublicKey : Json → Option Key) (asymmetricKeyType : Key → JsString)
    (label url : JsString) (as : List KeySetAction) (s : KeySet Key)
    (hrun : run (step createPublicKey asymmetricKeyType) { label := label, url := url } as =
      some s) : s.Contract createPublicKey asymmetricKeyType :=
  (invariant (fun _ _ _ h hstep => sound_step h hstep) (sound_init label url) hrun).contract

/-- A key set of one key. -/
def oneKeySet : Json := .object [(js "keys", .array [.object [(js "kid", .string (js "a")),
  (js "kty", .string (js "RSA")), (js "e", .string (js "AQAB")),
  (js "n", .string (js "u1SU1LfVLPHCozMxH2Mo4lgOEePzNm0tRgeLezV6ffAt0gunVTLw7onLRnrq0_IzW7yWR7Qk")
  )]])]

/-- An RSA key is named by its modulus. -/
def rsaModulus (entry : Json) : Option JsString :=
  if optString (entry.get (js "kty")) = some (js "RSA") then optString (entry.get (js "n"))
  else none

/-- One read succeeds, and one fails. -/
def twoReads : List KeySetAction :=
  [.lookup (js "a") 0,
    .complete (.response ⟨true, 200, some { chunks := [utf8Encode oneKeySet.stringify] }⟩) 5,
    .finish 6, .resume 0, .lookup (js "b") 7, .resume 1, .lookup (js "b") 10006,
    .complete (.rejected (.error (js "TimeoutError") none none)) 20006, .finish 20006, .resume 2,
    .lookup (js "a") 3600006]

theorem keySet_contract_twoReads : ∃ s,
    run (step rsaModulus fun _ => js "rsa") { label := js "Entra tenant", url := js "https://k" }
      twoReads = some s ∧ s.Contract rsaModulus fun _ => js "rsa" := by
  have hsome : (run (step rsaModulus fun _ => js "rsa")
      { label := js "Entra tenant", url := js "https://k" } twoReads).isSome = true := by
    decide +kernel
  obtain ⟨s, hrun⟩ := Option.isSome_iff_exists.1 hsome
  exact ⟨s, hrun, keySet_contract rsaModulus (fun _ => js "rsa") (js "Entra tenant")
    (js "https://k") twoReads s hrun⟩

end KeySet
end TheokitGateways.Teams
