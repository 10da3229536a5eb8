import TheokitGateways.GoogleChat.KeySet

/-!
# When Google's key set is read, and what it answers

`Contract` holds after every run: lookups share a read, reads begin a minute
apart, and what a lookup is answered is what the copy says when the read it has
waited for, if any, has ended.
-/

namespace TheokitGateways.GoogleChat
open Js Records Refresh Transition

namespace KeySet

variable {Key : Type} {createPublicKey : Json → Option Key} {asymmetricKeyType : Key → JsString}

/-- What the copy says of a `kid`. -/
def Says (s : KeySet Key) (kid : JsString) : KeyLookup Key → Prop
  | .listed key => ∃ held, s.held = some held ∧ held.keys.get kid = some key
  | .unlisted => ∃ held, s.held = some held ∧ held.keys.get kid = none
  | .unavailable message => s.held = none ∧ message = s.unavailableMessage

/-- A lookup is answered what the copy says, or rejected as the read it has waited for was. -/
def Fits (s : KeySet Key) (l : Lookup Key) : Except JsAny (KeyLookup Key) → Prop
  | .ok answer => s.Says l.kid answer
  | .error error => ∃ n, l.waits = some n ∧ s.rejection n = some error

/-- The read that a lookup waits for, if any, has ended. -/
def Ended (s : KeySet Key) (l : Lookup Key) : Prop :=
  ∀ n, l.waits = some n → ∃ r, s.history.numbered n = some r ∧ r.endedAt.isSome = true

/-- What holds of a key set, and of what it does next. -/
structure Contract (createPublicKey : Json → Option Key) (asymmetricKeyType : Key → JsString)
    (s : KeySet Key) : Prop where
  single : ∀ (i j : Nat) (r t : Read ReadFailure (Held Key)), s.history[i]? = some r →
    s.history[j]? = some t → r.endedAt = none → t.endedAt = none → i = j
  spaced : s.history.Spaced (fun r => some r.startedAt) unknownKidRefetchFloorMs
  held : s.held = s.history.copy
  shared : ∀ (n : Nat) (kid : JsString) (now startedAt : Rat) (s' : KeySet Key),
    s.reading = some n →
    s.step createPublicKey asymmetricKeyType (.forKid kid now startedAt) = some s' →
    s'.reading = some n ∧ s'.history = s.history ∧
      (s.freshKey kid now = none → s'.lookups = s.lookups ++ [{ kid := kid, waits := some n }])
  atOnce : ∀ (kid : JsString) (now startedAt : Rat) (key : Key) (s' : KeySet Key),
    s.freshKey kid now = some key →
    s.step createPublicKey asymmetricKeyType (.forKid kid now startedAt) = some s' →
    s'.history = s.history ∧
      s'.lookups = s.lookups ++ [{ kid := kid, answer := some (.ok (.listed key)) }]
  answers : ∀ (action : KeySetAction) (s' : KeySet Key),
    s.step createPublicKey asymmetricKeyType action = some s' →
    ∀ (i : Nat) (l : Lookup Key) (answer : Except JsAny (KeyLookup Key)),
      s'.lookups[i]? = some l → l.answer = some answer →
      (∃ before, s.lookups[i]? = some before ∧ before.answer = some answer) ∨
        (s.Ended l ∧ s.Fits l answer)
  goesOn : ∀ (i : Nat) (l : Lookup Key), s.lookups[i]? = some l → l.answer = none →
    (l.waits.isSome = true ∧ l.waits = s.reading) ∨ ∃ s' l',
      s.step createPublicKey asymmetricKeyType (.resume i) = some s' ∧
        s'.lookups[i]? = some l' ∧ l'.answer.isSome = true

/-- A lookup that has no answer waits, and what it waits for is a read. -/
def Waits (s : KeySet Key) (l : Lookup Key) : Prop :=
  (l.answer = none → l.waits.isSome = true) ∧
    ∀ n, l.waits = some n → 0 < n ∧ n ≤ s.history.length

/-- What every step keeps. -/
structure Sound (s : KeySet Key) : Prop where
  spaced : s.history.Spaced (fun r => some r.startedAt) unknownKidRefetchFloorMs
  held : s.held = s.history.copy
  reading : s.reading = if s.history.inFlight then some s.history.length else none
  lastStart : s.lastReadStartedAt = s.history.lastStart
  waiting : ∀ l ∈ s.lookups, s.Waits l

variable {s s' : KeySet Key} {action : KeySetAction} {kid : JsString} {now startedAt : Rat}

/-! ## Steps -/

theorem Sound.isSome_reading (h : s.Sound) : s.reading.isSome = s.history.inFlight := by
  rw [h.reading]
  cases s.history.inFlight <;> rfl

/-- The clock is of no matter. -/
theorem Sound.withClock (h : s.Sound) (clock : Option Rat) : Sound { s with clock := clock } :=
  ⟨h.spaced, h.held, h.reading, h.lastStart, h.waiting⟩

theorem Sound.withLookups (h : s.Sound) {lookups : List (Lookup Key)}
    (hwaiting : ∀ l ∈ lookups, s.Waits l) : Sound { s with lookups := lookups } :=
  ⟨h.spaced, h.held, h.reading, h.lastStart, hwaiting⟩

/-- One more lookup. -/
theorem Sound.addLookup (h : s.Sound) {l : Lookup Key} (hl : s.Waits l) :
    Sound { s with lookups := s.lookups ++ [l] } := by
  refine h.withLookups fun m hm => ?_
  obtain hm | hm := List.mem_append.1 hm
  · exact h.waiting m hm
  · obtain rfl := List.mem_singleton.1 hm
    exact hl

theorem sound_read (h : s.Sound) (hlater : s.mayRead now = true ∨ s.reading.isSome = true)
    (hstarted : now ≤ startedAt) : (s.read startedAt).Sound := by
  unfold read
  split
  · exact h
  · rename_i hnone
    have hidle : s.history.inFlight = false := by
      rw [← h.isSome_reading]
      exact Bool.eq_false_iff.2 hnone
    have hmay : s.mayRead now = true := hlater.resolve_right hnone
    have hgap : (0 : Rat) ≤ unknownKidRefetchFloorMs := by decide
    have hlast (t : Rat) (ht : s.history.lastStart = some t) :
        t + unknownKidRefetchFloorMs ≤ startedAt := by
      rw [mayRead, h.lastStart, ht] at hmay
      have hfloor : unknownKidRefetchFloorMs ≤ now - t := by simpa using hmay
      grind
    refine ⟨h.spaced.start_of_lastStart hgap (h.spaced.ended hidle) hlast, h.held, rfl, rfl,
      fun l hl => ?_⟩
    obtain ⟨hwaits, hnumber⟩ := h.waiting l hl
    refine ⟨hwaits, fun n hn => ?_⟩
    obtain ⟨hpos, hle⟩ := hnumber n hn
    exact ⟨hpos, Nat.le_succ_of_le hle⟩

/-- A lookup may wait for the read in flight. -/
theorem Sound.waits_reading (h : s.Sound) (hreading : s.reading.isSome = true) :
    s.Waits { kid := kid, waits := s.reading } := by
  refine ⟨fun _ => hreading, fun n hn => ?_⟩
  have hlength := h.reading
  rw [if_pos (h.isSome_reading ▸ hreading)] at hlength
  obtain rfl : n = s.history.length := Option.some.inj (hn.symm.trans hlength)
  refine ⟨?_, Nat.le_refl _⟩
  apply List.length_pos_iff.2
  rintro hnil
  rw [h.isSome_reading, hnil] at hreading
  cases hreading

theorem waits_of_answered {answer : Except JsAny (KeyLookup Key)} :
    s.Waits { kid := kid, answer := some answer } :=
  ⟨fun hnone => (nomatch hnone), fun _ hn => (nomatch hn)⟩

theorem isSome_reading_read : (s.read now).reading.isSome = true := by
  unfold read
  split
  · assumption
  · rfl

theorem sound_forKid (h : s.Sound) (hstarted : now ≤ startedAt) :
    (s.forKid kid now startedAt).Sound := by
  unfold forKid
  split
  · exact h.addLookup waits_of_answered
  · split
    · rename_i hlater
      have hread := sound_read h (by simpa using hlater) hstarted
      exact hread.addLookup (hread.waits_reading isSome_reading_read)
    · exact h.addLookup waits_of_answered

theorem sound_complete (h : s.Sound) (hreading : s.reading.isSome = true)
    (hopen : s.history.isComplete = false) (outcome : Except ReadFailure (Held Key)) :
    (s.complete outcome).Sound := by
  have hflight : s.history.inFlight = true := by rw [← h.isSome_reading, hreading]
  have hnumber (o : Except ReadFailure (Held Key)) : s.reading =
      if (s.history.complete o).inFlight then some (s.history.complete o).length else none := by
    rw [History.inFlight_complete, History.length_complete]
    exact h.reading
  have hlast (o : Except ReadFailure (Held Key)) :
      s.lastReadStartedAt = (s.history.complete o).lastStart := by
    rw [History.lastStart_complete, h.lastStart]
  have hwaits (o : Except ReadFailure (Held Key)) (l : Lookup Key) (hl : l ∈ s.lookups) :
      (l.answer = none → l.waits.isSome = true) ∧
        ∀ n, l.waits = some n → 0 < n ∧ n ≤ (s.history.complete o).length := by
    rw [History.length_complete]
    exact h.waiting l hl
  have hheld (failure : ReadFailure) : s.held = (s.history.complete (.error failure)).copy := by
    rw [History.copy_complete_error hopen, h.held]
  cases outcome with
  | ok fresh =>
    exact ⟨h.spaced.complete, (History.copy_complete_ok hflight fresh).symm, hnumber _, hlast _,
      hwaits _⟩
  | error failure =>
    cases failure <;>
      exact ⟨h.spaced.complete, hheld _, hnumber _, hlast _, hwaits _⟩

theorem sound_finish (h : s.Sound) : (s.finish now).Sound := by
  refine ⟨h.spaced.finish, ?_, ?_, ?_, fun l hl => ?_⟩
  · show s.held = (s.history.finish now).copy
    rw [History.copy_finish, h.held]
  · show none = if (s.history.finish now).inFlight then _ else none
    rw [History.inFlight_finish]
    rfl
  · show s.lastReadStartedAt = (s.history.finish now).lastStart
    rw [History.lastStart_finish, h.lastStart]
  · show _ ∧ ∀ n, l.waits = some n → 0 < n ∧ n ≤ (s.history.finish now).length
    rw [History.length_finish]
    exact h.waiting l hl

theorem sound_init (url : JsString) : Sound ({ url := url } : KeySet Key) where
  spaced := .nil
  held := rfl
  reading := rfl
  lastStart := rfl
  waiting _ h := nomatch h

theorem sound_step (h : s.Sound)
    (hstep : s.step createPublicKey asymmetricKeyType action = some s') : s'.Sound := by
  cases action with
  | forKid kid now startedAt =>
    simp only [step, Option.ite_none_right_eq_some] at hstep
    obtain ⟨⟨_, hstarted⟩, hstep⟩ := hstep
    obtain rfl := Option.some.inj hstep
    exact sound_forKid (h.withClock _) hstarted
  | complete fetched now =>
    simp only [step, Option.ite_none_right_eq_some, Bool.and_eq_true, Bool.not_eq_true'] at hstep
    obtain ⟨⟨hreading, hopen⟩, hstep⟩ := hstep
    obtain rfl := Option.some.inj hstep
    exact sound_complete h hreading hopen _
  | finish now =>
    simp only [step, Option.ite_none_right_eq_some] at hstep
    obtain ⟨_, hstep⟩ := hstep
    obtain rfl := Option.some.inj hstep
    exact sound_finish (h.withClock _)
  | resume i =>
    obtain ⟨l, hl, hstep⟩ := Option.bind_eq_some_iff.1 hstep
    split at hstep
    · cases hstep
    · obtain rfl := Option.some.inj hstep
      have hnumber := (h.waiting l (List.mem_of_getElem? hl)).2
      exact h.withLookups (forall_set i h.waiting ⟨fun hnone => (nomatch hnone), hnumber⟩)

/-! ## Answers -/

theorem says_answer : s.Says kid (s.answer kid) := by
  unfold answer
  split
  · exact ⟨‹_›, rfl⟩
  · rename_i held hheld
    split
    · exact ⟨held, hheld, ‹_›⟩
    · exact ⟨held, hheld, ‹_›⟩

theorem says_freshKey {key : Key} (h : s.freshKey kid now = some key) :
    s.Says kid (.listed key) := by
  obtain ⟨held, hheld, hkey⟩ := Option.bind_eq_some_iff.1 h
  exact ⟨held, (Option.filter_eq_some_iff.1 hheld).1, hkey⟩

theorem fits_settle (l : Lookup Key) : s.Fits l (s.settle l) := by
  unfold settle
  split
  · rename_i error herror
    exact Option.bind_eq_some_iff.1 herror
  · exact says_answer

theorem ended_of_answered {answer : Option (Except JsAny (KeyLookup Key))} :
    s.Ended { kid := kid, answer := answer } :=
  fun _ hn => nomatch hn

/-- The read that a lookup has waited for has ended when it is not the one in flight. -/
theorem Sound.ended (h : s.Sound) {l : Lookup Key} (hl : l ∈ s.lookups)
    (hfree : ¬(l.waits.isSome = true ∧ l.waits = s.reading)) : s.Ended l := by
  intro n hn
  obtain ⟨hpos, hle⟩ := (h.waiting l hl).2 n hn
  refine h.spaced.numbered_ended hpos hle ?_
  rcases Nat.lt_or_eq_of_le hle with hlt | rfl
  · exact .inl hlt
  · refine .inr (Bool.eq_false_iff.2 fun hflight => hfree ⟨by rw [hn]; rfl, ?_⟩)
    rw [h.reading, if_pos hflight, hn]

theorem lookups_read : (s.read now).lookups = s.lookups := by
  unfold read
  split <;> rfl

/-- A step that answers a lookup answers what the copy says. -/
theorem fits_step (h : s.Sound)
    (hstep : s.step createPublicKey asymmetricKeyType action = some s') {i : Nat} {l : Lookup Key}
    {answer : Except JsAny (KeyLookup Key)} (hl : s'.lookups[i]? = some l)
    (hanswer : l.answer = some answer) :
    (∃ before, s.lookups[i]? = some before ∧ before.answer = some answer) ∨
      (s.Ended l ∧ s.Fits l answer) := by
  cases action with
  | forKid kid now startedAt =>
    simp only [step, Option.ite_none_right_eq_some] at hstep
    obtain ⟨_, hstep⟩ := hstep
    obtain rfl := Option.some.inj hstep
    unfold forKid at hl
    split at hl
    · rename_i key hkey
      obtain hl | ⟨_, rfl⟩ := getElem?_append_singleton.1 hl
      · exact .inl ⟨l, hl, hanswer⟩
      · obtain rfl := Option.some.inj hanswer
        exact .inr ⟨ended_of_answered, @says_freshKey _ s _ _ _ hkey⟩
    · split at hl
      · dsimp only at hl
        rw [lookups_read] at hl
        obtain hl | ⟨_, rfl⟩ := getElem?_append_singleton.1 hl
        · exact .inl ⟨l, hl, hanswer⟩
        · cases hanswer
      · obtain hl | ⟨_, rfl⟩ := getElem?_append_singleton.1 hl
        · exact .inl ⟨l, hl, hanswer⟩
        · obtain rfl := Option.some.inj hanswer
          exact .inr ⟨ended_of_answered, @says_answer _ s _⟩
  | complete fetched now =>
    simp only [step, Option.ite_none_right_eq_some] at hstep
    obtain ⟨_, hstep⟩ := hstep
    obtain rfl := Option.some.inj hstep
    refine .inl ⟨l, ?_, hanswer⟩
    unfold complete at hl
    split at hl <;> exact hl
  | finish now =>
    simp only [step, Option.ite_none_right_eq_some] at hstep
    obtain ⟨_, hstep⟩ := hstep
    obtain rfl := Option.some.inj hstep
    exact .inl ⟨l, hl, hanswer⟩
  | resume j =>
    obtain ⟨before, hbefore, hstep⟩ := Option.bind_eq_some_iff.1 hstep
    split at hstep
    · cases hstep
    · rename_i hfree
      obtain rfl := Option.some.inj hstep
      obtain ⟨_, rfl⟩ | ⟨_, hl⟩ := getElem?_set_eq_some hl
      · obtain rfl := Option.some.inj hanswer
        have hended : s.Ended before := h.ended (List.mem_of_getElem? hbefore) fun hwaits =>
          hfree (by rw [hwaits.1, decide_eq_true hwaits.2]; exact Bool.or_true _)
        exact .inr ⟨hended, fits_settle before⟩
      · exact .inl ⟨l, hl, hanswer⟩

/-- A lookup that waits for no read in flight can go on. -/
theorem resume_step {i : Nat} {l : Lookup Key} (hl : s.lookups[i]? = some l)
    (hnone : l.answer = none) (hfree : ¬(l.waits.isSome = true ∧ l.waits = s.reading)) :
    ∃ s' l', s.step createPublicKey asymmetricKeyType (.resume i) = some s' ∧
      s'.lookups[i]? = some l' ∧ l'.answer.isSome = true := by
  have hgoes : (l.answer.isSome || (l.waits.isSome && l.waits = s.reading)) = false := by
    simpa [hnone] using hfree
  refine ⟨{ s with lookups := s.lookups.set i { l with answer := some (s.settle l) } },
    { l with answer := some (s.settle l) }, ?_, ?_, rfl⟩
  · show (s.lookups[i]?).bind _ = some _
    rw [hl, Option.bind_some, hgoes]
    rfl
  · exact List.getElem?_set_self (List.getElem?_eq_some_iff.1 hl).1

theorem Sound.contract (h : s.Sound) : s.Contract createPublicKey asymmetricKeyType where
  single _ _ _ _ hr ht hopenR hopenT := h.spaced.single hr ht hopenR hopenT
  spaced := h.spaced
  held := h.held
  shared n kid now startedAt s' hreading hstep := by
    simp only [step, Option.ite_none_right_eq_some] at hstep
    obtain ⟨_, hstep⟩ := hstep
    obtain rfl := Option.some.inj hstep
    unfold forKid
    split
    · rename_i key hkey
      refine ⟨hreading, rfl, fun hnone => ?_⟩
      cases (show s.freshKey kid now = some key from hkey).symm.trans hnone
    · rw [if_pos (by simp [hreading])]
      simp [read, hreading]
  atOnce kid now startedAt key s' hkey hstep := by
    simp only [step, Option.ite_none_right_eq_some] at hstep
    obtain ⟨_, hstep⟩ := hstep
    obtain rfl := Option.some.inj hstep
    have hkey' : freshKey { s with clock := some startedAt } kid now = some key := hkey
    unfold forKid
    rw [hkey']
    exact ⟨rfl, rfl⟩
  answers _ _ hstep _ _ _ hl hanswer := fits_step h hstep hl hanswer
  goesOn i l hl hnone := by
    by_cases hwaits : l.waits.isSome = true ∧ l.waits = s.reading
    · exact .inl hwaits
    · exact .inr (resume_step hl hnone hwaits)

/-- Whatever is looked up and whatever the reads come to, the key set keeps its contract. -/
theorem googleKeySet_contract (createPublicKey : Json → Option Key)
    (asymmetricKeyType : Key → JsString)
    (url : JsString) (as : List KeySetAction) (s : KeySet Key)
    (hrun : run (step createPublicKey asymmetricKeyType) { url := url } as = some s) :
    s.Contract createPublicKey asymmetricKeyType :=
  (invariant (fun _ _ _ h hstep => sound_step h hstep) (sound_init url) hrun).contract

/-- A key set of one key, fresh for a minute and a half. -/
def certs : Response where
  ok := true
  status := 200
  body := some (utf8Encode (Json.object [(js "keys", .array [.object [(js "kid", .string (js "a")),
    (js "kty", .string (js "RSA")), (js "e", .string (js "AQAB")),
    (js "n", .string (js
      "u1SU1LfVLPHCozMxH2Mo4lgOEePzNm0tRgeLezV6ffAt0gunVTLw7onLRnrq0_IzW7yWR7Qk"))]])]).stringify)
  cacheControl := some (js "public, max-age=90")

/-- An RSA key is named by its modulus. -/
def modulusOf (entry : Json) : Option JsString :=
  if optString (entry.get (js "kty")) = some (js "RSA") then optString (entry.get (js "n"))
  else none

/-- Two lookups share a read that succeeds; a later one fails. -/
def sharedRead : List KeySetAction :=
  [.forKid (js "a") 0 0, .forKid (js "b") 5 5, .complete (.response certs) 10, .finish 10,
    .resume 1, .resume 0, .forKid (js "a") 50000 50000, .forKid (js "b") 59999 59999,
    .forKid (js "b") 60000 60001, .complete (.rejected (some (js "TimeoutError"))) 70001,
    .finish 70001, .resume 4]

theorem googleKeySet_contract_sharedRead : ∃ s,
    run (step modulusOf fun _ => js "rsa") { url := js "https://k" } sharedRead = some s ∧
      s.Contract modulusOf fun _ => js "rsa" := by
  have hsome : (run (step modulusOf fun _ => js "rsa") { url := js "https://k" }
      sharedRead).isSome = true := by
    decide +kernel
  obtain ⟨s, hrun⟩ := Option.isSome_iff_exists.1 hsome
  exact ⟨s, hrun,
    googleKeySet_contract modulusOf (fun _ => js "rsa") (js "https://k") sharedRead s hrun⟩

end KeySet
end TheokitGateways.GoogleChat
