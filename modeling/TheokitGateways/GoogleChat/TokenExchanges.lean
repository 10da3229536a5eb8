import TheokitGateways.GoogleChat.AccessToken

/-!
# Google Chat: which tokens are handed out

Calls share one exchange, and what has failed concerns the calls that waited for
it only. A held token has a minute left when it is handed out, since the client
looks. A token that has just been exchanged is handed out without a look, so that
it has a minute left exactly when the endpoint granted that much.
-/

namespace TheokitGateways.GoogleChat
open Js Refresh Transition

/-- A token that expires then has a minute left. -/
def LastsAMinute (expiresAt : JsNumber) (now : Rat) : Prop :=
  match expiresAt with
  | .finite t => now + 60000 ≤ t
  | .infinite negative => negative = false
  | .nan => False

instance (expiresAt : JsNumber) (now : Rat) : Decidable (LastsAMinute expiresAt now) :=
  match expiresAt with
  | .finite t => inferInstanceAs (Decidable (now + 60000 ≤ t))
  | .infinite negative => inferInstanceAs (Decidable (negative = false))
  | .nan => inferInstanceAs (Decidable False)

namespace AccessTokenClient

/-- What holds of a client, and of what it does next. -/
structure Contract (s : AccessTokenClient) : Prop where
  single : ∀ (i j : Nat) (r t : Read ExchangeError Grant), s.history[i]? = some r →
    s.history[j]? = some t → r.endedAt = none → t.endedAt = none → i = j
  held : s.held = s.history.copy.map Grant.held
  rejected : ∀ c ∈ s.calls, ∀ err, c.answer = some (.error err) →
    ∃ n, c.waits = some n ∧ c.settledBefore < n ∧ s.history.outcomeOf n = some (.error err)
  retries : s.history.inFlight = false → ∀ now startedAt s', s.freshToken now = none →
    s.step (.token now startedAt) = some s' → s'.history = s.history.start startedAt

/-- Every token handed out had a minute left. -/
def HandsOutLasting (s : AccessTokenClient) : Prop :=
  ∀ c ∈ s.calls, ∀ handed, c.answer = some (.ok handed) →
    LastsAMinute handed.expiresAt handed.handedAt

/-- When the promise of an exchange that succeeded settles, the lifetime it was answered has a
minute left. -/
def GrantsAMinute (s : AccessTokenClient) : TokenAction → Prop
  | .settle now => ∀ grant, s.outcome = some (.ok grant) →
      LastsAMinute (.finite grant.grantedAt + grant.expiresIn * 1000) now
  | _ => True

/-- What is so of a call: it waits for the exchange in flight until it is answered, and is
rejected as an exchange was that had not settled when it was made. -/
structure Waits (s : AccessTokenClient) (c : TokenCall) : Prop where
  number : ∀ n, c.waits = some n → c.settledBefore < n ∧ n ≤ s.history.length
  waiting : ∀ n, c.waits = some n → s.pending = some n → c.answer = none
  rejected : ∀ err, c.answer = some (.error err) →
    ∃ n, c.waits = some n ∧ s.history.outcomeOf n = some (.error err)

/-- What every step keeps. -/
structure Sound (s : AccessTokenClient) : Prop where
  clock : 0 ≤ s.clock
  started : ∀ t, s.history.lastStart = some t → t ≤ s.clock
  spaced : s.history.Spaced (fun r => some r.startedAt) 0
  held : s.held = s.history.copy.map Grant.held
  pending : s.pending = if s.history.inFlight then some s.history.length else none
  shared : ∀ n, s.pending = some n → ∃ c ∈ s.calls, c.waits = some n
  calls : ∀ c ∈ s.calls, s.Waits c

variable {s t : AccessTokenClient} {now startedAt : Rat}

theorem Sound.isSome_pending (h : s.Sound) : s.pending.isSome = s.history.inFlight := by
  rw [h.pending]
  cases s.history.inFlight <;> rfl

/-- Time passes. -/
theorem Sound.atClock (h : s.Sound) (hnow : s.clock ≤ now) : Sound { s with clock := now } where
  clock := Rat.le_trans h.clock hnow
  started t ht := Rat.le_trans (h.started t ht) hnow
  spaced := h.spaced
  held := h.held
  pending := h.pending
  shared := h.shared
  calls c hc := ⟨(h.calls c hc).number, (h.calls c hc).waiting, (h.calls c hc).rejected⟩

/-- One more call. -/
theorem Sound.addCall (h : s.Sound) {c : TokenCall} (hc : s.Waits c) :
    Sound { s with calls := s.calls ++ [c] } where
  clock := h.clock
  started := h.started
  spaced := h.spaced
  held := h.held
  pending := h.pending
  shared n hn := by
    obtain ⟨d, hd, hwaits⟩ := h.shared n hn
    exact ⟨d, List.mem_append_left _ hd, hwaits⟩
  calls d hd := by
    obtain hd | hd := List.mem_append.1 hd
    · exact ⟨(h.calls d hd).number, (h.calls d hd).waiting, (h.calls d hd).rejected⟩
    · obtain rfl := List.mem_singleton.1 hd
      exact ⟨hc.number, hc.waiting, hc.rejected⟩

/-- A call that finds no exchange in flight starts one. -/
theorem sound_start (h : s.Sound) (hidle : s.pending = none) (hstarted : s.clock ≤ startedAt)
    (settledBefore : Nat) (hsettled : settledBefore ≤ s.history.length) :
    Sound { s with
      pending := some (s.history.length + 1)
      history := s.history.start startedAt
      clock := startedAt
      calls := s.calls ++ [{ settledBefore, waits := some (s.history.length + 1) }] } where
  clock := Rat.le_trans h.clock hstarted
  started t ht := by
    obtain rfl := Option.some.inj ht
    exact Rat.le_refl
  spaced := by
    have hflight : s.history.inFlight = false := by
      rw [← h.isSome_pending, hidle]
      rfl
    refine h.spaced.start_of_lastStart Rat.le_refl (h.spaced.ended hflight) fun t ht => ?_
    have hle := h.started t ht
    grind
  held := h.held
  pending := rfl
  shared n hn := by
    obtain rfl := Option.some.inj hn
    exact ⟨_, List.mem_append_right _ List.mem_cons_self, rfl⟩
  calls c hc := by
    obtain hc | hc := List.mem_append.1 hc
    · have hw := h.calls c hc
      refine ⟨fun n hn => ?_, fun n hn hpending => ?_, fun err herr => ?_⟩
      · exact ⟨(hw.number n hn).1, Nat.le_succ_of_le (hw.number n hn).2⟩
      · obtain rfl := Option.some.inj hpending
        exact absurd (hw.number _ hn).2 (by omega)
      · obtain ⟨n, hn, houtcome⟩ := hw.rejected err herr
        exact ⟨n, hn, (History.outcomeOf_start (hw.number n hn).2).trans houtcome⟩
    · obtain rfl := List.mem_singleton.1 hc
      refine ⟨fun n hn => ?_, fun _ _ _ => rfl, fun err herr => nomatch herr⟩
      obtain rfl := Option.some.inj hn
      exact ⟨Nat.lt_succ_of_le hsettled, Nat.le_refl _⟩

theorem settled_le (s : AccessTokenClient) : s.settled ≤ s.history.length := by
  unfold settled
  split <;> omega

theorem Sound.pending_eq_some (h : s.Sound) {n : Nat} (hn : s.pending = some n) :
    n = s.history.length ∧ s.settled < n := by
  have hflight : s.history.inFlight = true := by
    rw [← h.isSome_pending, hn]
    rfl
  have hnumber := h.pending
  rw [hn, if_pos hflight] at hnumber
  obtain rfl := Option.some.inj hnumber
  refine ⟨rfl, ?_⟩
  rw [settled, if_pos hflight]
  cases hhistory : s.history with
  | nil =>
    rw [hhistory] at hflight
    cases hflight
  | cons r rs => exact Nat.lt_succ_self _

theorem waits_of_ok {settledBefore : Nat} {handed : HandedOut} :
    s.Waits { settledBefore, answer := some (.ok handed) } :=
  ⟨fun _ hn => (nomatch hn), fun _ hn => (nomatch hn), fun _ herr => (nomatch herr)⟩

theorem sound_token (h : s.Sound) (hstarted : s.clock ≤ startedAt) :
    (s.token now startedAt).Sound := by
  unfold token share
  split
  · exact h.addCall waits_of_ok
  · cases hpending : s.pending with
    | none => exact sound_start h hpending hstarted s.settled s.settled_le
    | some n =>
      obtain ⟨hlength, hsettled⟩ := h.pending_eq_some hpending
      have hwaits : s.Waits { settledBefore := s.settled, waits := some n } := by
        refine ⟨fun m hm => ?_, fun _ _ _ => rfl, fun _ herr => nomatch herr⟩
        obtain rfl := Option.some.inj hm
        exact ⟨hsettled, Nat.le_of_eq hlength⟩
      simpa [hpending] using h.addCall hwaits

theorem sound_complete (h : s.Sound) (hpending : s.pending.isSome = true)
    (hopen : s.history.isComplete = false) (outcome : Except ExchangeError Grant) :
    (s.complete outcome).Sound := by
  have hflight : s.history.inFlight = true := by rw [← h.isSome_pending, hpending]
  have hstarted (o : Except ExchangeError Grant) (t : Rat)
      (ht : (s.history.complete o).lastStart = some t) : t ≤ s.clock := by
    rw [History.lastStart_complete] at ht
    exact h.started t ht
  have hnumber (o : Except ExchangeError Grant) : s.pending =
      if (s.history.complete o).inFlight then some (s.history.complete o).length else none := by
    rw [History.inFlight_complete, History.length_complete]
    exact h.pending
  have hcalls (o : Except ExchangeError Grant) (held : Option HeldToken) (c : TokenCall)
      (hc : c ∈ s.calls) : Waits { s with held := held, history := s.history.complete o } c := by
    obtain ⟨hwaits, hwaiting, hrejected⟩ := h.calls c hc
    refine ⟨fun n hn => ?_, hwaiting, fun err herr => ?_⟩
    · show _ ∧ n ≤ (s.history.complete o).length
      rw [History.length_complete]
      exact hwaits n hn
    · obtain ⟨n, hn, houtcome⟩ := hrejected err herr
      exact ⟨n, hn, History.outcomeOf_complete hopen houtcome⟩
  cases outcome with
  | ok grant =>
    refine ⟨h.clock, hstarted _, h.spaced.complete, ?_, hnumber _, h.shared, hcalls _ _⟩
    exact (congrArg (Option.map Grant.held) (History.copy_complete_ok hflight grant)).symm
  | error err =>
    refine ⟨h.clock, hstarted _, h.spaced.complete, ?_, hnumber _, h.shared, hcalls _ _⟩
    show s.held = (s.history.complete (.error err)).copy.map Grant.held
    rw [History.copy_complete_error hopen, h.held]

theorem sound_settle (h : s.Sound) (hpending : s.pending.isSome = true)
    {outcome : Except ExchangeError Grant} (houtcome : s.outcome = some outcome) :
    (s.settle outcome now).Sound := by
  obtain ⟨n, hn⟩ := Option.isSome_iff_exists.1 hpending
  obtain ⟨hlast, _⟩ := h.pending_eq_some hn
  refine ⟨h.clock, fun t ht => ?_, h.spaced.finish, ?_, ?_, fun _ hn => (nomatch hn),
    fun c hc => ?_⟩
  · rw [settle, History.lastStart_finish] at ht
    exact h.started t ht
  · show s.held = (s.history.finish now).copy.map Grant.held
    rw [History.copy_finish, h.held]
  · show none = if (s.history.finish now).inFlight then _ else none
    rw [History.inFlight_finish]
    rfl
  · obtain ⟨d, hd, rfl⟩ := List.mem_map.1 hc
    obtain ⟨hwaits, _, hrejected⟩ := h.calls d hd
    have hlength : (s.settle outcome now).history.length = s.history.length :=
      History.length_finish
    unfold TokenCall.settle
    split
    · rename_i hshared
      refine ⟨fun n hn => ?_, fun _ _ hn => (nomatch hn), fun err herr => ?_⟩
      · rw [hlength]
        exact hwaits n hn
      · refine ⟨n, hshared.trans hn, ?_⟩
        cases outcome with
        | ok grant => cases herr
        | error e =>
          obtain rfl := Except.error.inj (Option.some.inj herr)
          rw [settle, History.outcomeOf_finish, hlast, History.outcomeOf_length]
          exact houtcome
    · refine ⟨fun n hn => ?_, fun _ _ hn => (nomatch hn), fun err herr => ?_⟩
      · rw [hlength]
        exact hwaits n hn
      · obtain ⟨n, hn, ho⟩ := hrejected err herr
        exact ⟨n, hn, (History.outcomeOf_finish n).trans ho⟩

theorem sound_init : Sound {} where
  clock := Rat.le_refl
  started _ h := nomatch h
  spaced := .nil
  held := rfl
  pending := rfl
  shared _ h := nomatch h
  calls _ h := nomatch h

/-! ## Steps -/

theorem step_token (h : s.step (.token now startedAt) = some t) :
    Readable s.clock now ∧ Readable now startedAt ∧
      t = { s with clock := now }.token now startedAt := by
  simp only [step, Option.ite_none_right_eq_some, Option.some.injEq] at h
  exact ⟨h.1.1, h.1.2, h.2.symm⟩

theorem step_complete {exchanged : Exchanged} (h : s.step (.complete exchanged now) = some t) :
    s.pending.isSome = true ∧ s.history.isComplete = false ∧ Readable s.clock now ∧
      t = { s with clock := now }.complete (exchange exchanged now) := by
  simp only [step, Option.ite_none_right_eq_some, Option.some.injEq] at h
  exact ⟨h.1.1, h.1.2.1, h.1.2.2, h.2.symm⟩

theorem step_settle (h : s.step (.settle now) = some t) :
    ∃ outcome, s.outcome = some outcome ∧ s.pending.isSome = true ∧ Readable s.clock now ∧
      t = { s with clock := now }.settle outcome now := by
  simp only [step] at h
  split at h
  · simp only [Option.ite_none_right_eq_some, Option.some.injEq] at h
    exact ⟨_, ‹_›, h.1.1, h.1.2, h.2.symm⟩
  · cases h

theorem sound_step (s : AccessTokenClient) (action : TokenAction) (t : AccessTokenClient)
    (h : s.Sound) (hstep : s.step action = some t) : t.Sound := by
  cases action with
  | token now startedAt =>
    obtain ⟨hnow, hstarted, rfl⟩ := step_token hstep
    exact sound_token (h.atClock hnow.1) hstarted.1
  | complete exchanged now =>
    obtain ⟨hpending, hopen, hnow, rfl⟩ := step_complete hstep
    exact sound_complete (h.atClock hnow.1) hpending hopen _
  | settle now =>
    obtain ⟨outcome, houtcome, hpending, hnow, rfl⟩ := step_settle hstep
    exact sound_settle (h.atClock hnow.1) hpending houtcome

/-! ## Tokens with a minute left -/

theorem refreshMarginMs_eq : refreshMarginMs = .finite 60000 := by decide +kernel

/-- A held token that is fresh has a minute left. -/
theorem lastsAMinute_of_fresh {held : HeldToken} (hzero : 0 ≤ now)
    (hreading : JsNumber.round now = .finite now) (h : s.freshToken now = some held) :
    LastsAMinute held.expiresAt now := by
  have hlt := (Option.filter_eq_some_iff.1 h).2
  rw [refreshMarginMs_eq] at hlt
  cases hexpires : held.expiresAt with
  | nan =>
    rw [hexpires] at hlt
    cases hlt
  | infinite negative =>
    rw [hexpires] at hlt
    cases negative with
    | false => rfl
    | true => cases hlt
  | finite t =>
    rw [hexpires] at hlt
    have hround : now < t + -60000 := JsNumber.lt_of_lt_round hzero hreading hlt
    show now + 60000 ≤ t
    grind

/-- What is handed out lasts in a longer list when it does in the shorter one and in the call
added. -/
theorem handsOutLasting_append {calls : List TokenCall} {c : TokenCall}
    (hc : ∀ handed, c.answer = some (.ok handed) → LastsAMinute handed.expiresAt handed.handedAt) :
    HandsOutLasting { s with calls := calls ++ [c] } ↔
      HandsOutLasting { s with calls := calls } := by
  constructor
  · exact fun h d hd => h d (List.mem_append_left _ hd)
  · intro h d hd
    obtain hd | hd := List.mem_append.1 hd
    · exact h d hd
    · obtain rfl := List.mem_singleton.1 hd
      exact hc

theorem token_handsOutLasting (h : s.Sound) (hnow : Readable s.clock now) :
    HandsOutLasting ({ s with clock := now }.token now startedAt) ↔ HandsOutLasting s := by
  unfold token share
  split
  · rename_i held hfresh
    refine handsOutLasting_append fun handed hanswer => ?_
    obtain rfl := Except.ok.inj (Option.some.inj hanswer)
    exact lastsAMinute_of_fresh (s := { s with clock := now })
      (Rat.le_trans h.clock hnow.1) hnow.2 hfresh
  · split <;> exact handsOutLasting_append fun _ hanswer => nomatch hanswer

theorem complete_handsOutLasting (outcome : Except ExchangeError Grant) :
    HandsOutLasting (s.complete outcome) ↔ HandsOutLasting s := by
  cases outcome <;> exact Iff.rfl

/-- Settling hands the token of the exchange to the calls that wait for it, of which there is
one. -/
theorem settle_handsOutLasting (h : s.Sound) (hpending : s.pending.isSome = true)
    {outcome : Except ExchangeError Grant} :
    HandsOutLasting (s.settle outcome now) ↔ HandsOutLasting s ∧
      ∀ grant, outcome = .ok grant → LastsAMinute grant.expiresAt now := by
  obtain ⟨n, hn⟩ := Option.isSome_iff_exists.1 hpending
  constructor
  · refine fun hlasting => ⟨fun c hc handed hanswer => ?_, ?_⟩
    · have hsettled := hlasting _ (List.mem_map_of_mem hc) handed
      have hother : c.waits ≠ s.pending := fun hwaits => by
        cases ((h.calls c hc).waiting n (hwaits.trans hn) hn).symm.trans hanswer
      rw [TokenCall.settle, if_neg hother] at hsettled
      exact hsettled hanswer
    · rintro grant rfl
      obtain ⟨c, hc, hwaits⟩ := h.shared n hn
      have hsettled := hlasting _ (List.mem_map_of_mem hc) ⟨grant.token, grant.expiresAt, now⟩
      rw [TokenCall.settle, if_pos (hwaits.trans hn.symm)] at hsettled
      exact hsettled rfl
  · rintro ⟨hlasting, hgrant⟩ d hd handed hanswer
    obtain ⟨c, hc, rfl⟩ := List.mem_map.1 hd
    unfold TokenCall.settle at hanswer
    split at hanswer
    · cases outcome with
      | error err => cases hanswer
      | ok grant =>
        obtain rfl := Except.ok.inj (Option.some.inj hanswer)
        exact hgrant grant rfl
    · exact hlasting c hc handed hanswer

theorem step_handsOutLasting (s : AccessTokenClient) (action : TokenAction)
    (t : AccessTokenClient) (h : s.Sound) (hstep : s.step action = some t) :
    HandsOutLasting t ↔ HandsOutLasting s ∧ GrantsAMinute s action := by
  cases action with
  | token now startedAt =>
    obtain ⟨hnow, _, rfl⟩ := step_token hstep
    rw [token_handsOutLasting h hnow]
    exact (and_iff_left trivial).symm
  | complete exchanged now =>
    obtain ⟨_, _, _, rfl⟩ := step_complete hstep
    rw [complete_handsOutLasting]
    exact (and_iff_left trivial).symm
  | settle now =>
    obtain ⟨outcome, houtcome, hpending, hnow, rfl⟩ := step_settle hstep
    rw [settle_handsOutLasting (h.atClock hnow.1) hpending]
    refine and_congr Iff.rfl ?_
    simp only [GrantsAMinute, houtcome, Option.some.injEq]
    rfl

theorem Sound.contract (h : s.Sound) : s.Contract where
  single _ _ _ _ hr ht hopenR hopenT := h.spaced.single hr ht hopenR hopenT
  held := h.held
  rejected c hc err herr := by
    obtain ⟨n, hn, houtcome⟩ := (h.calls c hc).rejected err herr
    exact ⟨n, hn, ((h.calls c hc).number n hn).1, houtcome⟩
  retries hidle now startedAt t hstale hstep := by
    obtain ⟨_, _, rfl⟩ := step_token hstep
    have hnone : s.pending = none := by
      rw [h.pending, hidle]
      rfl
    have hstale' : freshToken { s with clock := now } now = none := hstale
    rw [token, hstale']
    simp [share, hnone]

/-- Whatever the exchanges come to, one at most is in flight and a failure is that of the calls
that waited for it. Tokens have a minute left when they are handed out exactly when each exchange
that succeeds grants a minute beyond the moment its promise settles. -/
theorem accessTokenClient_handsOutLasting {as : List TokenAction}
    (hrun : run step {} as = some t) :
    t.Contract ∧ (HandsOutLasting t ↔ Meets step GrantsAMinute {} as) := by
  refine ⟨(invariant sound_step sound_init hrun).contract, ?_⟩
  rw [holds_iff_meets sound_step step_handsOutLasting sound_init hrun]
  exact and_iff_right fun _ hc => nomatch hc

/-- Two calls share an exchange whose answer says nothing of a lifetime. -/
def lifetimeless : List TokenAction :=
  [.token 1000 1000, .token 1001 1001,
    .complete (.answered true 200 (some (.object [(js "access_token", .string (js "t"))]))) 1002,
    .settle 1003]

theorem isSome_run_lifetimeless : (run step {} lifetimeless).isSome = true := by decide +kernel

def afterLifetimeless : AccessTokenClient := (run step {} lifetimeless).get isSome_run_lifetimeless

theorem run_lifetimeless : run step {} lifetimeless = some afterLifetimeless :=
  (Option.some_get _).symm

theorem accessTokenClient_handsOutLasting_lifetimeless :
    afterLifetimeless.Contract ∧
      (HandsOutLasting afterLifetimeless ↔ Meets step GrantsAMinute {} lifetimeless) :=
  accessTokenClient_handsOutLasting run_lifetimeless

/-- Both calls resolve with a token that has expired. -/
theorem expired_token_handed_out :
    ¬ ∀ (as : List TokenAction) (t : AccessTokenClient), run step {} as = some t →
      t.Contract ∧ HandsOutLasting t := by
  intro h
  have hlasting := (h lifetimeless afterLifetimeless run_lifetimeless).2
  have hspent : ((afterLifetimeless.calls.head?.bind (·.answer)).any fun answer =>
      match answer with
      | .ok handed => !decide (LastsAMinute handed.expiresAt handed.handedAt)
      | .error _ => false) = true := by
    decide +kernel
  obtain ⟨answer, hanswer, hbad⟩ := (Option.any_eq_true _ _).1 hspent
  obtain ⟨c, hc, hanswer⟩ := Option.bind_eq_some_iff.1 hanswer
  cases answer with
  | error err => cases hbad
  | ok handed => simp [hlasting c (List.mem_of_head? hc) handed hanswer] at hbad

end AccessTokenClient
end TheokitGateways.GoogleChat
