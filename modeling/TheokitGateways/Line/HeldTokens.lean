import TheokitGateways.History
import TheokitGateways.Line.ReplyCache
import TheokitGateways.Transition

/-!
# LINE: the reply tokens the cache holds

What was put and taken says which token a user has on offer: that of his latest
put, unless it was taken since. The cache answers with nothing else, and it never
outgrows its capacity. To hold the tokens of the users who were put last is more:
a `Map` drops its first entry, and a user who is put again keeps his place in it,
so that the first entry may be a recent one.
-/

namespace TheokitGateways.Line
open Js History Transition

inductive CacheEvent
  | put (userId token : JsString) (now : Nat)
  | take (userId : JsString) (now : Nat) (token : Option JsString)

/-- The users that were put, each once, the latest first. -/
def recent : List CacheEvent → List JsString
  | [] => []
  | .put userId _ _ :: past => userId :: (recent past).erase userId
  | .take .. :: past => recent past

/-- What a user's latest put left for him, unless it was taken since. -/
def offered (ttlMs : Nat) : List CacheEvent → JsString → Option Entry
  | [], _ => none
  | .put userId token now :: past, x =>
    if x = userId then some ⟨token, now + ttlMs⟩ else offered ttlMs past x
  | .take userId _ _ :: past, x => if x = userId then none else offered ttlMs past x

/-- A take is answered with the token on offer before it expires, or with nothing. -/
def FromOffer (ttlMs : Nat) : CacheEvent → List CacheEvent → Prop
  | .take userId now (some token), past =>
    ∃ entry, offered ttlMs past userId = some entry ∧ entry.token = token ∧ now < entry.expiresAt
  | _, _ => True

/-- How often a token was put for a user. -/
def timesPut (userId token : JsString) (events : List CacheEvent) : Nat :=
  events.countP fun
    | .put u t _ => u = userId ∧ t = token
    | .take .. => False

/-- How often a user was given a token. -/
def timesReturned (userId token : JsString) (events : List CacheEvent) : Nat :=
  events.countP fun
    | .put .. => False
    | .take u _ t => u = userId ∧ t = some token

structure CacheRun where
  cache : ReplyTokenCache
  now : Nat := 0
  events : List CacheEvent := []

namespace CacheRun

inductive Action
  | put (userId token : JsString) (now : Nat)
  | take (userId : JsString) (now : Nat)

/-- Time does not go back. -/
def step (r : CacheRun) : Action → Option CacheRun
  | .put userId token now =>
    if r.now ≤ now then
      some ⟨r.cache.put userId token now, now, .put userId token now :: r.events⟩
    else none
  | .take userId now =>
    if r.now ≤ now then
      let (cache, token) := r.cache.take userId now
      some ⟨cache, now, .take userId now token :: r.events⟩
    else none

def new (ttlMs capacity : Nat) : CacheRun := ⟨.new ttlMs capacity, 0, []⟩

/-- Every token on offer to one of the users put last is there while it has not expired. -/
def HoldsRecent (r : CacheRun) : Prop :=
  ∀ x ∈ (recent r.events).take r.cache.capacity, ∀ entry,
    offered r.cache.ttlMs r.events x = some entry → r.now < entry.expiresAt →
      r.cache.held x r.now = some entry.token

/-- What a put drops from a full cache is the user's own entry, one that has expired, or that
of a user who is not among the latest. -/
def DropsOld (r : CacheRun) : Action → Prop
  | .put userId _ now =>
    r.cache.capacity ≤ r.cache.size → ∀ key entry,
      r.cache.cache.firstKey = some key → r.cache.cache.get key = some entry →
        key = userId ∨ entry.expiresAt ≤ now ∨
          key ∉ (userId :: (recent r.events).erase userId).take r.cache.capacity
  | .take .. => True

end CacheRun

namespace ReplyTokenCache

variable (c : ReplyTokenCache) (userId token : JsString) (now : Nat)

@[simp] theorem capacity_put : (c.put userId token now).capacity = c.capacity := by
  unfold put evictOldest
  grind

@[simp] theorem ttlMs_put : (c.put userId token now).ttlMs = c.ttlMs := by
  unfold put evictOldest
  grind

@[simp] theorem capacity_take : (c.take userId now).1.capacity = c.capacity := by
  unfold take
  split <;> rfl

@[simp] theorem ttlMs_take : (c.take userId now).1.ttlMs = c.ttlMs := by
  unfold take
  split <;> rfl

/-- What a put leaves under each key. -/
theorem get_put_eq (x : JsString) :
    (c.put userId token now).cache.get x =
      if x = userId then some ⟨token, now + c.ttlMs⟩
      else if c.capacity ≤ c.size ∧ c.cache.firstKey = some x then none
      else c.cache.get x := by
  unfold put evictOldest
  by_cases hx : x = userId
  · grind [OrderedMap.get_set]
  · cases hkey : c.cache.firstKey with
    | none => grind [OrderedMap.get_set]
    | some key => grind [OrderedMap.get_set, OrderedMap.get_delete]

theorem get_take_eq (x : JsString) :
    (c.take userId now).1.cache.get x = if x = userId then none else c.cache.get x := by
  unfold take
  split
  · rename_i hnone
    grind
  · exact OrderedMap.get_delete _ _ _

variable {c userId token now}

theorem size_take_le : (c.take userId now).1.size ≤ c.size := by
  unfold take
  split
  · exact Nat.le_refl _
  · exact OrderedMap.size_delete_le _ _

theorem size_evictOldest (h : 0 < c.size) : c.evictOldest.size + 1 = c.size := by
  unfold evictOldest
  cases hkey : c.cache.firstKey with
  | none => exact absurd (OrderedMap.firstKey_eq_none.1 hkey) (Nat.pos_iff_ne_zero.1 h)
  | some key =>
    obtain ⟨entry, hget⟩ := OrderedMap.get_of_firstKey hkey
    exact OrderedMap.size_delete hget

/-- A cache with room for an entry keeps within its capacity. -/
theorem size_put_le (hcapacity : 0 < c.capacity) (h : c.size ≤ c.capacity) :
    (c.put userId token now).size ≤ c.capacity := by
  have hset (d : ReplyTokenCache) := OrderedMap.size_set_le d.cache userId ⟨token, now + d.ttlMs⟩
  unfold put
  split
  · rename_i hfull
    have hevict : c.evictOldest.size + 1 = c.size := size_evictOldest (by omega)
    have hle : c.evictOldest.cache.size + 1 ≤ c.capacity := by
      unfold size at hevict h
      omega
    exact Nat.le_trans (hset c.evictOldest) hle
  · rename_i hroom
    exact Nat.le_trans (hset c) (Nat.lt_of_not_le hroom)

end ReplyTokenCache

/-- Going to the front leaves the first ones among the first ones. -/
theorem mem_take_of_mem_front {u x : JsString} {us : List JsString} {n : Nat} (hne : x ≠ u)
    (h : x ∈ (u :: us.erase u).take n) : x ∈ us.take n := by
  have herase (vs : List JsString) (m : Nat) (hx : x ∈ (vs.erase u).take m) :
      x ∈ vs.take (m + 1) := by
    induction vs generalizing m with
    | nil => simp at hx
    | cons v vs ih =>
      rw [List.take_succ_cons]
      by_cases hv : v = u
      · rw [hv, List.erase_cons_head] at hx
        exact List.mem_cons_of_mem v hx
      · rw [List.erase_cons_tail (by simpa using hv)] at hx
        cases m with
        | zero => simp at hx
        | succ m =>
          obtain rfl | hx := List.mem_cons.1 hx
          · exact List.mem_cons_self
          · exact List.mem_cons_of_mem v (ih m hx)
  cases n with
  | zero => simp at h
  | succ n =>
    obtain rfl | h := List.mem_cons.1 h
    · exact absurd rfl hne
    · exact herase us n h

section Counts

variable {u x token t : JsString} {now : Nat} {taken : Option JsString} {past : List CacheEvent}

theorem timesPut_put : timesPut x token (.put u t now :: past) =
    timesPut x token past + if u = x ∧ t = token then 1 else 0 := by
  simp [timesPut, List.countP_cons]

theorem timesPut_take : timesPut x token (.take u now taken :: past) = timesPut x token past := by
  simp [timesPut]

theorem timesReturned_put :
    timesReturned x token (.put u t now :: past) = timesReturned x token past := by
  simp [timesReturned]

theorem timesReturned_take : timesReturned x token (.take u now taken :: past) =
    timesReturned x token past + if u = x ∧ taken = some token then 1 else 0 := by
  simp [timesReturned, List.countP_cons]

/-- Returns do not outnumber puts, and are fewer while a token is on offer. -/
theorem timesReturned_le {ttlMs : Nat} {events : List CacheEvent}
    (h : Each (FromOffer ttlMs) events) (x token : JsString) :
    timesReturned x token events ≤ timesPut x token events ∧
      ∀ entry, offered ttlMs events x = some entry → entry.token = token →
        timesReturned x token events < timesPut x token events := by
  induction events with
  | nil => exact ⟨Nat.le_refl 0, fun _ hoffer => nomatch hoffer⟩
  | cons e past ih =>
    obtain ⟨he, hpast⟩ := each_cons.1 h
    obtain ⟨hle, hlt⟩ := ih hpast
    cases e with
    | put u t now =>
      rw [timesPut_put, timesReturned_put, offered]
      refine ⟨Nat.le_trans hle (Nat.le_add_right _ _), fun entry hoffer htoken => ?_⟩
      by_cases hu : x = u
      · rw [if_pos hu, Option.some.injEq] at hoffer
        subst hoffer
        rw [if_pos ⟨hu.symm, htoken⟩]
        exact Nat.lt_succ_of_le hle
      · rw [if_neg hu] at hoffer
        exact Nat.lt_of_lt_of_le (hlt entry hoffer htoken) (Nat.le_add_right _ _)
    | take u now taken =>
      rw [timesPut_take, timesReturned_take, offered]
      by_cases hu : x = u
      · subst hu
        simp only [if_true, reduceCtorEq, false_imp_iff, implies_true, and_true, true_and]
        split
        · rename_i htaken
          subst htaken
          obtain ⟨entry, hoffer, htoken, _⟩ := he
          exact hlt entry hoffer htoken
        · exact hle
      · rw [if_neg hu, if_neg fun hboth => hu hboth.1.symm]
        exact ⟨hle, hlt⟩

end Counts

namespace CacheRun

/-- What holds after every run: the cache keeps within its capacity, holds only what is on
offer and has answered with nothing else. -/
structure Sound (ttlMs capacity : Nat) (r : CacheRun) : Prop where
  ttl : r.cache.ttlMs = ttlMs
  room : r.cache.capacity = capacity
  size : r.cache.size ≤ capacity
  offers : ∀ x entry, r.cache.cache.get x = some entry → offered ttlMs r.events x = some entry
  answers : Each (FromOffer ttlMs) r.events

variable {ttlMs capacity : Nat} {r t : CacheRun}

theorem step_put {userId token : JsString} {now : Nat}
    (h : r.step (.put userId token now) = some t) :
    r.now ≤ now ∧
      t = ⟨r.cache.put userId token now, now, .put userId token now :: r.events⟩ := by
  simp only [step, Option.ite_none_right_eq_some, Option.some.injEq] at h
  exact ⟨h.1, h.2.symm⟩

theorem step_take {userId : JsString} {now : Nat} (h : r.step (.take userId now) = some t) :
    r.now ≤ now ∧ t = ⟨(r.cache.take userId now).1, now,
      .take userId now (r.cache.held userId now) :: r.events⟩ := by
  simp only [step, Option.ite_none_right_eq_some, Option.some.injEq] at h
  rw [← ReplyTokenCache.take_snd]
  exact ⟨h.1, h.2.symm⟩

theorem sound_new : Sound ttlMs capacity (new ttlMs capacity) :=
  ⟨rfl, rfl, Nat.zero_le _, fun _ _ h => (nomatch h), each_nil⟩

theorem held_eq_some {c : ReplyTokenCache} {x token : JsString} {now : Nat} :
    c.held x now = some token ↔
      ∃ entry, c.cache.get x = some entry ∧ now < entry.expiresAt ∧ entry.token = token := by
  simp [ReplyTokenCache.held, Option.bind_eq_some_iff, Option.ite_none_left_eq_some]

theorem step_sound (hcapacity : 0 < capacity) (r : CacheRun) (a : Action) (t : CacheRun)
    (hr : Sound ttlMs capacity r) (hstep : r.step a = some t) : Sound ttlMs capacity t := by
  obtain ⟨httl, hroom, hsize, hoffers, hanswers⟩ := hr
  cases a with
  | put userId token now =>
    obtain ⟨_, rfl⟩ := step_put hstep
    refine ⟨by simpa using httl, by simpa using hroom, ?_, fun x entry hget => ?_,
      each_cons.2 ⟨trivial, hanswers⟩⟩
    · rw [← hroom] at hcapacity hsize ⊢
      exact ReplyTokenCache.size_put_le hcapacity hsize
    · rw [ReplyTokenCache.get_put_eq, httl] at hget
      rw [offered]
      by_cases hx : x = userId
      · rwa [if_pos hx] at hget ⊢
      · rw [if_neg hx] at hget ⊢
        exact hoffers x entry (Option.ite_none_left_eq_some.1 hget).2
  | take userId now =>
    obtain ⟨_, rfl⟩ := step_take hstep
    refine ⟨by simpa using httl, by simpa using hroom,
      Nat.le_trans ReplyTokenCache.size_take_le hsize, fun x entry hget => ?_,
      each_cons.2 ⟨?_, hanswers⟩⟩
    · rw [ReplyTokenCache.get_take_eq] at hget
      obtain ⟨hx, hget⟩ := Option.ite_none_left_eq_some.1 hget
      rw [offered, if_neg hx]
      exact hoffers x entry hget
    · cases hheld : r.cache.held userId now with
      | none => trivial
      | some token =>
        obtain ⟨entry, hget, hlive, htoken⟩ := held_eq_some.1 hheld
        exact ⟨entry, hoffers userId entry hget, htoken, hlive⟩

/-- What is on offer to a recent user is there as it was put. -/
theorem get_of_holdsRecent (hs : Sound ttlMs capacity r) (hr : HoldsRecent r) {x : JsString}
    {entry : Entry} (hx : x ∈ (recent r.events).take capacity)
    (hoffer : offered ttlMs r.events x = some entry) (hlive : r.now < entry.expiresAt) :
    r.cache.cache.get x = some entry := by
  obtain ⟨rfl, rfl, -, hoffers, -⟩ := hs
  obtain ⟨kept, hget, -, -⟩ := held_eq_some.1 (hr x hx entry hoffer hlive)
  rw [hget, ← hoffers x kept hget, hoffer]

/-- A take leaves every other token where it is. -/
theorem take_holdsRecent (hs : Sound ttlMs capacity r) (hr : HoldsRecent r) {userId : JsString}
    {now : Nat} (hstep : r.step (.take userId now) = some t) : HoldsRecent t := by
  obtain ⟨hnow, rfl⟩ := step_take hstep
  intro x hx entry hoffer hlive
  simp only [recent, offered, ReplyTokenCache.capacity_take, ReplyTokenCache.ttlMs_take,
    Option.ite_none_left_eq_some, hs.ttl, hs.room] at hx hoffer
  obtain ⟨hne, hoffer⟩ := hoffer
  have hget := get_of_holdsRecent hs hr hx hoffer (Nat.lt_of_le_of_lt hnow hlive)
  refine held_eq_some.2 ⟨entry, ?_, hlive, rfl⟩
  rw [ReplyTokenCache.get_take_eq, if_neg hne, hget]

/-- A put loses a token exactly when it drops an entry that is recent and has not expired. -/
theorem put_holdsRecent (hs : Sound ttlMs capacity r) (hr : HoldsRecent r)
    {userId token : JsString} {now : Nat} (hstep : r.step (.put userId token now) = some t) :
    HoldsRecent t ↔ DropsOld r (.put userId token now) := by
  obtain ⟨hnow, rfl⟩ := step_put hstep
  constructor
  · intro ht hfull key entry hkey hget
    by_cases hne : key = userId
    · exact .inl hne
    refine .inr (Decidable.or_iff_not_imp_left.2 fun hlive hrecent => ?_)
    -- the dropped entry is still on offer, and the cache answers nothing for it
    have hoffer : offered r.cache.ttlMs (.put userId token now :: r.events) key = some entry := by
      rw [offered, if_neg hne, hs.ttl]
      exact hs.offers key entry hget
    have hheld := ht key (by simpa [recent] using hrecent) entry (by simpa using hoffer)
      (Nat.lt_of_not_le hlive)
    obtain ⟨_, hgone, -⟩ := held_eq_some.1 hheld
    rw [ReplyTokenCache.get_put_eq, if_neg hne, if_pos ⟨hfull, hkey⟩] at hgone
    cases hgone
  · intro hdrops x hx entry hoffer hlive
    simp only [recent, offered, ReplyTokenCache.capacity_put, ReplyTokenCache.ttlMs_put,
      hs.ttl] at hx hoffer
    refine held_eq_some.2 ⟨entry, ?_, hlive, rfl⟩
    rw [ReplyTokenCache.get_put_eq, hs.ttl]
    by_cases hne : x = userId
    · rwa [if_pos hne] at hoffer ⊢
    rw [if_neg hne] at hoffer ⊢
    have hold := mem_take_of_mem_front hne hx
    rw [hs.room] at hold
    have hget := get_of_holdsRecent hs hr hold hoffer (Nat.lt_of_le_of_lt hnow hlive)
    refine (if_neg fun ⟨hfull, hkey⟩ => ?_).trans hget
    obtain heq | hexpired | hlate := hdrops hfull x entry hkey hget
    · exact hne heq
    · exact Nat.not_le_of_lt hlive hexpired
    · exact hlate hx

theorem step_holdsRecent (r : CacheRun) (a : Action) (t : CacheRun) (hs : Sound ttlMs capacity r)
    (hr : HoldsRecent r) (hstep : r.step a = some t) : HoldsRecent t ↔ DropsOld r a := by
  cases a with
  | put userId token now => exact put_holdsRecent hs hr hstep
  | take userId now => exact iff_of_true (take_holdsRecent hs hr hstep) trivial

theorem holdsRecent_new : HoldsRecent (new ttlMs capacity) := by
  intro x hx
  simp [new, recent] at hx

theorem sound_of_run (hcapacity : 0 < capacity) {as : List Action}
    (hrun : run step (new ttlMs capacity) as = some t) : Sound ttlMs capacity t :=
  invariant (step_sound hcapacity) sound_new hrun

/-- The cache keeps within its capacity and returns each token put at most once, to its own
user and before it expires; it always holds the tokens of the latest users exactly when no put
drops one of theirs. -/
theorem replyTokenCache_holds_recent (hcapacity : 0 < capacity) {as : List Action}
    (hrun : run step (new ttlMs capacity) as = some t) :
    t.cache.size ≤ capacity ∧ Each (FromOffer ttlMs) t.events ∧
      (∀ x token, timesReturned x token t.events ≤ timesPut x token t.events) ∧
      (Always step HoldsRecent (new ttlMs capacity) as ↔
        Meets step DropsOld (new ttlMs capacity) as) := by
  have hs := sound_of_run hcapacity hrun
  refine ⟨hs.size, hs.answers, fun x token => (timesReturned_le hs.answers x token).1, ?_⟩
  exact always_iff_meets (step_sound hcapacity) step_holdsRecent sound_new holdsRecent_new hrun

/-- Two users are put, and then the second again. -/
def putAgain : List Action :=
  [.put (js "U1") (js "first") 0, .put (js "U2") (js "second") 0, .put (js "U2") (js "third") 0]

def afterPutAgain : CacheRun := (run step (new 60000 2) putAgain).get rfl

theorem run_putAgain : run step (new 60000 2) putAgain = some afterPutAgain :=
  (Option.some_get _).symm

theorem holdsRecent_putAgain_iff :
    Always step HoldsRecent (new 60000 2) putAgain ↔ Meets step DropsOld (new 60000 2) putAgain :=
  (replyTokenCache_holds_recent (by decide) run_putAgain).2.2.2

/-- The second put of the second user drops the token of the first, of two users in all. -/
theorem token_lost_on_putAgain :
    ¬ ∀ (ttlMs capacity : Nat) (as : List Action) (t : CacheRun), 0 < capacity →
      run step (new ttlMs capacity) as = some t →
        t.cache.size ≤ capacity ∧ HoldsRecent t ∧ Each (FromOffer ttlMs) t.events ∧
          ∀ x token, timesReturned x token t.events ≤ timesPut x token t.events := by
  intro h
  obtain ⟨-, hrecent, -⟩ := h 60000 2 putAgain afterPutAgain (by decide) run_putAgain
  have hheld := hrecent (js "U1") (by decide) ⟨js "first", 60000⟩ rfl (by decide)
  exact absurd hheld (by decide)

end CacheRun

end TheokitGateways.Line
