import TheokitGateways.Records
import TheokitGateways.WhatsApp.Baileys.Connection

/-!
# Which sockets are alive

A connected backend should hold an open socket of the current attempt, and without
a pending attempt all the other sockets should be ended. `Orderly` says that a
socket does not close unseen: not before it is listened to, when it opens later
all the same, and not between its opening and the step that adopts it. What a
close reports is printed when an attempt fails, and printing it must not throw.
-/

namespace TheokitGateways.WhatsApp.Baileys
open Js Gateway Records Transition

/-- The socket is open, and the backend listens to it. -/
structure Attempt.IsOpen (a : Attempt) : Prop where
  listening : a.listening = true
  socket : ∃ s, a.socket = some s ∧ s.opened = true ∧ s.closed = false ∧ s.ended = false

namespace Connection

/-- No socket closes unseen, and what one reports as it closes can be printed. -/
def Orderly (c : Connection) : ConnectionAction → Prop
  | .update k .opened => ∀ a s, c.attempts[k]? = some a → c.isCurrent k = true →
      a.stage = .opening none → a.socket = some s → s.closed = false
  | .update k (.closed error) =>
    (∀ a, c.attempts[k]? = some a → c.isCurrent k = true → a.stage ≠ .opening (some true)) ∧
      reportConnectFailure error = .ok ()
  | _ => True

/-- What the record of an attempt says while the backend is as it is. -/
structure Fits (c : Connection) (k : Nat) (a : Attempt) : Prop where
  bounded : a.generation ≤ c.generation
  building : a.stage = .building → a.listening = false ∧ a.socket = none
  made : a.stage = .made → a.listening = false ∧ ∃ s, a.socket = some s ∧ s.ended = false
  pending : a.generation = c.generation → a.stage.isPending = true → c.connected = false
  waiting : a.generation = c.generation → a.stage = .opening none →
    a.listening = true ∧ ∃ s, a.socket = some s ∧ s.ended = false
  opened : a.generation = c.generation → a.stage = .opening (some true) → a.IsOpen
  recorded : c.socket = some k →
    a.generation = c.generation ∧ a.stage = .settled (.ok true) ∧ a.IsOpen
  kept : ∀ s, a.socket = some s → s.ended = false → a.stage.isPending = true ∨ c.socket = some k

/-- What every orderly step keeps. -/
structure Sound (c : Connection) : Prop where
  fits : ∀ k a, c.attempts[k]? = some a → c.Fits k a
  increasing : (c.attempts.map (·.generation)).Pairwise (· < ·)
  connected : c.connected = c.socket.isSome
  inRange : ∀ k, c.socket = some k → ∃ a, c.attempts[k]? = some a
  printable : reportConnectFailure c.lastCloseError = .ok ()

variable {c c' : Connection} {k : Nat} {a : Attempt}

theorem isCurrent_iff (ha : c.attempts[k]? = some a) :
    c.isCurrent k = true ↔ a.generation = c.generation := by
  simp [isCurrent, ha]

theorem sound_init : Sound {} where
  fits _ _ h := nomatch h
  increasing := .nil
  connected := rfl
  inRange _ h := nomatch h
  printable := rfl

/-- Two current attempts are one. -/
theorem Sound.unique (h : c.Sound) {j : Nat} {b : Attempt} (ha : c.attempts[k]? = some a)
    (hb : c.attempts[j]? = some b) (hka : a.generation = c.generation)
    (hjb : b.generation = c.generation) : k = j :=
  eq_of_pairwise_lt h.increasing ha hb (hka.trans hjb.symm)

/-- While an attempt is pending with the current generation, no socket is recorded. -/
theorem Sound.socket_eq_none (h : c.Sound) (ha : c.attempts[k]? = some a)
    (hcurrent : a.generation = c.generation) (hpending : a.stage.isPending = true) :
    c.socket = none := by
  have hconnected := (h.fits k a ha).pending hcurrent hpending
  rw [h.connected] at hconnected
  exact Option.not_isSome_iff_eq_none.1 (Bool.eq_false_iff.1 hconnected)

theorem Fits.of_eq (h : c.Fits k a) (hg : c'.generation = c.generation)
    (hc : c'.connected = c.connected) (hs : c'.socket = c.socket) : c'.Fits k a where
  bounded := hg ▸ h.bounded
  building := h.building
  made := h.made
  pending hcurrent := hc ▸ h.pending (hcurrent.trans hg)
  waiting hcurrent := h.waiting (hcurrent.trans hg)
  opened hcurrent := h.opened (hcurrent.trans hg)
  recorded hsocket := hg ▸ h.recorded (hs ▸ hsocket)
  kept := hs ▸ h.kept

/-- A later generation supersedes an attempt. -/
theorem Fits.superseded (h : c.Fits k a) (hg : c.generation < c'.generation)
    (hs : c'.socket = none)
    (hkept : ∀ s, a.socket = some s → s.ended = false → a.stage.isPending = true) :
    c'.Fits k a := by
  have hbounded := h.bounded
  have hold : a.generation ≠ c'.generation := by omega
  exact ⟨by omega, h.building, h.made, fun hcurrent => absurd hcurrent hold,
    fun hcurrent => absurd hcurrent hold, fun hcurrent => absurd hcurrent hold,
    fun hsocket => (nomatch hs.symm.trans hsocket), fun s hs' he => .inl (hkept s hs' he)⟩

theorem Fits.superseded_of_none (h : c.Fits k a) (hnone : c.socket = none)
    (hg : c.generation < c'.generation) (hs : c'.socket = none) : c'.Fits k a := by
  refine h.superseded hg hs fun s hs he => ?_
  obtain hpending | hrecorded := h.kept s hs he
  · exact hpending
  · exact (nomatch hnone.symm.trans hrecorded)

/-- An attempt that is not recorded may end its socket and settle. -/
theorem Fits.retired (h : c.Fits k a) (hs : c.socket ≠ some k) (answer : Except JsAny Bool) :
    c.Fits k { a.endQuietly with stage := .settled answer } := by
  refine ⟨h.bounded, nofun, nofun, fun _ => nofun, fun _ => nofun, fun _ => nofun,
    fun hsocket => absurd hsocket hs, fun s hs he => ?_⟩
  obtain ⟨t, _, rfl⟩ := Option.map_eq_some_iff.1 hs
  cases he

/-- A change to one attempt that leaves it fitting. -/
theorem sound_modify (h : c.Sound) {f : Attempt → Attempt}
    (hgen : ∀ a, (f a).generation = a.generation)
    (hf : ∀ a, c.attempts[k]? = some a → c.Fits k (f a)) : (c.modify k f).Sound where
  fits j b hb := by
    obtain ⟨a, ha, rfl⟩ := getElem?_modify_eq_some.1 hb
    split
    · rename_i heq
      subst heq
      exact (hf a ha).of_eq rfl rfl rfl
    · exact (h.fits j a ha).of_eq rfl rfl rfl
  increasing := pairwise_modify hgen h.increasing
  connected := h.connected
  inRange j hj := by
    obtain ⟨a, ha⟩ := h.inRange j hj
    exact ⟨_, getElem?_modify_eq_some.2 ⟨a, ha, rfl⟩⟩
  printable := h.printable

theorem sound_connect (h : c.Sound) : c.connect.Sound := by
  unfold connect
  split
  · exact h
  · rename_i hidle
    have hconnected : c.connected = false := by simp_all
    have hsocket : c.socket = none := by
      rw [h.connected] at hconnected
      exact Option.not_isSome_iff_eq_none.1 (Bool.eq_false_iff.1 hconnected)
    refine ⟨fun j b hb => ?_, ?_, h.connected, fun j hj => (nomatch hsocket.symm.trans hj),
      h.printable⟩
    · obtain hb | ⟨rfl, rfl⟩ := getElem?_append_singleton.1 hb
      · exact (h.fits j b hb).superseded_of_none hsocket (Nat.lt_succ_self _) hsocket
      · exact ⟨Nat.le.refl, fun _ => ⟨rfl, rfl⟩, nofun, fun _ _ => hconnected,
          fun _ => nofun, fun _ => nofun,
          fun hs => (nomatch hsocket.symm.trans hs), nofun⟩
    · rw [List.map_append, List.pairwise_append]
      refine ⟨h.increasing, List.pairwise_singleton .., fun g hg g' hg' => ?_⟩
      obtain ⟨b, hb, rfl⟩ := List.mem_map.1 hg
      obtain ⟨j, hj⟩ := List.mem_iff_getElem?.1 hb
      have hbounded := (h.fits j b hj).bounded
      cases List.mem_singleton.1 hg'
      exact Nat.lt_succ_of_le hbounded

@[simp] theorem generation_settle (ok : Bool) (a : Attempt) :
    (a.settle ok).generation = a.generation := by
  unfold Attempt.settle
  split <;> rfl

@[simp] theorem isPending_settle (ok : Bool) (a : Attempt) :
    (a.settle ok).stage.isPending = a.stage.isPending := by
  unfold Attempt.settle
  split
  · rename_i hstage
    rw [hstage]
    rfl
  · rfl

@[simp] theorem socket_settle (ok : Bool) (a : Attempt) : (a.settle ok).socket = a.socket := by
  unfold Attempt.settle
  split <;> rfl

@[simp] theorem listening_settle (ok : Bool) (a : Attempt) :
    (a.settle ok).listening = a.listening := by
  unfold Attempt.settle
  split <;> rfl

theorem settle_of_ne {ok : Bool} (h : a.stage ≠ .opening none) : a.settle ok = a := by
  unfold Attempt.settle
  split
  · contradiction
  · rfl

theorem stage_settle {ok : Bool} (h : a.stage = .opening none) :
    a.settle ok = { a with stage := .opening (some ok) } := by
  unfold Attempt.settle
  rw [h]

theorem stage_of_settle {ok : Bool} {stage : Stage} (h : (a.settle ok).stage = stage)
    (hne : .opening (some ok) ≠ stage) : a.stage = stage := by
  by_cases hopening : a.stage = .opening none
  · rw [stage_settle hopening] at h
    exact absurd h hne
  · rwa [settle_of_ne hopening] at h

/-- With the recorded socket ended, every socket that is left belongs to a pending attempt. -/
theorem Sound.endSocket (h : c.Sound) {j : Nat} {b : Attempt}
    (hb : c.endSocket.attempts[j]? = some b) : b.generation ≤ c.generation ∧
      (b.stage = .building → b.listening = false ∧ b.socket = none) ∧
      (b.stage = .made → b.listening = false ∧ ∃ s, b.socket = some s ∧ s.ended = false) ∧
      ∀ s, b.socket = some s → s.ended = false → b.stage.isPending = true := by
  unfold Connection.endSocket at hb
  split at hb
  · rename_i k hk
    obtain ⟨a, ha, rfl⟩ := getElem?_modify_eq_some.1 hb
    have hfits := h.fits j a ha
    split
    · rename_i heq
      subst heq
      obtain ⟨_, hstage, _⟩ := hfits.recorded hk
      have hsettled : a.endQuietly.stage = .settled (.ok true) := hstage
      refine ⟨hfits.bounded, fun hbuilding => (nomatch hsettled.symm.trans hbuilding),
        fun hmade => (nomatch hsettled.symm.trans hmade), fun s hs he => ?_⟩
      · obtain ⟨t, _, rfl⟩ := Option.map_eq_some_iff.1 hs
        cases he
    · rename_i hne
      refine ⟨hfits.bounded, hfits.building, hfits.made, fun s hs he => ?_⟩
      obtain hpending | hrecorded := hfits.kept s hs he
      · exact hpending
      · exact absurd (Option.some.inj (hk.symm.trans hrecorded)) hne
  · rename_i hnone
    have hfits := h.fits j b hb
    refine ⟨hfits.bounded, hfits.building, hfits.made, fun s hs he => ?_⟩
    obtain hpending | hrecorded := hfits.kept s hs he
    · exact hpending
    · exact (nomatch hnone.symm.trans hrecorded)

theorem sound_disconnect (h : c.Sound) : c.disconnect.Sound := by
  refine ⟨fun j b hb => ?_, ?_, rfl, nofun, ?_⟩
  · obtain ⟨a, ha, rfl⟩ := getElem?_map_eq_some.1 hb
    obtain ⟨hbounded, hbuilding, hmade, hkept⟩ := h.endSocket ha
    have hlt : (a.settle false).generation < c.generation + 1 := by
      rw [generation_settle]
      omega
    have hold : (a.settle false).generation ≠ c.generation + 1 := Nat.ne_of_lt hlt
    refine ⟨Nat.le_of_lt hlt, fun hstage => ?_, fun hstage => ?_, fun hcurrent =>
      absurd hcurrent hold,
      fun hcurrent => absurd hcurrent hold, fun hcurrent => absurd hcurrent hold, nofun,
      fun s hs he => .inl ?_⟩
    · rw [socket_settle, listening_settle]
      exact hbuilding (stage_of_settle hstage nofun)
    · rw [socket_settle, listening_settle]
      exact hmade (stage_of_settle hstage nofun)
    · rw [isPending_settle]
      exact hkept s (by rwa [socket_settle] at hs) he
  · have hgen : (fun a : Attempt => a.generation) ∘ Attempt.settle false =
        fun a => a.generation := funext (generation_settle false)
    show ((c.endSocket.attempts.map (Attempt.settle false)).map (·.generation)).Pairwise (· < ·)
    rw [List.map_map, hgen]
    unfold Connection.endSocket
    split
    · exact pairwise_modify (fun _ => rfl) h.increasing
    · exact h.increasing
  · show reportConnectFailure c.endSocket.lastCloseError = _
    unfold Connection.endSocket
    split <;> exact h.printable

theorem sound_subscribe (h : c.Sound) (ha : c.attempts[k]? = some a) (hstage : a.stage = .made) :
    (c.subscribe k).Sound := by
  have hfits := h.fits k a ha
  unfold subscribe
  split
  · rename_i hcurrent
    have hcurrent := (isCurrent_iff ha).1 hcurrent
    refine sound_modify h (fun _ => rfl) fun b hb => ?_
    obtain rfl := Option.some.inj (hb.symm.trans ha)
    exact {
      bounded := hfits.bounded
      building := nofun
      made := nofun
      pending := fun hb _ => hfits.pending hb (by rw [hstage]; rfl)
      waiting := fun _ _ => ⟨rfl, (hfits.made hstage).2⟩
      opened := fun _ => nofun
      recorded := fun hs => (nomatch hstage.symm.trans (hfits.recorded hs).2.1)
      kept := fun _ _ _ => .inl rfl }
  · refine sound_modify h (fun _ => rfl) fun b hb => ?_
    obtain rfl := Option.some.inj (hb.symm.trans ha)
    exact hfits.retired (fun hs => (nomatch hstage.symm.trans (hfits.recorded hs).2.1)) _

/-- The factory has made a socket, or has failed. -/
theorem sound_build (h : c.Sound) (ha : c.attempts[k]? = some a) (hstage : a.stage = .building)
    (onWhatsApp : Bool) :
    (c.modify k fun a => { a with stage := .made, socket := some { onWhatsApp } }).Sound := by
  have hfits := h.fits k a ha
  obtain ⟨hlistening, _⟩ := hfits.building hstage
  refine sound_modify h (fun _ => rfl) fun b hb => ?_
  obtain rfl := Option.some.inj (hb.symm.trans ha)
  exact ⟨hfits.bounded, nofun, fun _ => ⟨hlistening, _, rfl, rfl⟩,
    fun hcurrent _ => hfits.pending hcurrent (by rw [hstage]; rfl), fun _ => nofun, fun _ => nofun,
    fun hs => (nomatch hstage.symm.trans (hfits.recorded hs).2.1), fun _ _ _ => .inl rfl⟩

theorem sound_fail (h : c.Sound) (ha : c.attempts[k]? = some a) (hstage : a.stage = .building)
    (err : JsAny) : (c.modify k fun a => { a with stage := .settled (.error err) }).Sound := by
  have hfits := h.fits k a ha
  obtain ⟨_, hsocket⟩ := hfits.building hstage
  refine sound_modify h (fun _ => rfl) fun b hb => ?_
  obtain rfl := Option.some.inj (hb.symm.trans ha)
  exact ⟨hfits.bounded, nofun, nofun, fun _ => nofun, fun _ => nofun, fun _ => nofun,
    fun hs => (nomatch hstage.symm.trans (hfits.recorded hs).2.1),
    fun s hs => (nomatch hsocket.symm.trans hs)⟩

theorem sound_settle (h : c.Sound) (ok : Bool) (hopen : ∀ a, c.attempts[k]? = some a →
      a.generation = c.generation → a.stage = .opening none → ok = true → a.IsOpen) :
    (c.modify k (.settle ok)).Sound := by
  refine sound_modify h (generation_settle ok) fun a ha => ?_
  have hfits := h.fits k a ha
  by_cases hstage : a.stage = .opening none
  · rw [stage_settle hstage]
    exact ⟨hfits.bounded, nofun, nofun,
      fun hcurrent _ => hfits.pending hcurrent (by rw [hstage]; rfl), fun _ => nofun,
      fun hcurrent hok => by
        obtain ⟨hlistening, hsocket⟩ := hopen a ha hcurrent hstage (by simpa using hok)
        exact ⟨hlistening, hsocket⟩,
      fun hs => (nomatch hstage.symm.trans (hfits.recorded hs).2.1), fun _ _ _ => .inl rfl⟩
  · rw [settle_of_ne hstage]
    exact hfits

/-- A report changes nothing of a socket that nobody listens to. -/
theorem sound_report (h : c.Sound) (update : Update)
    (hclosed : ∀ a error, c.attempts[k]? = some a → update = .closed error →
      ¬(a.listening = true ∧ a.generation = c.generation)) :
    (c.modify k (.report update)).Sound := by
  refine sound_modify h (fun _ => rfl) fun a ha => ?_
  have hfits := h.fits k a ha
  have hended {s : Socket} (hs : (a.report update).socket = some s) :
      ∃ t, a.socket = some t ∧ s.ended = t.ended := by
    obtain ⟨t, ht, rfl⟩ := Option.map_eq_some_iff.1 hs
    refine ⟨t, ht, ?_⟩
    cases update <;> rfl
  have halive (hsocket : ∃ s, a.socket = some s ∧ s.ended = false) :
      ∃ s, (a.report update).socket = some s ∧ s.ended = false := by
    obtain ⟨s, hs, he⟩ := hsocket
    refine ⟨_, by rw [Attempt.report, hs]; rfl, ?_⟩
    cases update <;> exact he
  have hopen (hcurrent : a.generation = c.generation) (hopen : a.IsOpen) :
      (a.report update).IsOpen := by
    obtain ⟨hlistening, s, hs, ho, hc, he⟩ := hopen
    cases update with
    | opened =>
      refine ⟨hlistening, { s with opened := true }, ?_, rfl, hc, he⟩
      rw [Attempt.report, hs]
      rfl
    | closed error => exact absurd ⟨hlistening, hcurrent⟩ (hclosed a error ha rfl)
  exact {
    bounded := hfits.bounded
    building := fun hstage => by
      obtain ⟨hlistening, hsocket⟩ := hfits.building hstage
      exact ⟨hlistening, by rw [Attempt.report, hsocket]; rfl⟩
    made := fun hstage => ⟨(hfits.made hstage).1, halive (hfits.made hstage).2⟩
    pending := hfits.pending
    waiting := fun hcurrent hstage =>
      ⟨(hfits.waiting hcurrent hstage).1, halive (hfits.waiting hcurrent hstage).2⟩
    opened := fun hcurrent hstage => hopen hcurrent (hfits.opened hcurrent hstage)
    recorded := fun hs => by
      obtain ⟨hcurrent, hstage, hisOpen⟩ := hfits.recorded hs
      exact ⟨hcurrent, hstage, hopen hcurrent hisOpen⟩
    kept := fun s hs he => by
      obtain ⟨t, ht, heq⟩ := hended hs
      exact hfits.kept t ht (heq ▸ he) }

theorem Sound.withPairing (h : c.Sound) (pairing : PairingState) :
    Sound { c with pairing := pairing } :=
  ⟨fun j b hb => (h.fits j b hb).of_eq rfl rfl rfl, h.increasing, h.connected, h.inRange,
    h.printable⟩

/-- The current attempt's socket has opened while the attempt waits for it. -/
theorem sound_opened (h : c.Sound) (ha : c.attempts[k]? = some a) {s : Socket}
    (hsocket : a.socket = some s) (hlistening : a.listening = true)
    (hC : c.Orderly (.update k .opened)) :
    (((c.modify k (.report .opened)).update k .opened)).Sound := by
  have hreport : (c.modify k (.report .opened)).Sound := sound_report h .opened nofun
  refine Sound.withPairing (sound_settle hreport true fun b hb hcurrent hstage _ => ?_) _
  obtain ⟨a', ha', rfl⟩ := getElem?_modify_eq_some.1 hb
  obtain rfl := Option.some.inj (ha'.symm.trans ha)
  rw [if_pos rfl] at hcurrent hstage ⊢
  obtain ⟨_, t, ht, he⟩ := (h.fits k a' ha).waiting hcurrent hstage
  obtain rfl := Option.some.inj (ht.symm.trans hsocket)
  have hclosed := hC a' t ha ((isCurrent_iff ha).2 hcurrent) hstage hsocket
  exact ⟨hlistening, { t with opened := true }, by rw [Attempt.report, ht]; rfl, rfl, hclosed, he⟩

/-- The current attempt's socket has closed, before the attempt or after it was adopted. -/
theorem sound_closed (h : c.Sound) (ha : c.attempts[k]? = some a) (hlistening : a.listening = true)
    (hcurrent : a.generation = c.generation) {error : JsAny}
    (hC : c.Orderly (.update k (.closed error))) :
    (((c.modify k (.report (.closed error))).update k (.closed error))).Sound := by
  have hsocket : (if c.socket = some k then none else c.socket) = none := by
    cases hs : c.socket with
    | none => rfl
    | some j =>
      obtain ⟨b, hb⟩ := h.inRange j hs
      have hj := h.unique hb ha ((h.fits j b hb).recorded hs).1 hcurrent
      rw [hj, if_pos rfl]
  refine ⟨fun j b hb => ?_, ?_, ?_, fun j hj => ?_, hC.2⟩
  · obtain ⟨a', ha', rfl⟩ := getElem?_modify_eq_some.1 hb
    obtain ⟨a'', ha'', rfl⟩ := getElem?_modify_eq_some.1 ha'
    have hfits := h.fits j a'' ha''
    split
    · rename_i heq
      subst heq
      obtain rfl := Option.some.inj (ha''.symm.trans ha)
      have hstays {stage : Stage}
          (hstage : (((a''.report (.closed error)).endQuietly).settle false).stage = stage)
          (hne : .opening (some false) ≠ stage) : a''.stage = stage :=
        stage_of_settle (a := (a''.report (.closed error)).endQuietly) hstage hne
      refine ⟨?_, fun hstage => ?_, fun hstage => ?_, fun _ _ => rfl, fun _ hstage => ?_,
        fun _ hstage => ?_, fun hs => (nomatch hsocket.symm.trans hs), fun s hs he => ?_⟩
      · rw [generation_settle]
        exact hfits.bounded
      · have hbuilding := (hfits.building (hstays hstage nofun)).1
        rw [hlistening] at hbuilding
        cases hbuilding
      · have hmade := (hfits.made (hstays hstage nofun)).1
        rw [hlistening] at hmade
        cases hmade
      · have hopening : ((a''.report (.closed error)).endQuietly).stage = .opening none :=
          hstays hstage nofun
        rw [stage_settle hopening] at hstage
        cases hstage
      · exact absurd (hstays hstage nofun) (hC.1 a'' ha ((isCurrent_iff ha).2 hcurrent))
      · rw [socket_settle] at hs
        obtain ⟨t, _, rfl⟩ := Option.map_eq_some_iff.1 hs
        cases he
    · rename_i hne
      refine ⟨hfits.bounded, hfits.building, hfits.made, fun _ _ => rfl, hfits.waiting,
        hfits.opened, fun hs => (nomatch hsocket.symm.trans hs), fun s hs he => .inl ?_⟩
      obtain hpending | hrecorded := hfits.kept s hs he
      · exact hpending
      · refine absurd ?_ hne
        by_cases heq : c.socket = some k
        · exact Option.some.inj (heq.symm.trans hrecorded)
        · rw [if_neg heq] at hsocket
          exact (nomatch hsocket.symm.trans hrecorded)
  · exact pairwise_modify (fun a => generation_settle false a.endQuietly)
      (pairwise_modify (fun _ => rfl) h.increasing)
  · show false = Option.isSome (if c.socket = some k then none else c.socket)
    rw [hsocket]
    rfl
  · exact (nomatch hsocket.symm.trans hj)

theorem sound_update (h : c.Sound) (ha : c.attempts[k]? = some a) {s : Socket}
    (hsocket : a.socket = some s) {update : Update} (hC : c.Orderly (.update k update)) :
    (if a.listening && c.isCurrent k then (c.modify k (.report update)).update k update
      else c.modify k (.report update)).Sound := by
  split
  · rename_i hheard
    obtain ⟨hlistening, hcurrent⟩ := (Bool.and_eq_true _ _).mp hheard
    cases update with
    | opened => exact sound_opened h ha hsocket hlistening hC
    | closed error => exact sound_closed h ha hlistening ((isCurrent_iff ha).1 hcurrent) hC
  · rename_i hunheard
    refine sound_report h update fun b error hb _ hheard => hunheard ?_
    obtain rfl := Option.some.inj (hb.symm.trans ha)
    rw [hheard.1, (isCurrent_iff ha).2 hheard.2]
    rfl

theorem sound_giveUp (h : c.Sound) (ha : c.attempts[k]? = some a)
    (hcurrent : a.generation = c.generation) (hpending : a.stage.isPending = true) :
    (c.giveUp k).Sound := by
  have hnone := h.socket_eq_none ha hcurrent hpending
  unfold giveUp
  rw [h.printable]
  dsimp only
  refine ⟨fun j b hb => ?_, pairwise_modify (fun _ => rfl) h.increasing, rfl, nofun, h.printable⟩
  obtain ⟨a', ha', rfl⟩ := getElem?_modify_eq_some.1 hb
  have hfits := h.fits j a' ha'
  split
  · have hretired := hfits.retired (fun hs => (nomatch hnone.symm.trans hs)) (.ok false)
    refine hretired.superseded_of_none hnone ?_ ?_
    · exact Nat.lt_succ_self _
    · rfl
  · refine hfits.superseded_of_none hnone ?_ ?_
    · exact Nat.lt_succ_self _
    · rfl

theorem sound_adopt (h : c.Sound) (ha : c.attempts[k]? = some a)
    (hcurrent : a.generation = c.generation) (hstage : a.stage = .opening (some true))
    (user : User) : (c.adopt k user).Sound := by
  have hnone := h.socket_eq_none ha hcurrent (by rw [hstage]; rfl)
  have hkeep : (if c.socket = some k then c else c.endSocket) = c := by
    rw [Connection.endSocket, hnone]
    exact ite_self c
  unfold adopt
  rw [hkeep]
  refine ⟨fun j b hb => ?_, pairwise_modify (fun _ => rfl) h.increasing, rfl, fun j hj => ?_,
    h.printable⟩
  · obtain ⟨a', ha', rfl⟩ := getElem?_modify_eq_some.1 hb
    have hfits := h.fits j a' ha'
    split
    · rename_i heq
      subst heq
      obtain rfl := Option.some.inj (ha'.symm.trans ha)
      obtain ⟨hlistening, hsocket⟩ := hfits.opened hcurrent hstage
      exact ⟨hfits.bounded, nofun, nofun, fun _ => nofun, fun _ => nofun, fun _ => nofun,
        fun _ => ⟨hcurrent, rfl, hlistening, hsocket⟩, fun _ _ _ => .inr rfl⟩
    · rename_i hne
      refine ⟨hfits.bounded, hfits.building, hfits.made, fun hj _ => ?_, hfits.waiting,
        hfits.opened, fun hs => absurd (Option.some.inj hs) hne, fun s hs he => .inl ?_⟩
      · exact absurd (h.unique ha ha' hcurrent hj) hne
      · obtain hpending | hrecorded := hfits.kept s hs he
        · exact hpending
        · exact (nomatch hnone.symm.trans hrecorded)
  · obtain rfl := Option.some.inj hj
    exact ⟨_, getElem?_modify_eq_some.2 ⟨a, ha, rfl⟩⟩

theorem sound_resume (h : c.Sound) (ha : c.attempts[k]? = some a) {ok : Bool}
    (hstage : a.stage = .opening (some ok)) (user : User) : (c.resume k ok user).Sound := by
  unfold resume
  split
  · refine sound_modify h (fun _ => rfl) fun b hb => ?_
    obtain rfl := Option.some.inj (hb.symm.trans ha)
    have hfits := h.fits k b ha
    exact hfits.retired (fun hs => (nomatch hstage.symm.trans (hfits.recorded hs).2.1)) _
  · rename_i hcurrent
    have hcurrent := (isCurrent_iff ha).1 (by simpa using hcurrent)
    split
    · exact sound_giveUp h ha hcurrent (by rw [hstage]; rfl)
    · rename_i hok
      have hok : ok = true := by simpa using hok
      exact sound_adopt h ha hcurrent (hok ▸ hstage) user

/-- A step of the connection that is orderly. -/
theorem sound_step {action : ConnectionAction} (h : c.Sound) (hC : c.Orderly action)
    (hstep : c.step action = some c') : c'.Sound := by
  cases steps_of_step hstep with
  | connect => exact sound_connect h
  | disconnect => exact sound_disconnect h
  | built ha hstage onWhatsApp => exact sound_build h ha hstage onWhatsApp
  | failed ha hstage err => exact sound_fail h ha hstage err
  | subscribe ha hstage => exact sound_subscribe h ha hstage
  | update ha hsocket update => exact sound_update h ha hsocket hC
  | timeout k => exact sound_settle h false fun _ _ _ _ => nofun
  | resume ha hstage user => exact sound_resume h ha hstage user
  | finish k =>
    split
    · exact ⟨fun j b hb => (h.fits j b hb).of_eq rfl rfl rfl, h.increasing, h.connected,
        h.inRange, h.printable⟩
    · exact h
  | qr k code now => exact h.withPairing _

end Connection
end TheokitGateways.WhatsApp.Baileys
