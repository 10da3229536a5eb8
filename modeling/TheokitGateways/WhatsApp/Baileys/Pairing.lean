import TheokitGateways.WhatsApp.Baileys.Superseded

/-!
# What the pairing says

`pairing` should say connected when the backend is, and show a code only while the
attempt that got it waits for the scan. The record is written by the codes and by the
updates of a current socket, and by nothing else: an attempt that fails or is given up
and a disconnect leave it as it was, a code is recorded whoever gets it, and an
attempt is adopted whatever happened since its socket opened. A run in which it is
told right is one in which none of these finds the record wrong for what it does.
-/

namespace TheokitGateways.WhatsApp.Baileys
open Js Gateway Records Transition

/-- The pairing is not connected, and shows no code. -/
structure PairingState.IsQuiet (p : PairingState) : Prop where
  status : p.status ≠ .connected
  qr : p.qr = none

instance (p : PairingState) : Decidable p.IsQuiet :=
  decidable_of_iff (p.status ≠ .connected ∧ p.qr = none)
    ⟨fun ⟨h, h'⟩ => ⟨h, h'⟩, fun h => ⟨h.1, h.2⟩⟩

instance (opened : Option Bool) : ∀ stage, Decidable (stage = Stage.opening opened)
  | .opening opened' => decidable_of_iff (opened' = opened) ⟨congrArg _, Stage.opening.inj⟩
  | .building | .made | .settled _ => isFalse nofun

namespace Connection

/-- An attempt is pending: it has not settled, and was neither ended nor superseded. -/
def Awaits (c : Connection) (k : Nat) : Prop :=
  ∃ a, c.attempts[k]? = some a ∧ a.generation = c.generation ∧ a.stage.isPending = true

/-- The step leaves the pairing right. -/
def Restores (c : Connection) : ConnectionAction → Prop
  | .disconnect => c.pairing.IsQuiet
  | .build k (.error _) => c.Awaits k → c.pairing.IsQuiet
  | .update k .opened => ∀ a, c.attempts[k]? = some a → a.listening = true →
      c.isCurrent k = true → c.Awaits k ∨ c.connected = true
  | .resume k _ => c.Awaits k → ∀ a, c.attempts[k]? = some a →
      (a.stage = .opening (some true) → c.pairing.status = .connected) ∧
      (a.stage = .opening (some false) → c.pairing.IsQuiet)
  | .qr k _ _ => c.Awaits k
  | _ => True

instance (c : Connection) (k : Nat) : Decidable (c.Awaits k) :=
  inferInstanceAs (Decidable (∃ a ∈ c.attempts[k]?, a.generation = c.generation ∧
    a.stage.isPending = true))

instance (c : Connection) : ∀ action, Decidable (c.Restores action)
  | .disconnect => inferInstanceAs (Decidable c.pairing.IsQuiet)
  | .build k (.error _) => inferInstanceAs (Decidable (c.Awaits k → c.pairing.IsQuiet))
  | .update k .opened => inferInstanceAs (Decidable (∀ a ∈ c.attempts[k]?, a.listening = true →
      c.isCurrent k = true → c.Awaits k ∨ c.connected = true))
  | .resume k _ => inferInstanceAs (Decidable (c.Awaits k → ∀ a ∈ c.attempts[k]?,
      (a.stage = .opening (some true) → c.pairing.status = .connected) ∧
      (a.stage = .opening (some false) → c.pairing.IsQuiet)))
  | .qr k _ _ => inferInstanceAs (Decidable (c.Awaits k))
  | .connect | .build _ (.ok _) | .subscribe _ | .update _ (.closed _) | .timeout _ | .finish _ =>
    inferInstanceAs (Decidable True)

end Connection

/-- Who got the code that a step records. -/
def ConnectionAction.issuer? : ConnectionAction → Option Nat
  | .qr k _ _ => some k
  | _ => none

/-- The connection, and the attempt that got the latest code. -/
structure PairedConnection where
  conn : Connection := {}
  issuer : Option Nat := none

namespace PairedConnection

def step (p : PairedConnection) (action : ConnectionAction) : Option PairedConnection :=
  (p.conn.step action).map fun conn => ⟨conn, action.issuer?.or p.issuer⟩

/-- What the pairing should say. -/
structure Truthful (p : PairedConnection) : Prop where
  status : (∀ k, ¬p.conn.Awaits k) → (p.conn.pairing.status = .connected ↔ p.conn.connected = true)
  code : p.conn.pairing.qr.isSome = true → ∃ k, p.issuer = some k ∧ p.conn.Awaits k

end PairedConnection

namespace Connection

variable {c c' : Connection} {k j : Nat} {a : Attempt} {f : Attempt → Attempt}

/-! ## Which attempts are pending -/

/-- The generations of the attempts grow, up to that of the connection. -/
structure Numbered (c : Connection) : Prop where
  bounded : ∀ g ∈ c.attempts.map (·.generation), g ≤ c.generation
  increasing : (c.attempts.map (·.generation)).Pairwise (· < ·)

theorem Numbered.of_map (h : c.Numbered)
    (hmap : c'.attempts.map (·.generation) = c.attempts.map (·.generation))
    (hle : c.generation ≤ c'.generation) : c'.Numbered where
  bounded g hg := Nat.le_trans (h.bounded g (hmap ▸ hg)) hle
  increasing := hmap ▸ h.increasing

theorem Numbered.unique (h : c.Numbered) (hk : c.Awaits k) {b : Attempt}
    (hb : c.attempts[j]? = some b) (hcurrent : b.generation = c.generation) : k = j := by
  obtain ⟨a, ha, hgeneration, _⟩ := hk
  exact eq_of_pairwise_lt h.increasing ha hb (hgeneration.trans hcurrent.symm)

/-- A new generation leaves no attempt pending. -/
theorem Numbered.not_awaits (h : c.Numbered)
    (hmap : c'.attempts.map (·.generation) = c.attempts.map (·.generation))
    (hlt : c.generation < c'.generation) : ¬c'.Awaits j := by
  rintro ⟨a, ha, hcurrent, _⟩
  have hmem : a.generation ∈ c'.attempts.map (·.generation) :=
    List.mem_map_of_mem (List.mem_of_getElem? ha)
  have hle := h.bounded _ (hmap ▸ hmem)
  omega

theorem awaits_modify (hgen : ∀ a, (f a).generation = a.generation)
    (hpending : ∀ a, c.attempts[k]? = some a → (f a).stage.isPending = a.stage.isPending) :
    (c.modify k f).Awaits j ↔ c.Awaits j := by
  constructor
  · rintro ⟨b, hb, hcurrent, hstage⟩
    obtain ⟨a, ha, rfl⟩ := getElem?_modify_eq_some.1 hb
    by_cases hkj : k = j
    · subst j
      rw [if_pos rfl] at hcurrent hstage
      exact ⟨a, ha, (hgen a).symm.trans hcurrent, (hpending a ha).symm.trans hstage⟩
    · rw [if_neg hkj] at hcurrent hstage
      exact ⟨a, ha, hcurrent, hstage⟩
  · rintro ⟨a, ha, hcurrent, hstage⟩
    refine ⟨_, getElem?_modify_eq_some.2 ⟨a, ha, rfl⟩, ?_⟩
    split
    · subst j
      exact ⟨(hgen a).trans hcurrent, (hpending a ha).trans hstage⟩
    · exact ⟨hcurrent, hstage⟩

/-- Settling an attempt takes it, and no other, out of the pending ones. -/
theorem awaits_settled (hsettled : ∀ a, (f a).stage.isPending = false) :
    (c.modify k f).Awaits j ↔ c.Awaits j ∧ j ≠ k := by
  constructor
  · rintro ⟨b, hb, hcurrent, hstage⟩
    obtain ⟨a, ha, rfl⟩ := getElem?_modify_eq_some.1 hb
    by_cases hkj : k = j
    · rw [if_pos hkj, hsettled a] at hstage
      cases hstage
    · rw [if_neg hkj] at hcurrent hstage
      exact ⟨⟨a, ha, hcurrent, hstage⟩, Ne.symm hkj⟩
  · rintro ⟨⟨a, ha, hcurrent, hstage⟩, hne⟩
    refine ⟨_, getElem?_modify_eq_some.2 ⟨a, ha, rfl⟩, ?_⟩
    rw [if_neg (Ne.symm hne)]
    exact ⟨hcurrent, hstage⟩

theorem awaits_settled_of_not (hsettled : ∀ a, (f a).stage.isPending = false)
    (hk : ¬c.Awaits k) : (c.modify k f).Awaits j ↔ c.Awaits j := by
  rw [awaits_settled hsettled]
  exact ⟨And.left, fun hj => ⟨hj, fun heq => hk (heq ▸ hj)⟩⟩

/-- With the pending attempt settled, none is. -/
theorem Numbered.not_awaits_settled (h : c.Numbered) (hk : c.Awaits k)
    (hsettled : ∀ a, (f a).stage.isPending = false) : ¬(c.modify k f).Awaits j := by
  rw [awaits_settled hsettled]
  rintro ⟨⟨b, hb, hcurrent, _⟩, hne⟩
  exact hne (h.unique hk hb hcurrent).symm

theorem endSocket_eq (c : Connection) : c.endSocket.generation = c.generation ∧
    c.endSocket.connected = c.connected ∧ c.endSocket.connecting = c.connecting ∧
      c.endSocket.pairing = c.pairing := by
  unfold endSocket
  split <;> exact ⟨rfl, rfl, rfl, rfl⟩

theorem awaits_endSocket : c.endSocket.Awaits j ↔ c.Awaits j := by
  unfold endSocket
  split
  · exact awaits_modify (fun _ => rfl) fun _ _ => rfl
  · rfl

/-! ## What a step does to the pairing -/

/-- What every step keeps. -/
structure Kept (c : Connection) : Prop where
  numbered : c.Numbered
  connecting : ∀ k, c.Awaits k → c.connecting = some k
  offline : ∀ k, c.Awaits k → c.connected = false
  coded : c.pairing.status = .connected → c.pairing.qr = none

theorem kept_init : Kept {} where
  numbered := ⟨nofun, .nil⟩
  connecting := by rintro k ⟨a, ha, _⟩; cases ha
  offline _ _ := rfl
  coded _ := rfl

/-- What a step that records no code does to the pending attempts, the connection and the pairing,
and when it leaves the pairing right. -/
inductive Effect (c : Connection) (action : ConnectionAction) (c' : Connection) : Prop where
  | same (met : c.Restores action) (awaits : ∀ j, c'.Awaits j ↔ c.Awaits j)
    (connected : c'.connected = c.connected) (pairing : c'.pairing = c.pairing)
  | starts (called : action = .connect) (met : c.Restores action) (idle : ∀ j, ¬c.Awaits j)
    (awaits : ∃ j, c'.Awaits j) (connected : c'.connected = false)
    (pairing : c'.pairing = c.pairing)
  | ends (met : c.Restores action ↔ c.pairing.IsQuiet) (awaits : ∀ j, ¬c'.Awaits j)
    (connected : c'.connected = false) (pairing : c'.pairing = c.pairing)
  | adopts (met : c.Restores action ↔ c.pairing.status = .connected) (awaits : ∀ j, ¬c'.Awaits j)
    (connected : c'.connected = true) (pairing : c'.pairing = c.pairing)
  | opens (met : c.Restores action ↔ (∃ j, c'.Awaits j) ∨ c'.connected = true)
    (awaits : ∀ j, c'.Awaits j ↔ c.Awaits j) (connected : c'.connected = c.connected)
    (pairing : c'.pairing = ⟨.connected, none, none⟩)
  | closes (met : c.Restores action) (awaits : ∀ j, c'.Awaits j ↔ c.Awaits j)
    (connected : c'.connected = false) (pairing : c'.pairing = ⟨.closed, none, none⟩)

theorem Effect.offline {action : ConnectionAction} (heffect : Effect c action c') (h : c.Kept) :
    ∀ k, c'.Awaits k → c'.connected = false := by
  intro k hk
  cases heffect with
  | same met awaits connected pairing => exact connected.trans (h.offline k ((awaits k).mp hk))
  | opens met awaits connected pairing => exact connected.trans (h.offline k ((awaits k).mp hk))
  | starts called met idle awaits connected pairing => exact connected
  | closes met awaits connected pairing => exact connected
  | ends met awaits connected pairing => exact connected
  | adopts met awaits connected pairing => exact absurd hk (awaits k)

theorem Effect.coded {action : ConnectionAction} (heffect : Effect c action c') (h : c.Kept) :
    c'.pairing.status = .connected → c'.pairing.qr = none := by
  cases heffect with
  | same _ _ _ pairing | starts _ _ _ _ _ pairing | ends _ _ _ pairing | adopts _ _ _ pairing =>
    exact pairing ▸ h.coded
  | opens _ _ _ pairing => exact fun _ => pairing ▸ rfl
  | closes _ _ _ pairing => exact fun _ => pairing ▸ rfl

theorem map_modify (hgen : ∀ a, (f a).generation = a.generation) :
    (c.modify k f).attempts.map (·.generation) = c.attempts.map (·.generation) :=
  map_modify_eq hgen

/-- A step that changes one attempt, and leaves it as pending as it was. -/
theorem effect_modify {action : ConnectionAction} (met : c.Restores action)
    (hgen : ∀ a, (f a).generation = a.generation)
    (hpending : ∀ a, c.attempts[k]? = some a → (f a).stage.isPending = a.stage.isPending) :
    Effect c action (c.modify k f) :=
  .same met (fun _ => awaits_modify hgen hpending) rfl rfl

/-- A step that settles an attempt and nothing more. -/
theorem effect_settled (h : c.Kept) {action : ConnectionAction}
    (hsettled : ∀ a, (f a).stage.isPending = false)
    (met : c.Restores action ↔ (c.Awaits k → c.pairing.IsQuiet)) :
    Effect c action (c.modify k f) := by
  by_cases hk : c.Awaits k
  · refine .ends (met.trans ⟨fun hquiet => hquiet hk, fun hquiet _ => hquiet⟩) (fun j => ?_)
      (h.offline k hk) rfl
    exact h.numbered.not_awaits_settled hk hsettled
  · refine .same (met.mpr fun hawaits => absurd hawaits hk) (fun j => ?_) rfl rfl
    exact awaits_settled_of_not hsettled hk

theorem effect_connect (h : c.Kept) : Effect c .connect c.connect := by
  unfold connect
  split
  · exact .same trivial (fun _ => .rfl) rfl rfl
  · rename_i hidle
    simp only [Bool.or_eq_true, not_or, Bool.not_eq_true, Option.isSome_eq_false_iff,
      Option.isNone_iff_eq_none] at hidle
    refine .starts rfl trivial (fun j hj => ?_) ?_ hidle.1 rfl
    · cases hidle.2.symm.trans (h.connecting j hj)
    · exact ⟨c.attempts.length, _, List.getElem?_concat_length, rfl, rfl⟩

theorem map_generation_disconnect (c : Connection) :
    c.disconnect.attempts.map (·.generation) = c.attempts.map (·.generation) := by
  have hsettle : (c.endSocket.attempts.map (Attempt.settle false)).map (·.generation) =
      c.endSocket.attempts.map (·.generation) := by
    rw [List.map_map]
    exact List.map_congr_left fun a _ => generation_settle false a
  exact hsettle.trans (map_generation_endSocket c)

theorem effect_disconnect (h : c.Kept) : Effect c .disconnect c.disconnect := by
  refine .ends .rfl (fun j => ?_) rfl c.endSocket_eq.2.2.2
  exact h.numbered.not_awaits (map_generation_disconnect c) (Nat.lt_succ_self _)

theorem effect_subscribe (ha : c.attempts[k]? = some a) (hstage : a.stage = .made) :
    Effect c (.subscribe k) (c.subscribe k) := by
  unfold subscribe
  split
  · refine effect_modify trivial (fun _ => rfl) fun b hb => ?_
    obtain rfl := Option.some.inj (ha.symm.trans hb)
    rw [hstage]
    rfl
  · rename_i hsuperseded
    refine .same trivial (fun j => awaits_settled_of_not (fun _ => rfl) ?_) rfl rfl
    rintro ⟨b, hb, hcurrent, _⟩
    exact hsuperseded ((isCurrent_iff hb).2 hcurrent)

theorem effect_update (h : c.Kept) (ha : c.attempts[k]? = some a) (update : Update) :
    Effect c (.update k update)
      (if a.listening && c.isCurrent k then (c.modify k (.report update)).update k update
      else c.modify k (.report update)) := by
  have hreport : ∀ j, (c.modify k (.report update)).Awaits j ↔ c.Awaits j :=
    fun j => awaits_modify (fun _ => rfl) fun _ _ => rfl
  split
  · rename_i hheard
    rw [Bool.and_eq_true] at hheard
    cases update with
    | closed error =>
      refine .closes trivial (fun j => ?_) rfl rfl
      exact (awaits_modify (fun b => generation_settle false b.endQuietly)
        fun b _ => isPending_settle false b.endQuietly).trans (hreport j)
    | opened =>
      have hawaits (j : Nat) :
          ((c.modify k (.report .opened)).update k .opened).Awaits j ↔ c.Awaits j :=
        (awaits_modify (generation_settle true) fun b _ => isPending_settle true b).trans
          (hreport j)
      refine .opens ?_ hawaits rfl rfl
      constructor
      · intro hC
        refine (hC a ha hheard.1 hheard.2).imp (fun hk => ⟨k, (hawaits k).mpr hk⟩) id
      · rintro hor b hb _ hcurrent
        refine hor.imp (fun ⟨j, hj⟩ => ?_) id
        have hj := (hawaits j).mp hj
        exact h.numbered.unique hj hb ((isCurrent_iff hb).1 hcurrent) ▸ hj
  · rename_i hunheard
    refine .same ?_ hreport rfl rfl
    cases update with
    | closed error => trivial
    | opened =>
      intro b hb hlistening hcurrent
      obtain rfl := Option.some.inj (ha.symm.trans hb)
      exact absurd (by rw [hlistening, hcurrent]; rfl) hunheard

theorem effect_giveUp (h : c.Kept) (hk : c.Awaits k) {action : ConnectionAction}
    (met : c.Restores action ↔ c.pairing.IsQuiet) : Effect c action (c.giveUp k) := by
  unfold giveUp
  split
  · refine effect_settled h (fun _ => rfl) (met.trans ?_)
    exact ⟨fun hquiet _ => hquiet, fun hquiet => hquiet hk⟩
  · refine .ends met (fun j => ?_) rfl rfl
    exact h.numbered.not_awaits (map_modify fun _ => rfl) (Nat.lt_succ_self _)

theorem effect_adopt (h : c.Kept) (hk : c.Awaits k) {action : ConnectionAction}
    (met : c.Restores action ↔ c.pairing.status = .connected) (user : User) :
    Effect c action (c.adopt k user) := by
  have hkept (j : Nat) :
      (if c.socket = some k then c else c.endSocket).Awaits j ↔ c.Awaits j := by
    split
    · rfl
    · exact awaits_endSocket
  refine .adopts met (fun j hj => ?_) rfl ?_
  · have hj : ((if c.socket = some k then c else c.endSocket).modify k
        fun a => { a with stage := .settled (.ok true) }).Awaits j := hj
    obtain ⟨hj, hne⟩ := (awaits_settled fun _ => rfl).mp hj
    obtain ⟨b, hb, hgeneration, _⟩ := (hkept j).mp hj
    exact hne (h.numbered.unique hk hb hgeneration).symm
  · unfold adopt modify
    split
    · rfl
    · exact c.endSocket_eq.2.2.2

theorem effect_resume (h : c.Kept) (ha : c.attempts[k]? = some a) {ok : Bool}
    (hstage : a.stage = .opening (some ok)) (user : User) :
    Effect c (.resume k user) (c.resume k ok user) := by
  unfold resume
  split
  · rename_i hsuperseded
    have hk : ¬c.Awaits k := by
      rintro ⟨b, hb, hcurrent, _⟩
      rw [(isCurrent_iff hb).2 hcurrent] at hsuperseded
      cases hsuperseded
    exact .same (fun hawaits => absurd hawaits hk)
      (fun j => awaits_settled_of_not (fun _ => rfl) hk) rfl rfl
  · rename_i hcurrent
    have hcurrent : a.generation = c.generation := (isCurrent_iff ha).1 (by simpa using hcurrent)
    have hk : c.Awaits k := ⟨a, ha, hcurrent, by rw [hstage]; rfl⟩
    cases ok with
    | false =>
      have met : c.Restores (.resume k user) ↔ c.pairing.IsQuiet := by
        refine ⟨fun hC => (hC hk a ha).2 hstage, fun hquiet _ b hb => ?_⟩
        obtain rfl := Option.some.inj (ha.symm.trans hb)
        exact ⟨fun hopen => (nomatch hstage.symm.trans hopen), fun _ => hquiet⟩
      exact effect_giveUp h hk met
    | true =>
      have met : c.Restores (.resume k user) ↔ c.pairing.status = .connected := by
        refine ⟨fun hC => (hC hk a ha).1 hstage, fun hstatus _ b hb => ?_⟩
        obtain rfl := Option.some.inj (ha.symm.trans hb)
        exact ⟨fun _ => hstatus, fun hfailed => (nomatch hstage.symm.trans hfailed)⟩
      exact effect_adopt h hk met user

theorem effect_of_step {action : ConnectionAction} (h : c.Kept) (hstep : c.step action = some c')
    (hcode : action.issuer? = none) : Effect c action c' := by
  cases steps_of_step hstep with
  | connect => exact effect_connect h
  | disconnect => exact effect_disconnect h
  | @built k a ha hstage onWhatsApp =>
    refine effect_modify trivial (fun _ => rfl) fun b hb => ?_
    obtain rfl := Option.some.inj (ha.symm.trans hb)
    rw [hstage]
    rfl
  | failed ha hstage err => exact effect_settled h (fun _ => rfl) .rfl
  | subscribe ha hstage => exact effect_subscribe ha hstage
  | update ha hsocket update => exact effect_update h ha update
  | timeout k =>
    exact effect_modify trivial (generation_settle false) fun a _ => isPending_settle false a
  | resume ha hstage user => exact effect_resume h ha hstage user
  | finish k =>
    split
    · exact .same trivial (fun _ => .rfl) rfl rfl
    · exact .same trivial (fun _ => .rfl) rfl rfl
  | qr k code now => cases hcode

/-! ## What every step keeps -/

theorem numbered_connect (h : c.Numbered) : c.connect.Numbered := by
  unfold connect
  split
  · exact h
  · have hmap : (c.attempts ++ [({ generation := c.generation + 1 } : Attempt)]).map
        (·.generation) = c.attempts.map (·.generation) ++ [c.generation + 1] := List.map_append
    refine ⟨fun g hg => ?_, ?_⟩
    · rw [hmap, List.mem_append, List.mem_singleton] at hg
      show g ≤ c.generation + 1
      obtain hg | rfl := hg
      · exact Nat.le_succ_of_le (h.bounded g hg)
      · exact Nat.le.refl
    · rw [hmap, List.pairwise_append]
      refine ⟨h.increasing, List.pairwise_singleton .., fun g hg g' hg' => ?_⟩
      cases List.mem_singleton.mp hg'
      exact Nat.lt_succ_of_le (h.bounded g hg)

theorem numbered_update (h : c.Numbered) (update : Update) : (c.update k update).Numbered := by
  cases update with
  | opened => exact h.of_map (map_modify (generation_settle true)) Nat.le.refl
  | closed error =>
    exact h.of_map (map_modify fun a => generation_settle false a.endQuietly) Nat.le.refl

theorem numbered_resume (h : c.Numbered) (ok : Bool) (user : User) :
    (c.resume k ok user).Numbered := by
  unfold resume
  split
  · exact h.of_map (map_modify fun _ => rfl) Nat.le.refl
  · split
    · unfold giveUp
      split
      · exact h.of_map (map_modify fun _ => rfl) Nat.le.refl
      · exact h.of_map (map_modify fun _ => rfl) (Nat.le_succ _)
    · have hended : c.endSocket.Numbered :=
        h.of_map (map_generation_endSocket c) (Nat.le_of_eq c.endSocket_eq.1.symm)
      unfold adopt
      split
      · exact h.of_map (map_modify fun _ => rfl) Nat.le.refl
      · exact hended.of_map (map_modify fun _ => rfl) Nat.le.refl

theorem numbered_step {action : ConnectionAction} (h : c.Numbered)
    (hstep : c.step action = some c') : c'.Numbered := by
  cases steps_of_step hstep with
  | connect => exact numbered_connect h
  | disconnect =>
    refine h.of_map (map_generation_disconnect c) ?_
    exact Nat.le_succ _
  | built | failed => exact h.of_map (map_modify fun _ => rfl) Nat.le.refl
  | subscribe =>
    unfold subscribe
    split <;> exact h.of_map (map_modify fun _ => rfl) Nat.le.refl
  | update =>
    have hreport {k : Nat} {update : Update} : (c.modify k (.report update)).Numbered :=
      h.of_map (map_modify fun _ => rfl) Nat.le.refl
    split
    · exact numbered_update hreport _
    · exact hreport
  | timeout => exact h.of_map (map_modify (generation_settle false)) Nat.le.refl
  | resume ha hstage user => exact numbered_resume h _ user
  | finish =>
    split
    · exact h.of_map rfl Nat.le.refl
    · exact h
  | qr => exact h.of_map rfl Nat.le.refl

/-- The slot is given by `connect` alone, and taken by `disconnect` and at the end of a call. -/
theorem connecting_step {action : ConnectionAction} (hstep : Steps c action c') :
    c'.connecting = c.connecting ∨ action = .connect ∨ action = .disconnect ∨
      ∃ k, action = .finish k := by
  cases hstep with
  | connect | disconnect | finish => simp
  | built | failed | timeout | qr => exact .inl rfl
  | subscribe =>
    unfold subscribe
    split <;> exact .inl rfl
  | update ha hsocket update =>
    split
    · cases update <;> exact .inl rfl
    · exact .inl rfl
  | resume =>
    unfold resume giveUp adopt modify
    split
    · exact .inl rfl
    · split
      · split <;> exact .inl rfl
      · split
        · exact .inl rfl
        · exact .inl c.endSocket_eq.2.2.1

theorem connecting_connect (h : c.Kept) (hk : c.connect.Awaits k) :
    c.connect.connecting = some k := by
  unfold connect at hk ⊢
  split
  · rename_i hbusy
    rw [if_pos hbusy] at hk
    exact h.connecting k hk
  · rename_i hidle
    rw [if_neg hidle] at hk
    obtain ⟨a, ha, hcurrent, _⟩ := hk
    obtain ha | ⟨rfl, -⟩ := getElem?_append_singleton.1 ha
    · -- an attempt from before has an earlier generation
      have hle := h.numbered.bounded _ (List.mem_map_of_mem (List.mem_of_getElem? ha))
      have hlater : a.generation = c.generation + 1 := hcurrent
      omega
    · rfl

/-- A call ends after its attempt, so no pending attempt loses its slot. -/
theorem connecting_finish (h : c.Kept) (hstep : c.step (.finish k) = some c')
    (hj : c'.Awaits j) : c'.connecting = some j := by
  obtain ⟨a, ha, hstep⟩ := Option.bind_eq_some_iff.1 hstep
  split at hstep
  · rename_i answer hstage
    cases hstep
    split at hj
    · rename_i hslot
      have hj : c.Awaits j := hj
      obtain rfl := Option.some.inj (hslot.symm.trans (h.connecting j hj))
      obtain ⟨b, hb, _, hpending⟩ := hj
      obtain rfl := Option.some.inj (ha.symm.trans hb)
      rw [hstage] at hpending
      cases hpending
    · rename_i hslot
      rw [if_neg hslot]
      exact h.connecting j hj
  · cases hstep

theorem Effect.awaits_of_ne {action : ConnectionAction} (heffect : Effect c action c')
    (hne : action ≠ .connect) (hj : c'.Awaits j) : c.Awaits j := by
  cases heffect with
  | same _ awaits | opens _ awaits | closes _ awaits => exact (awaits j).mp hj
  | starts called => exact absurd called hne
  | ends _ awaits | adopts _ awaits => exact absurd hj (awaits j)

theorem kept_step {action : ConnectionAction} (h : c.Kept) (hstep : c.step action = some c') :
    c'.Kept := by
  have hnumbered := numbered_step h.numbered hstep
  cases hcode : action.issuer? with
  | some k =>
    cases steps_of_step hstep with
    | qr k code now => exact ⟨hnumbered, h.connecting, h.offline, nofun⟩
    | _ => cases hcode
  | none =>
    have heffect := effect_of_step h hstep hcode
    refine ⟨hnumbered, fun j hj => ?_, heffect.offline h, heffect.coded h⟩
    obtain hsame | rfl | rfl | ⟨k, rfl⟩ := connecting_step (steps_of_step hstep)
    · by_cases hconnect : action = .connect
      · subst hconnect
        cases hstep
        exact connecting_connect h hj
      · exact hsame.trans (h.connecting j (heffect.awaits_of_ne hconnect hj))
    · cases hstep
      exact connecting_connect h hj
    · cases hstep
      exact absurd hj (h.numbered.not_awaits (map_generation_disconnect c) (Nat.lt_succ_self _))
    · exact connecting_finish h hstep hj

end Connection

/-! ## When the pairing says what it should -/

namespace PairedConnection

variable {p p' : PairedConnection}

theorem step_eq_some {action : ConnectionAction} (hstep : p.step action = some p') :
    p.conn.step action = some p'.conn ∧ p'.issuer = action.issuer?.or p.issuer := by
  obtain ⟨conn, hconn, rfl⟩ := Option.map_eq_some_iff.mp hstep
  exact ⟨hconn, rfl⟩

/-- Without a pending attempt, the pairing is to show no code and the state of the backend. -/
theorem truthful_iff_of_idle (hidle : ∀ k, ¬p.conn.Awaits k) :
    p.Truthful ↔ (p.conn.pairing.status = .connected ↔ p.conn.connected = true) ∧
      p.conn.pairing.qr = none := by
  refine ⟨fun h => ⟨h.status hidle, Option.not_isSome_iff_eq_none.mp fun hqr => ?_⟩,
    fun h => ⟨fun _ => h.1, fun hqr => ?_⟩⟩
  · obtain ⟨k, _, hawaits⟩ := h.code hqr
    exact hidle k hawaits
  · rw [h.2] at hqr
    cases hqr

/-- A code is right in the pairing exactly if the attempt that got it is pending. -/
theorem truthful_code {k : Nat} {code : JsString} {now : JsNumber}
    (hstep : p.step (.qr k code now) = some p') : p'.Truthful ↔ p.conn.Awaits k := by
  obtain ⟨conn, hconn, rfl⟩ := Option.map_eq_some_iff.mp hstep
  obtain ⟨a, ha, hconn⟩ := Option.bind_eq_some_iff.1 hconn
  cases hconn
  constructor
  · intro hp'
    obtain ⟨j, hj, hawaits⟩ := hp'.code rfl
    cases hj
    exact hawaits
  · exact fun hk => ⟨fun hnone => absurd hk (hnone k), fun _ => ⟨k, rfl, hk⟩⟩

/-- A step from a state where the pairing is right leads to another exactly if it restores it. -/
theorem truthful_step {action : ConnectionAction} (h : p.conn.Kept) (hp : p.Truthful)
    (hstep : p.step action = some p') : p'.Truthful ↔ p.conn.Restores action := by
  obtain ⟨hconn, hissuer⟩ := step_eq_some hstep
  cases hcode : action.issuer? with
  | some k =>
    cases action with
    | qr j code now => exact truthful_code hstep
    | _ => cases hcode
  | none =>
    rw [hcode, Option.none_or] at hissuer
    cases Connection.effect_of_step h hconn hcode with
    | same met awaits connected pairing =>
      refine iff_of_true ⟨fun hnone => ?_, fun hqr => ?_⟩ met
      · rw [pairing, connected]
        exact hp.status fun k hk => hnone k ((awaits k).mpr hk)
      · obtain ⟨k, hk, hawaits⟩ := hp.code (pairing ▸ hqr)
        exact ⟨k, hissuer.trans hk, (awaits k).mpr hawaits⟩
    | starts called met idle awaits connected pairing =>
      refine iff_of_true ⟨fun hnone => ?_, fun hqr => ?_⟩ met
      · exact awaits.elim fun j hj => absurd hj (hnone j)
      · obtain ⟨k, _, hawaits⟩ := hp.code (pairing ▸ hqr)
        exact absurd hawaits (idle k)
    | ends met awaits connected pairing =>
      rw [met, truthful_iff_of_idle awaits, connected, pairing]
      exact ⟨fun hp' => ⟨by simpa using hp'.1, hp'.2⟩, fun hq => ⟨by simpa using hq.status, hq.qr⟩⟩
    | adopts met awaits connected pairing =>
      rw [met, truthful_iff_of_idle awaits, connected, pairing]
      exact ⟨fun hp' => hp'.1.mpr rfl, fun hstatus => ⟨iff_of_true hstatus rfl, h.coded hstatus⟩⟩
    | opens met awaits connected pairing =>
      rw [met]
      constructor
      · intro hp'
        refine Classical.or_iff_not_imp_left.mpr fun hnone => ?_
        exact (hp'.status fun k hk => hnone ⟨k, hk⟩).mp (by rw [pairing])
      · intro hor
        refine ⟨fun hnone => iff_of_true (by rw [pairing]) ?_, fun hqr => ?_⟩
        · exact hor.resolve_left fun ⟨j, hj⟩ => hnone j hj
        · rw [pairing] at hqr
          cases hqr
    | closes met awaits connected pairing =>
      refine iff_of_true ⟨fun _ => ?_, fun hqr => ?_⟩ met
      · exact iff_of_false (by simp [pairing]) (by simp [connected])
      · rw [pairing] at hqr
        cases hqr

theorem truthful_init : Truthful {} where
  status _ := iff_of_false (nofun) (nofun)
  code := nofun

/-- In every state of a run the pairing says what it should, exactly if every step restores it. -/
theorem pairing_truthful_iff {actions : List ConnectionAction}
    (hrun : run step {} actions = some p) :
    Always step Truthful {} actions ↔
      Meets step (fun p action => p.conn.Restores action) {} actions := by
  refine always_iff_meets (I := fun p => p.conn.Kept) (fun s action t hs hstep => ?_)
    (fun s action t hs hp hstep => truthful_step hs hp hstep)
    Connection.kept_init truthful_init hrun
  exact Connection.kept_step hs (step_eq_some hstep).1

/-- A device is paired by a code, and the session closes. -/
def pairedAndClosed : List ConnectionAction :=
  [.connect, .build 0 (.ok true), .subscribe 0, .qr 0 (js "2@abc") (.finite 0), .update 0 .opened,
    .resume 0 {}, .finish 0, .update 0 (.closed .undefined), .disconnect]

theorem pairing_truthful_iff_closed :
    ∃ p, run step {} pairedAndClosed = some p ∧ Always step Truthful {} pairedAndClosed := by
  have hrun : run step {} pairedAndClosed = some _ := rfl
  exact ⟨_, hrun, (pairing_truthful_iff hrun).2 (by decide +kernel)⟩

/-- An attempt whose code nobody scans, which is given up. -/
def neverScanned : List ConnectionAction :=
  [.connect, .build 0 (.ok true), .subscribe 0, .qr 0 (js "2@abc") (.finite 0), .timeout 0,
    .resume 0 {}, .finish 0]

/-- A connection that is ended. -/
def openedAndEnded : List ConnectionAction :=
  [.connect, .build 0 (.ok true), .subscribe 0, .update 0 .opened, .resume 0 {}, .finish 0,
    .disconnect]

/-- The pairing still shows the code of an attempt that was given up, and still says connected
after a disconnect. -/
theorem pairing_not_restored :
    ¬Always step Truthful {} neverScanned ∧ ¬Always step Truthful {} openedAndEnded := by
  constructor
  · intro h
    obtain ⟨k, hk, a, ha, _, hstage⟩ := (h neverScanned _ List.prefix_rfl rfl).code rfl
    cases hk
    cases ha
    cases hstage
  · intro h
    have hconnected := ((h openedAndEnded _ List.prefix_rfl rfl).status ?_).mp rfl
    · cases hconnected
    · rintro (_ | k) ⟨a, ha, _, hstage⟩
      · cases ha
        cases hstage
      · cases ha

end PairedConnection

end TheokitGateways.WhatsApp.Baileys
