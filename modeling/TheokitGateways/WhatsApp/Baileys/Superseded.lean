import TheokitGateways.WhatsApp.Baileys.Frames
import TheokitGateways.WhatsApp.Baileys.Sockets

/-!
# What superseded sockets may not do

A connected backend should speak through an open socket of the current attempt,
leave no other socket running and take no message from a superseded one. A socket
is looked at as its batch comes in and not for each message, so a handler that
ends the connection and subscribes anew gets the rest: `Calm` excludes it, and
asks of the connection that it is orderly.
-/

namespace TheokitGateways.WhatsApp.Baileys
open Js Gateway Records Transition

/-- The socket of an attempt is there and was not ended. -/
def Connection.isAlive (c : Connection) (k : Nat) : Bool :=
  c.attempts[k]?.any fun a => a.socket.any (!·.ended)

namespace WhatsAppBaileysBackend

/-- The contract of the connection. -/
structure Coherent (b : WhatsAppBaileysBackend) : Prop where
  connected : b.conn.connected = true → ∃ k a s, b.conn.socket = some k ∧
    b.conn.attempts[k]? = some a ∧ a.generation = b.conn.generation ∧ a.socket = some s ∧
      s.opened = true ∧ s.closed = false ∧ s.ended = false
  alone : (∀ a ∈ b.conn.attempts, a.stage.isPending = false) →
    ∀ j k, b.conn.isAlive j = true → b.conn.isAlive k = true → j = k
  silent : ∀ d ∈ b.deliveries, ∃ a, b.conn.attempts[d.socket]? = some a ∧
    a.generation = d.generation

/-- A batch is being handed over, and has messages left. -/
def HandsOver (b : WhatsAppBaileysBackend) (k : Nat) : Prop :=
  ∃ batch, b.batch = some batch ∧ batch.socket = k ∧ batch.rest ≠ []

/-- The connection is orderly, and no handler starts an attempt or subscribes for a superseded
socket in the middle of a batch. -/
def Calm (b : WhatsAppBaileysBackend) : Action → Prop
  | .connection .connect =>
    ∀ k, b.HandsOver k → b.conn.connected = true ∨ b.conn.connecting.isSome = true
  | .connection action => b.conn.Orderly action
  | .onInbound _ => ∀ k, b.HandsOver k → b.conn.isCurrent k = true
  | _ => True

/-- A batch with messages left is of the current attempt, or nobody hears them. -/
def Heard (b : WhatsAppBaileysBackend) : Prop :=
  ∀ k, b.HandsOver k → b.conn.isCurrent k = true ∨ b.inboundHandler = none

/-- What every calm step keeps. -/
structure Sound (b : WhatsAppBaileysBackend) : Prop where
  conn : b.conn.Sound
  heard : b.Heard
  silent : ∀ d ∈ b.deliveries, (b.conn.attempts.map (·.generation))[d.socket]? = some d.generation

end WhatsAppBaileysBackend

namespace Connection
variable {c c' : Connection} {k : Nat}

/-- The sockets that are left without a pending attempt are the recorded one. -/
theorem Sound.alive (h : c.Sound) (hidle : ∀ a ∈ c.attempts, a.stage.isPending = false)
    (halive : c.isAlive k = true) : c.socket = some k := by
  obtain ⟨a, ha, halive⟩ := (Option.any_eq_true _ _).1 halive
  obtain ⟨s, hs, he⟩ := (Option.any_eq_true _ _).1 halive
  obtain hpending | hrecorded := (h.fits k a ha).kept s hs (by simpa using he)
  · rw [hidle a (List.mem_of_getElem? ha)] at hpending
    cases hpending
  · exact hrecorded

theorem map_generation_endSocket (c : Connection) :
    c.endSocket.attempts.map (·.generation) = c.attempts.map (·.generation) := by
  unfold Connection.endSocket
  split
  · exact map_modify_eq fun _ => rfl
  · rfl

/-- No attempt loses its generation. -/
theorem generations_step {action : ConnectionAction} (h : c.step action = some c') :
    c.attempts.map (·.generation) <+: c'.attempts.map (·.generation) := by
  have hmap (as : List Attempt) (j : Nat) (f : Attempt → Attempt)
      (hf : ∀ a, (f a).generation = a.generation) :
      (as.modify j f).map (·.generation) = as.map (·.generation) := map_modify_eq hf
  have hmodify (j : Nat) (f : Attempt → Attempt) (hf : ∀ a, (f a).generation = a.generation) :
      c.attempts.map (·.generation) <+: (c.attempts.modify j f).map (·.generation) :=
    (hmap c.attempts j f hf).symm ▸ List.prefix_rfl
  have hreport (j : Nat) (u : Update) :
      c.attempts.map (·.generation) <+:
        ((c.modify j (.report u)).update j u).attempts.map (·.generation) := by
    cases u with
    | opened =>
      exact (hmap _ j (.settle true) (generation_settle true)).symm ▸
        hmodify j (.report .opened) fun _ => rfl
    | closed error =>
      exact (hmap _ j (fun a => a.endQuietly.settle false)
          fun a => generation_settle false a.endQuietly).symm ▸
        hmodify j (.report (.closed error)) fun _ => rfl
  cases steps_of_step h with
  | connect =>
    unfold connect
    split
    · exact List.prefix_rfl
    · rw [List.map_append]
      exact List.prefix_append ..
  | disconnect =>
    have hgen : (fun a : Attempt => a.generation) ∘ Attempt.settle false =
        fun a => a.generation := funext (generation_settle false)
    have hsame : (c.endSocket.attempts.map (Attempt.settle false)).map (·.generation) =
        c.attempts.map (·.generation) := by
      rw [List.map_map, hgen, map_generation_endSocket]
    exact ⟨[], (List.append_nil _).trans hsame.symm⟩
  | built | failed => exact hmodify _ _ fun _ => rfl
  | subscribe ha hstage =>
    unfold subscribe
    split <;> exact hmodify _ _ fun _ => rfl
  | update ha hsocket u =>
    split
    · exact hreport _ u
    · exact hmodify _ _ fun _ => rfl
  | timeout k => exact hmodify k _ (generation_settle false)
  | @resume k a ok ha hstage user =>
    unfold resume giveUp adopt
    split
    · exact hmodify k _ fun _ => rfl
    · split
      · split <;> exact hmodify k _ fun _ => rfl
      · split
        · exact hmodify k _ fun _ => rfl
        · refine (hmap _ k (fun a => { a with stage := .settled (.ok true) })
            fun _ => rfl).symm ▸ ?_
          exact map_generation_endSocket c ▸ List.prefix_rfl
  | finish k => split <;> exact List.prefix_rfl
  | qr k code now => exact List.prefix_rfl

/-- Without an attempt started or ended, the generation stays. -/
theorem isCurrent_connect (h : c.connected = true ∨ c.connecting.isSome = true) :
    c.connect = c := by
  unfold connect
  rw [if_pos]
  simpa using h

end Connection

namespace WhatsAppBaileysBackend
variable {timeoutMs : JsString} {b b' : WhatsAppBaileysBackend} {action : Action}

theorem sound_init : Sound {} where
  conn := Connection.sound_init
  heard _ h := nomatch h
  silent _ hd := nomatch hd

/-- A sound backend meets its contract. -/
theorem Sound.coherent (h : b.Sound) : b.Coherent where
  connected hconnected := by
    rw [h.conn.connected] at hconnected
    obtain ⟨k, hk⟩ := Option.isSome_iff_exists.1 hconnected
    obtain ⟨a, ha⟩ := h.conn.inRange k hk
    obtain ⟨hcurrent, _, hopen⟩ := (h.conn.fits k a ha).recorded hk
    obtain ⟨s, hs⟩ := hopen.socket
    exact ⟨k, a, s, hk, ha, hcurrent, hs⟩
  alone hidle j k hj hk :=
    Option.some.inj ((h.conn.alive hidle hj).symm.trans (h.conn.alive hidle hk))
  silent d hd := by
    have hgeneration := h.silent d hd
    rw [List.getElem?_map] at hgeneration
    obtain ⟨a, ha, hgeneration⟩ := Option.map_eq_some_iff.1 hgeneration
    exact ⟨a, ha, hgeneration⟩

theorem Sound.of_inbound (h : b.Sound) (hsame : b'.inbound = b.inbound) : b'.Sound := by
  simp only [inbound, Prod.mk.injEq] at hsame
  obtain ⟨hconn, hhandler, hbatch, hdeliveries⟩ := hsame
  refine ⟨hconn ▸ h.conn, fun k hbatched => ?_, ?_⟩
  · obtain ⟨batch, hb, hk⟩ := hbatched
    rw [hconn, hhandler]
    exact h.heard k ⟨batch, hbatch ▸ hb, hk⟩
  · rw [hconn, hdeliveries]
    exact h.silent

theorem silent_of_prefix {c c' : Connection} {ds : List Delivery}
    (hextends : c.attempts.map (·.generation) <+: c'.attempts.map (·.generation))
    (h : ∀ d ∈ ds, (c.attempts.map (·.generation))[d.socket]? = some d.generation) :
    ∀ d ∈ ds, (c'.attempts.map (·.generation))[d.socket]? = some d.generation := by
  intro d hd
  obtain ⟨hlt, heq⟩ := List.getElem?_eq_some_iff.1 (h d hd)
  rw [List.prefix_iff_getElem?.1 hextends d.socket hlt, heq]

theorem conn_disconnect (c : Connection) : c.step .disconnect = some c.disconnect := rfl

theorem orderly_of_calm {action : ConnectionAction} (hC : b.Calm (.connection action)) :
    b.conn.Orderly action := by
  cases action with
  | connect => trivial
  | _ => exact hC

/-- No batch is handed over but in the loop, so the other steps of the connection find none. -/
theorem sound_connection {action : ConnectionAction} (h : b.Sound)
    (hC : b.conn.Orderly action) {conn : Connection} (hstep : b.conn.step action = some conn)
    (hidle : b.batch = none) : Sound { b with conn := conn } where
  conn := Connection.sound_step h.conn hC hstep
  heard _ := fun ⟨_, hb, _⟩ => (nomatch hidle.symm.trans hb)
  silent := silent_of_prefix (Connection.generations_step hstep) h.silent

theorem sound_connect (h : b.Sound) (hC : b.Calm (.connection .connect)) :
    Sound { b with conn := b.conn.connect } where
  conn := Connection.sound_connect h.conn
  heard k hk := by
    have hsame := Connection.isCurrent_connect (hC k hk)
    rw [hsame]
    exact h.heard k hk
  silent := by
    have hstep : b.conn.step .connect = some b.conn.connect := rfl
    exact silent_of_prefix (Connection.generations_step hstep) h.silent

theorem sound_disconnect (h : b.Sound) :
    Sound { b with conn := b.conn.disconnect, inboundHandler := none } where
  conn := Connection.sound_disconnect h.conn
  heard _ _ := .inr rfl
  silent := silent_of_prefix (Connection.generations_step (conn_disconnect b.conn)) h.silent

/-- The event of a message is of the current attempt. -/
theorem sound_dispatchInbound (h : b.Sound) {k : Nat} {raw : RawEnvelope}
    (hheard : b.conn.isCurrent k = true ∨ b.inboundHandler = none)
    (hdispatch : b.dispatchInbound k raw = some b') :
    b'.conn = b.conn ∧ b'.inboundHandler = b.inboundHandler ∧
      ∀ d ∈ b'.deliveries, (b.conn.attempts.map (·.generation))[d.socket]? = some d.generation := by
  unfold dispatchInbound at hdispatch
  split at hdispatch
  · obtain rfl := Option.some.inj hdispatch
    exact ⟨rfl, rfl, h.silent⟩
  · rename_i handler hhandler
    split at hdispatch
    · cases hdispatch
    · obtain rfl := Option.some.inj hdispatch
      exact ⟨rfl, rfl, h.silent⟩
    · obtain rfl := Option.some.inj hdispatch
      refine ⟨rfl, rfl, fun d hd => ?_⟩
      obtain rfl | hd := List.mem_cons.1 hd
      · obtain hcurrent | hnone := hheard
        · obtain ⟨a, ha, hgeneration⟩ := (Option.any_eq_true _ _).1 hcurrent
          rw [List.getElem?_map, ha, Option.map_some, of_decide_eq_true hgeneration]
        · exact (nomatch hnone.symm.trans hhandler)
      · exact h.silent d hd

theorem sound_dispatch (h : b.Sound) {batch : Batch} (hbatch : b.batch = some batch)
    {raw : RawEnvelope} {rest : List RawEnvelope} (hrest : batch.rest = raw :: rest)
    (hdispatch : b.dispatchInbound batch.socket raw = some b') :
    Sound { b' with batch := some ⟨batch.socket, rest⟩ } := by
  have hheard := h.heard batch.socket ⟨batch, hbatch, rfl, by simp [hrest]⟩
  obtain ⟨hconn, hhandler, hdeliveries⟩ := sound_dispatchInbound h hheard hdispatch
  refine ⟨hconn ▸ h.conn, fun k ⟨batch', hb, hk, _⟩ => ?_, hconn ▸ hdeliveries⟩
  obtain rfl := Option.some.inj hb
  subst hk
  show b'.conn.isCurrent batch.socket = true ∨ b'.inboundHandler = none
  rw [hconn, hhandler]
  exact hheard

/-- A backend that hands nothing over. -/
theorem Sound.withoutBatch (h : b.Sound) : Sound { b with batch := none } :=
  ⟨h.conn, fun _ ⟨_, hb, _⟩ => (nomatch hb), h.silent⟩

theorem sound_step (h : b.Sound) (hC : b.Calm action)
    (hstep : b.step timeoutMs action = some b') : b'.Sound := by
  cases hsend : action.isSend with
  | true => exact h.of_inbound (inbound_of_isSend hstep hsend)
  | false =>
    unfold step at hstep
    split at hstep
    · cases hstep
    · rename_i hblocked
      split at hstep
      · obtain rfl := Option.some.inj hstep
        exact sound_disconnect h
      · rename_i ca hca
        obtain ⟨conn, hconn, rfl⟩ := Option.map_eq_some_iff.1 hstep
        cases ca with
        | connect =>
          obtain rfl := Option.some.inj hconn
          exact sound_connect h hC
        | disconnect => exact absurd rfl (hca · |>.elim)
        | _ =>
          have hidle : b.batch = none := by simpa [Action.isCall] using hblocked
          exact sound_connection h (orderly_of_calm hC) hconn hidle
      · obtain ⟨a, ha, hstep⟩ := Option.bind_eq_some_iff.1 hstep
        split at hstep
        · obtain rfl := Option.some.inj hstep
          exact h
        · rename_i hheard
          obtain rfl := Option.some.inj hstep
          refine ⟨h.conn, fun k ⟨batch, hb, hk, _⟩ => .inl ?_, h.silent⟩
          obtain rfl := Option.some.inj hb
          subst hk
          simp_all
      · obtain ⟨batch, hbatch, hstep⟩ := Option.bind_eq_some_iff.1 hstep
        split at hstep
        · obtain rfl := Option.some.inj hstep
          exact h.withoutBatch
        · rename_i raw rest hrest
          split at hstep
          · obtain rfl := Option.some.inj hstep
            exact sound_dispatch h hbatch hrest ‹_›
          · obtain rfl := Option.some.inj hstep
            exact h.withoutBatch
      · obtain ⟨batch, _, hstep⟩ := Option.bind_eq_some_iff.1 hstep
        obtain rfl := Option.some.inj hstep
        exact h.withoutBatch
      · obtain rfl := Option.some.inj hstep
        exact ⟨h.conn, fun k hk => .inl (hC k hk), h.silent⟩
      · obtain rfl := Option.some.inj hstep
        split
        · exact ⟨h.conn, fun _ _ => .inr rfl, h.silent⟩
        · exact h
      all_goals cases hsend

/-- In a calm run, a connected backend speaks through an open socket of the current attempt, no
other socket is left, and no superseded one delivers. -/
theorem coherent_of_calm (timeoutMs : JsString) (as : List Action) (b : WhatsAppBaileysBackend)
    (hrun : run (step timeoutMs) {} as = some b) (hcalm : Meets (step timeoutMs) Calm {} as) :
    b.Coherent :=
  (invariant_of_meets (fun _ _ _ h hC hstep => sound_step h hC hstep) sound_init hcalm
    hrun).coherent

/-- A socket is made and listened to. -/
def listening : List Action :=
  [.connection .connect, .connection (.build 0 (.ok true)), .connection (.subscribe 0)]

/-- The socket opens and is adopted. -/
def adopted : List Action :=
  listening ++ [.connection (.update 0 .opened), .connection (.resume 0 {})]

theorem coherent_of_calm_adopted :
    ∃ b, run (step (js "30000")) {} adopted = some b ∧ b.Coherent := by
  refine ⟨_, rfl, coherent_of_calm (js "30000") adopted _ rfl ?_⟩
  refine meets_cons (fun _ hk => nomatch hk) rfl (meets_cons trivial rfl (meets_cons trivial rfl
    (meets_cons (fun a s ha _ _ hs => ?_) rfl (meets_cons trivial rfl trivial))))
  obtain rfl := Option.some.inj ha
  obtain rfl := Option.some.inj hs
  rfl

/-- A socket that closes right after it has opened is adopted all the same. -/
theorem closed_socket_adopted : ¬ ∀ (timeoutMs : JsString) (as : List Action)
    (b : WhatsAppBaileysBackend), run (step timeoutMs) {} as = some b → b.Coherent := by
  intro h
  have hcoherent := h (js "30000") (listening ++ [.connection (.update 0 .opened),
    .connection (.update 0 (.closed .undefined)), .connection (.resume 0 {})]) _ rfl
  obtain ⟨k, a, s, hk, ha, _, hs, _, hclosed, _⟩ := hcoherent.connected rfl
  obtain rfl := Option.some.inj hk
  obtain rfl := Option.some.inj ha
  obtain rfl := Option.some.inj hs
  cases hclosed

end WhatsAppBaileysBackend
end TheokitGateways.WhatsApp.Baileys
