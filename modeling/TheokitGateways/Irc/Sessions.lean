import TheokitGateways.Irc.Adapter

/-!
# Which socket a line came from

A line should reach the inbound handler, or change the recorded nick, only from
the socket the adapter holds then. `onRaw` asks for the held socket while the
handshake runs and no longer once the attempt has settled, so a socket that was
given up goes on being heard. `Fenced` says of a step that no such line is acted
on, and `sessions_apart_iff` that this is all there is to it.
-/

namespace TheokitGateways.Irc
open Js History Transition

/-- The nick the lines so far have left recorded. -/
def recorded (nick : JsString) : List Effect → JsString
  | [] => nick
  | .renamed _ nick :: _ => nick
  | _ :: past => recorded nick past

/-- The socket was opened and has not been let go since. -/
def Held (k : Nat) (log : List Effect) : Prop := Open (Effect.opens k) (Effect.closes k) log

instance (k : Nat) (log : List Effect) : Decidable (Held k log) :=
  inferInstanceAs (Decidable (Open (Effect.opens k) (Effect.closes k) log))

/-- What a line did was done by a socket held then, and not by one given up before. -/
def Orderly : List Effect → Prop :=
  Each fun e past => ∀ k, e.ofLine = some k → Held k past ∧ Effect.disconnected k ∉ past

structure Apart (log : List Effect) : Prop where
  orderly : Orderly log
  one : ∀ j k, Held j log → Held k log → j = k

section
variable (m : CaseMapping)

/-- The next line a socket has delivered. -/
def Session.nextLine (s : Session) : Option IrcLine :=
  (cutAt lf s.buffered).bind fun (line, _) =>
    if IrcAdapter.withoutCr line = [] then none else parseIrcLine m (IrcAdapter.withoutCr line)

/-- The line is a change of our nick to another one, or a visible message with a handler there. -/
def IrcAdapter.heeds (a : IrcAdapter) (line : IrcLine) : Bool :=
  if a.isOwnNick m line then line.params[0]?.any (· ≠ a.nick)
  else a.handler.isSome && (visiblePrivmsg m line a.nick).isSome

/-- No line to heed is taken from a socket that is not held and whose attempt has settled. -/
def Fenced (a : IrcAdapter) : Action → Prop
  | .line k _ => ∀ s line, a.session k = some s → s.settled = true → s.nextLine m = some line →
      a.heeds m line = true → a.socket = some k
  | _ => True

end

/-- The log tells what the adapter holds and calls itself. -/
structure Faithful (nick : JsString) (a : IrcAdapter) : Prop where
  held : ∀ k, Held k a.log ↔ a.socket = some k
  nick : a.nick = recorded nick a.log
  known : ∀ k, Effect.disconnected k ∈ a.log → k < a.attempts.length
  kept : ∀ k, a.socket = some k → Effect.disconnected k ∉ a.log

/-- The socket is that of the attempt under way, or of the connection. -/
def TiedTo (a : IrcAdapter) (k : Nat) : Prop :=
  ∃ s, a.session k = some s ∧
    (s.settled = true → a.connected = true) ∧ (s.settled = false → a.connecting = some k)

def Tied (a : IrcAdapter) : Prop := ∀ k, a.socket = some k → TiedTo a k

def Consistent (nick : JsString) (a : IrcAdapter) : Prop := Faithful nick a ∧ Tied a

/-- The step keeps the invariant, and nothing a line did comes with it out of order. -/
def Keeps (nick : JsString) (a a' : IrcAdapter) : Prop :=
  Consistent nick a → Consistent nick a' ∧ (Orderly a'.log ↔ Orderly a.log)

/-- Says nothing of what is held, nor of the nick. -/
def Effect.neutral : Effect → Bool
  | .wrote _ _ | .stderr _ | .answered _ _ | .handed _ _ _ => true
  | _ => false

theorem opens_of_neutral {e : Effect} (h : e.neutral = true) (k : Nat) : e.opens k = false := by
  cases e <;> first | rfl | contradiction

theorem closes_of_neutral {e : Effect} (h : e.neutral = true) (k : Nat) : e.closes k = false := by
  cases e <;> first | rfl | contradiction

theorem recorded_of_neutral {e : Effect} (h : e.neutral = true) (nick : JsString)
    (past : List Effect) : recorded nick (e :: past) = recorded nick past := by
  cases e <;> first | rfl | contradiction

theorem held_cons {k : Nat} {e : Effect} {past : List Effect} :
    Held k (e :: past) ↔ e.opens k = true ∨ e.closes k = false ∧ Held k past := Iff.rfl

theorem orderly_cons {e : Effect} {past : List Effect} :
    Orderly (e :: past) ↔
      (∀ k, e.ofLine = some k → Held k past ∧ Effect.disconnected k ∉ past) ∧ Orderly past :=
  Iff.rfl

theorem orderly_of_ofLine {e : Effect} (h : e.ofLine = none) {past : List Effect} :
    Orderly (e :: past) ↔ Orderly past := by
  simp [orderly_cons, h]

variable {nick : JsString} {a : IrcAdapter} {k : Nat}

theorem lt_of_session {s : Session} (hs : a.session k = some s) : k < a.attempts.length := by
  rcases Nat.lt_or_ge k a.attempts.length with h | h
  · exact h
  · simp [IrcAdapter.session, List.getElem?_eq_none h] at hs

theorem session_setSession {s s' : Session} (hs : a.session k = some s) (j : Nat) :
    (a.setSession k s').session j = if k = j then some s' else a.session j := by
  simp only [IrcAdapter.session, IrcAdapter.setSession, List.getElem?_set, lt_of_session hs,
    if_true]
  split <;> rfl

@[simp] theorem record_socket (e : Effect) : (a.record e).socket = a.socket := rfl

@[simp] theorem record_connected (e : Effect) : (a.record e).connected = a.connected := rfl

@[simp] theorem record_session (e : Effect) (j : Nat) : (a.record e).session j = a.session j := rfl

theorem Faithful.neutral (h : Faithful nick a) {e : Effect} (he : e.neutral = true) :
    Faithful nick (a.record e) where
  held j := by
    simp [IrcAdapter.record, held_cons, opens_of_neutral he, closes_of_neutral he, h.held]
  nick := by
    simp [IrcAdapter.record, recorded_of_neutral he, h.nick.symm]
  known j hj := by
    obtain rfl | hj := List.mem_cons.1 hj
    · contradiction
    · exact h.known j hj
  kept j hj hmem := by
    obtain rfl | hmem := List.mem_cons.1 hmem
    · contradiction
    · exact h.kept j hj hmem

theorem consistent_record (h : Consistent nick a) {e : Effect} (he : e.neutral = true) :
    Consistent nick (a.record e) := ⟨h.1.neutral he, h.2⟩

theorem keeps_record {e : Effect} (he : e.neutral = true) (hline : e.ofLine = none) :
    Keeps nick a (a.record e) := by
  intro ha
  exact ⟨consistent_record ha he, orderly_of_ofLine hline⟩

theorem Keeps.trans {a b c : IrcAdapter} (hab : Keeps nick a b) (hbc : Keeps nick b c) :
    Keeps nick a c := by
  intro ha
  obtain ⟨hb, hab⟩ := hab ha
  obtain ⟨hc, hbc⟩ := hbc hb
  exact ⟨hc, hbc.trans hab⟩

theorem keeps_write (k : Nat) (lines : List JsString) : Keeps nick a (a.write k lines) := by
  induction lines generalizing a with
  | nil => exact fun ha => ⟨ha, Iff.rfl⟩
  | cons line lines ih =>
    have hwrite : a.write k (line :: lines) = (a.record (.wrote k line)).write k lines := by
      simp [IrcAdapter.write, IrcAdapter.record]
    rw [hwrite]
    exact (keeps_record rfl rfl).trans ih

theorem tiedTo_setSession_of_ne {s s' : Session} (hs : a.session k = some s) {j : Nat}
    (hjk : j ≠ k) (h : TiedTo a j) : TiedTo (a.setSession k s') j := by
  obtain ⟨t, hj, htied⟩ := h
  refine ⟨t, ?_, htied⟩
  rw [session_setSession hs, if_neg hjk.symm, hj]

/-- Changing a session but not whether its attempt has settled. -/
theorem keeps_setSession {s s' : Session} (hs : a.session k = some s)
    (hsettled : s'.settled = s.settled) : Keeps nick a (a.setSession k s') := by
  intro ⟨hf, ht⟩
  refine ⟨⟨⟨hf.held, hf.nick, fun j hj => ?_, hf.kept⟩, fun j hj => ?_⟩, Iff.rfl⟩
  · simpa [IrcAdapter.setSession] using hf.known j hj
  · obtain ⟨t, ht, hopen⟩ := ht j hj
    by_cases hkj : k = j
    · subst hkj
      obtain rfl := Option.some.inj (hs.symm.trans ht)
      exact ⟨s', by simp [session_setSession hs], by rw [hsettled]; exact hopen⟩
    · exact ⟨t, by simp [session_setSession hs, hkj, ht], hopen⟩

theorem faithful_rename (h : Faithful nick a) (k : Nat) (new : JsString) :
    Faithful nick (a.rename k new) := by
  unfold IrcAdapter.rename
  split
  · exact h
  · refine ⟨fun j => ?_, rfl, fun j hj => ?_, fun j hj hmem => ?_⟩
    · simpa [held_cons, Effect.opens, Effect.closes] using h.held j
    · exact h.known j (by simpa using hj)
    · exact h.kept j hj (by simpa using hmem)

theorem orderly_rename (h : Faithful nick a) (hk : a.socket = some k) (new : JsString) :
    Orderly (a.rename k new).log ↔ Orderly a.log := by
  unfold IrcAdapter.rename
  split
  · exact Iff.rfl
  · rw [orderly_cons]
    refine and_iff_right fun j hj => ?_
    obtain rfl := Option.some.inj hj
    exact ⟨(h.held k).2 hk, h.kept k hk⟩

/-- The held socket is let go. -/
theorem faithful_gone (h : Faithful nick a) (hk : a.socket = some k) {e : Effect}
    (he : e = .released k ∨ e = .disconnected k ∧ k < a.attempts.length) {connected : Bool}
    {connecting : Option Nat} :
    Faithful nick
      { a with
        socket := none, connected := connected, connecting := connecting, log := e :: a.log } := by
  refine ⟨fun j => ?_, ?_, fun j hj => ?_, by simp⟩
  · have hj := h.held j
    rw [hk] at hj
    rcases he with rfl | ⟨rfl, _⟩ <;> simp [held_cons, Effect.opens, Effect.closes, hj]
  · rcases he with rfl | ⟨rfl, _⟩ <;> exact h.nick
  · obtain rfl | hj := List.mem_cons.1 hj
    · rcases he with he | ⟨he, hlt⟩
      · cases he
      · cases he
        exact hlt
    · exact h.known j hj

theorem faithful_letGo (h : Faithful nick a) (k : Nat) : Faithful nick (a.letGo k) := by
  unfold IrcAdapter.letGo
  split
  · rename_i hk
    exact faithful_gone h hk (.inl rfl)
  · exact h

theorem letGo_socket {j : Nat} : (a.letGo k).socket = some j ↔ a.socket = some j ∧ j ≠ k := by
  unfold IrcAdapter.letGo
  split <;> grind

@[simp] theorem letGo_session (j : Nat) : (a.letGo k).session j = a.session j := by
  unfold IrcAdapter.letGo
  split <;> rfl

theorem tiedTo_letGo {j : Nat} (h : TiedTo a j) : TiedTo (a.letGo k) j := by
  unfold IrcAdapter.letGo
  split <;> exact h

theorem orderly_letGo : Orderly (a.letGo k).log ↔ Orderly a.log := by
  unfold IrcAdapter.letGo
  split
  · exact orderly_of_ofLine rfl
  · exact Iff.rfl

theorem tied_of_socket (h : a.socket = none) : Tied a := by
  intro j hj
  rw [h] at hj
  cases hj

theorem keeps_disconnect : Keeps nick a a.disconnect := by
  intro ⟨hf, ht⟩
  unfold IrcAdapter.disconnect
  cases hsocket : a.socket with
  | none =>
    refine ⟨⟨⟨fun j => ?_, hf.nick, hf.known, by simp⟩, tied_of_socket rfl⟩, Iff.rfl⟩
    rw [hf.held j, hsocket]
  | some k =>
    obtain ⟨s, hs, _⟩ := ht k hsocket
    have hafter : Consistent nick
        { a with
          socket := none, connected := false, connecting := none,
          log := .disconnected k :: a.log } :=
      ⟨faithful_gone hf hsocket (.inr ⟨rfl, lt_of_session hs⟩), tied_of_socket rfl⟩
    dsimp only
    split
    · exact ⟨hafter, orderly_of_ofLine rfl⟩
    · obtain ⟨hwrite, horderly⟩ := keeps_write k [js "QUIT :disconnecting"] hafter
      exact ⟨hwrite, horderly.trans (orderly_of_ofLine rfl)⟩

@[simp] theorem rename_socket (new : JsString) : (a.rename k new).socket = a.socket := by
  unfold IrcAdapter.rename
  split <;> rfl

@[simp] theorem rename_connected (new : JsString) :
    (a.rename k new).connected = a.connected := by
  unfold IrcAdapter.rename
  split <;> rfl

@[simp] theorem rename_connecting (new : JsString) :
    (a.rename k new).connecting = a.connecting := by
  unfold IrcAdapter.rename
  split <;> rfl

@[simp] theorem rename_session (new : JsString) (j : Nat) :
    (a.rename k new).session j = a.session j := by
  unfold IrcAdapter.rename
  split <;> rfl

theorem faithful_setSession (h : Faithful nick a) (s : Session) :
    Faithful nick (a.setSession k s) where
  held := h.held
  nick := h.nick
  known j hj := by simpa [IrcAdapter.setSession] using h.known j hj
  kept := h.kept

theorem faithful_complain (h : Faithful nick a) (text : JsString) :
    Faithful nick (a.complain text) := h.neutral rfl

theorem refused_consistent {s : Session} (hf : Faithful nick a) (hs : a.session k = some s)
    (ht : ∀ j, a.socket = some j → j ≠ k → TiedTo a j) (text : JsString) :
    Consistent nick ((((a.complain text).letGo k).setSession k { s with destroyed := true }).record
        (.answered k false)) ∧
      (Orderly ((((a.complain text).letGo k).setSession k { s with destroyed := true }).record
        (.answered k false)).log ↔ Orderly a.log) := by
  have hgone := faithful_letGo (faithful_complain hf text) k
  refine ⟨⟨(faithful_setSession hgone _).neutral rfl, fun j hj => ?_⟩,
    ((orderly_of_ofLine rfl).trans orderly_letGo).trans (orderly_of_ofLine rfl)⟩
  obtain ⟨hj, hjk⟩ := letGo_socket.1 hj
  have hsk : ((a.complain text).letGo k).session k = some s := (letGo_session k).trans hs
  have htied : TiedTo ((a.complain text).letGo k) j := tiedTo_letGo (ht j hj hjk)
  exact @tiedTo_setSession_of_ne _ k s { s with destroyed := true } hsk j hjk htied

/-- The settled attempt leaves the adapter connected over its socket, or without it. -/
theorem finishConnect_consistent {s : Session} (hf : Faithful nick a)
    (hs : a.session k = some s) (hsettled : s.settled = true)
    (ht : ∀ j, a.socket = some j → j ≠ k → TiedTo a j) (ok : Bool) (reason : Option JsString) :
    Consistent nick (a.finishConnect k s ok reason) ∧
      (Orderly (a.finishConnect k s ok reason).log ↔ Orderly a.log) := by
  unfold IrcAdapter.finishConnect
  split
  · rename_i hok
    have hup : Faithful nick { a with connected := true } := ⟨hf.held, hf.nick, hf.known, hf.kept⟩
    refine ⟨⟨(faithful_rename hup k _).neutral rfl, fun j hj => ?_⟩,
      (orderly_of_ofLine rfl).trans (orderly_rename hup hok.2 s.registration.nick)⟩
    obtain rfl : k = j := by simpa [hok.2] using hj
    refine ⟨s, ?_, fun _ => ?_, fun h => ?_⟩
    · rw [record_session, rename_session]
      exact hs
    · rw [record_connected, rename_connected]
    · rw [hsettled] at h
      contradiction
  · exact refused_consistent hf hs ht _

theorem keeps_settle {s : Session} (hs : a.session k = some s) (ok : Bool)
    (reason : Option JsString) : Keeps nick a (a.settle k s ok reason) := by
  intro ⟨hf, ht⟩
  unfold IrcAdapter.settle
  split
  · exact ⟨⟨hf, ht⟩, Iff.rfl⟩
  · have hsession := @session_setSession a k s { s with settled := true } hs
    exact finishConnect_consistent (faithful_setSession hf _) (by simp [hsession]) rfl
      (fun j hj hjk => tiedTo_setSession_of_ne hs hjk (ht j hj)) ok reason

theorem keeps_onClose {s : Session} (hs : a.session k = some s) :
    Keeps nick a (a.onClose k s) := by
  unfold IrcAdapter.onClose
  split
  · exact keeps_settle hs _ _
  · split
    · exact fun ha => ⟨ha, Iff.rfl⟩
    · rename_i hk
      intro ⟨hf, ht⟩
      have hgone := faithful_letGo (faithful_complain hf (js "the connection closed")) k
      refine ⟨⟨⟨hgone.held, hgone.nick, hgone.known, hgone.kept⟩, fun j hj => ?_⟩,
        orderly_letGo.trans (orderly_of_ofLine rfl)⟩
      obtain ⟨hj, hjk⟩ := letGo_socket.1 hj
      exact absurd (Option.some.inj (hj.symm.trans (Decidable.not_not.1 hk))) hjk

theorem keeps_onError {s : Session} (hs : a.session k = some s) (message : JsString) :
    Keeps nick a (a.onError k s message) := by
  unfold IrcAdapter.onError
  split
  · exact keeps_record rfl rfl
  · exact keeps_settle hs _ _

/-- A line that is acted on leaves one effect of its socket, a line that is not leaves none. -/
theorem onLine_consistent {m : CaseMapping} (ha : Consistent nick a) (k : Nat) (line : IrcLine)
    (raw : JsString) (now : JsNumber) :
    Consistent nick (a.onLine m k line raw now) ∧
      (Orderly (a.onLine m k line raw now).log ↔
        Orderly a.log ∧ (a.heeds m line = true → a.socket = some k)) := by
  have hof {e : Effect} (he : e.ofLine = some k) :
      Orderly (e :: a.log) ↔ Orderly a.log ∧ a.socket = some k := by
    rw [orderly_cons, he, and_comm]
    refine and_congr_right fun _ => ⟨fun h => (ha.1.held k).1 (h k rfl).1, fun h j hj => ?_⟩
    obtain rfl := Option.some.inj hj
    exact ⟨(ha.1.held k).2 h, ha.1.kept k h⟩
  unfold IrcAdapter.onLine IrcAdapter.heeds
  by_cases hown : a.isOwnNick m line = true
  · rw [if_pos hown, if_pos hown]
    cases hparam : line.params[0]? with
    | none => exact ⟨by simpa [IrcAdapter.rename] using ha, by simp [IrcAdapter.rename]⟩
    | some new =>
      refine ⟨⟨faithful_rename ha.1 k _, fun j hj => ?_⟩, ?_⟩
      · obtain ⟨s, hs, htied⟩ := ha.2 j (by simpa using hj)
        exact ⟨s, by simpa using hs, by simpa using htied⟩
      · by_cases hnew : new = a.nick
        · simp [IrcAdapter.rename, hnew]
        · simp only [IrcAdapter.rename, hnew, if_false, Option.getD_some]
          simpa [hnew] using @hof (.renamed k new) rfl
  · rw [if_neg hown, if_neg hown]
    have hcounted : Consistent nick { a with received := a.received + 1 } :=
      ⟨⟨ha.1.held, ha.1.nick, ha.1.known, ha.1.kept⟩, ha.2⟩
    by_cases hcommand : line.command = js "PRIVMSG"
    · rw [if_neg (not_not_intro hcommand)]
      simp only [privmsgToMessageEvent]
      rcases hmessage : visiblePrivmsg m line a.nick with _ | message
      · exact ⟨hcounted, by simp⟩
      · rcases hhandler : a.handler with _ | handler <;> rw [hhandler] at hcounted
        · exact ⟨hcounted, by simp⟩
        · simp only [Option.map_some, Option.isSome_some, Bool.and_self, true_imp_iff]
          exact ⟨consistent_record hcounted rfl, hof rfl⟩
    · rw [if_pos hcommand]
      exact ⟨ha, by simp [visiblePrivmsg, hcommand]⟩

variable {m : CaseMapping} {opts : IrcAdapterOptions}

theorem onRaw_consistent {s : Session} (ha : Consistent nick a) (hs : a.session k = some s)
    (raw : JsString) (now : JsNumber) :
    Consistent nick (a.onRaw m opts k s raw now) ∧
      (Orderly (a.onRaw m opts k s raw now).log ↔ Orderly a.log ∧
        ∀ line, parseIrcLine m raw = some line → s.settled = true → a.heeds m line = true →
          a.socket = some k) := by
  have hkeeps {a' : IrcAdapter} {P : Prop} (h : Keeps nick a a') (hP : P) :
      Consistent nick a' ∧ (Orderly a'.log ↔ Orderly a.log ∧ P) := by
    obtain ⟨ha', horderly⟩ := h ha
    exact ⟨ha', by simp [horderly, hP]⟩
  unfold IrcAdapter.onRaw
  cases hline : parseIrcLine m raw with
  | none => exact ⟨ha, by simp⟩
  | some line =>
    dsimp only
    split
    · rename_i hping
      refine hkeeps (keeps_write k _) fun line' hline' _ hheeds => ?_
      obtain rfl := Option.some.inj hline'
      have hnick : js "PING" ≠ js "NICK" := by decide
      have hprivmsg : js "PING" ≠ js "PRIVMSG" := by decide
      simp [IrcAdapter.heeds, IrcAdapter.isOwnNick, visiblePrivmsg, hping, hnick,
        hprivmsg] at hheeds
    · split
      · rename_i hsettled
        obtain ⟨hcons, horderly⟩ := onLine_consistent (m := m) ha k line raw now
        exact ⟨hcons, by simpa [hsettled] using horderly⟩
      · rename_i hsettled
        refine hkeeps ?_ fun _ _ h => absurd h hsettled
        generalize s.registration.onLine m _ line = progress
        have hset := @keeps_setSession nick a k s { s with registration := progress.after } hs rfl
        have hwrite := hset.trans (keeps_write k progress.writes)
        have hsession : ((a.setSession k { s with registration := progress.after }).write k
            progress.writes).session k = some { s with registration := progress.after } :=
          (session_setSession hs k).trans (if_pos rfl)
        split
        · exact hwrite
        · exact hwrite.trans (keeps_settle hsession true none)
        · exact hwrite.trans (keeps_settle hsession false _)

/-- A line read from a socket is acted on out of order exactly when it is not fenced. -/
theorem readLine_consistent {s : Session} (ha : Consistent nick a) (hs : a.session k = some s)
    {line rest : JsString} (hcut : cutAt lf s.buffered = some (line, rest)) (now : JsNumber) :
    Consistent nick (a.readLine m opts k s line rest now) ∧
      (Orderly (a.readLine m opts k s line rest now).log ↔
        Orderly a.log ∧ Fenced m a (.line k now)) := by
  have hfenced : Fenced m a (.line k now) ↔ ∀ l, s.nextLine m = some l → s.settled = true →
      a.heeds m l = true → a.socket = some k := by
    simp only [Fenced, hs, Option.some.injEq]
    grind
  obtain ⟨hset, horderly⟩ := @keeps_setSession nick a k s { s with buffered := rest } hs rfl ha
  simp only [Session.nextLine, hcut, Option.bind_some] at hfenced
  unfold IrcAdapter.readLine
  dsimp only
  split
  · rename_i hempty
    exact ⟨hset, by simp [horderly, hfenced, hempty]⟩
  · rename_i hempty
    have hsession : (a.setSession k { s with buffered := rest }).session k =
        some { s with buffered := rest } := by
      rw [session_setSession hs, if_pos rfl]
    obtain ⟨hcons, hraw⟩ := @onRaw_consistent _ _ k m opts _ hset hsession
      (IrcAdapter.withoutCr line) now
    refine ⟨hcons, hraw.trans ?_⟩
    rw [horderly, hfenced, if_neg hempty]
    exact Iff.rfl

theorem keeps_openSession (hsocket : a.socket = none) :
    Keeps nick a (a.openSession m opts) := by
  intro ⟨hf, ht⟩
  have hopened : Consistent nick { a with
      attempts := a.attempts ++
        [some { registration := .new m (IrcAdapter.registrationOptions opts) }]
      socket := some a.attempts.length
      connecting := some a.attempts.length
      log := .opened a.attempts.length :: a.log } := by
    refine ⟨⟨fun j => ?_, hf.nick, fun j hj => ?_, fun j hj hmem => ?_⟩, fun j hj => ?_⟩
    · have hnone : ¬Held j a.log := by simp [hf.held, hsocket]
      simp [held_cons, Effect.opens, hnone]
    · have := hf.known j (by simpa using hj)
      simp only [List.length_append, List.length_singleton]
      omega
    · obtain rfl := Option.some.inj hj
      exact absurd (hf.known _ (by simpa using hmem)) (Nat.lt_irrefl _)
    · obtain rfl := Option.some.inj hj
      exact ⟨{ registration := .new m (IrcAdapter.registrationOptions opts) },
        by simp [IrcAdapter.session], by simp, fun _ => rfl⟩
  obtain ⟨hwrite, horderly⟩ := keeps_write a.attempts.length
    ((Registration.new m (IrcAdapter.registrationOptions opts)).start
      (IrcAdapter.registrationOptions opts)) hopened
  exact ⟨hwrite, horderly.trans (orderly_of_ofLine rfl)⟩

/-- Without a connection or an attempt under way no socket is held. -/
theorem socket_of_idle (ht : Tied a) (hconnected : a.connected = false)
    (hconnecting : a.connecting = none) : a.socket = none := by
  cases hk : a.socket with
  | none => rfl
  | some k =>
    obtain ⟨s, _, hsettled, hopen⟩ := ht k hk
    cases hs : s.settled with
    | true => simp [hconnected] at hsettled; simp [hsettled] at hs
    | false => simp [hopen hs] at hconnecting

theorem keeps_connect (factory : Except JsString Unit) :
    Keeps nick a (a.connect m opts factory) := by
  intro ⟨hf, ht⟩
  unfold IrcAdapter.connect
  split
  · exact ⟨⟨hf, ht⟩, Iff.rfl⟩
  · rename_i hidle
    obtain ⟨hconnected, hconnecting⟩ : a.connected = false ∧ a.connecting = none := by
      simpa using hidle
    have hsocket : a.socket = none := socket_of_idle ht hconnected hconnecting
    cases factory with
    | ok => exact keeps_openSession hsocket ⟨hf, ht⟩
    | error message =>
      have hfailed : Consistent nick
          { a with attempts := a.attempts ++ [none], connecting := some a.attempts.length } := by
        refine ⟨⟨hf.held, hf.nick, fun j hj => ?_, hf.kept⟩, tied_of_socket hsocket⟩
        have := hf.known j hj
        simp only [List.length_append, List.length_singleton]
        omega
      refine ⟨consistent_record (consistent_record hfailed rfl) rfl, ?_⟩
      exact (orderly_of_ofLine rfl).trans (orderly_of_ofLine rfl)

theorem keeps_finished (hdone : a.attempts[k]?.any fun s => s.all (·.settled)) :
    Keeps nick a (if a.connecting = some k then { a with connecting := none } else a) := by
  intro ⟨hf, ht⟩
  split
  · rename_i hk
    refine ⟨⟨⟨hf.held, hf.nick, hf.known, hf.kept⟩, fun j hj => ?_⟩, Iff.rfl⟩
    obtain ⟨s, hs, hsettled, hopen⟩ := ht j hj
    refine ⟨s, hs, hsettled, fun hnot => ?_⟩
    obtain rfl : k = j := by
      have := (hopen hnot).symm.trans hk
      simpa using this.symm
    simp [IrcAdapter.session, Option.join_eq_some_iff] at hs
    simp [hs, hnot] at hdone
  · exact ⟨⟨hf, ht⟩, Iff.rfl⟩

theorem step_consistent {a' : IrcAdapter} (ha : Consistent nick a) {action : Action}
    (hstep : a.step m opts action = some a') :
    Consistent nick a' ∧ (Orderly a'.log ↔ Orderly a.log ∧ Fenced m a action) := by
  have hkeeps (h : Keeps nick a a') (hC : Fenced m a action) :
      Consistent nick a' ∧ (Orderly a'.log ↔ Orderly a.log ∧ Fenced m a action) := by
    obtain ⟨ha', horderly⟩ := h ha
    exact ⟨ha', by simp [horderly, hC]⟩
  cases IrcAdapter.steps_of_step hstep with
  | connect factory => exact hkeeps (keeps_connect factory) trivial
  | disconnect => exact hkeeps keeps_disconnect trivial
  | onInbound handler =>
    refine hkeeps (fun ha => ?_) trivial
    exact ⟨⟨⟨ha.1.held, ha.1.nick, ha.1.known, ha.1.kept⟩, ha.2⟩, Iff.rfl⟩
  | unsubscribe handler =>
    refine hkeeps ?_ trivial
    unfold IrcAdapter.unsubscribe
    split
    · exact fun ha => ⟨⟨⟨ha.1.held, ha.1.nick, ha.1.known, ha.1.kept⟩, ha.2⟩, Iff.rfl⟩
    · exact fun ha => ⟨ha, Iff.rfl⟩
  | finished hdone => exact hkeeps (keeps_finished hdone) trivial
  | data hs chunk => exact hkeeps (keeps_setSession hs rfl) trivial
  | line hs hcut now => exact readLine_consistent ha hs hcut now
  | error hs message => exact hkeeps (keeps_onError hs message) trivial
  | @close k s hs =>
    have hset := @keeps_setSession nick a k s { s with closed := true, destroyed := true } hs rfl
    exact hkeeps (hset.trans (keeps_onClose ((session_setSession hs k).trans (if_pos rfl)))) trivial
  | deadline hs reason => exact hkeeps (keeps_settle hs false _) trivial
  | destroy hs => exact hkeeps (keeps_setSession hs rfl) trivial

theorem consistent_new (opts : IrcAdapterOptions) : Consistent opts.nick (IrcAdapter.new opts) :=
  ⟨⟨by simp [IrcAdapter.new, Held], rfl, by simp [IrcAdapter.new], by simp [IrcAdapter.new]⟩,
    tied_of_socket rfl⟩

/-- In every run the log tells what is held and what the nick is, and sessions stay apart exactly
when no line of a socket that is not held was there to heed after its attempt had settled. -/
theorem sessions_apart_iff (m : CaseMapping) (opts : IrcAdapterOptions) (as : List Action)
    (a : IrcAdapter) (hrun : run (IrcAdapter.step m opts) (.new opts) as = some a) :
    (∀ k, Held k a.log ↔ a.socket = some k) ∧ a.nick = recorded opts.nick a.log ∧
      (Apart a.log ↔ Meets (IrcAdapter.step m opts) (Fenced m) (.new opts) as) := by
  have hcons : Consistent opts.nick a :=
    invariant (fun _ _ _ hs h => (step_consistent hs h).1) (consistent_new opts) hrun
  have hiff := holds_iff_meets (P := fun a => Orderly a.log) (C := Fenced m)
    (fun _ _ _ hs h => (step_consistent hs h).1) (fun _ _ _ hs h => (step_consistent hs h).2)
    (consistent_new opts) hrun
  have hnew : Orderly (IrcAdapter.new opts).log := trivial
  refine ⟨hcons.1.held, hcons.1.nick, fun h => (hiff.1 h.orderly).2,
    fun h => ⟨hiff.2 ⟨hnew, h⟩, ?_⟩⟩
  intro j k hj hk
  have hsame := ((hcons.1.held j).1 hj).symm.trans ((hcons.1.held k).1 hk)
  exact Option.some.inj hsame

/-- The adapter registers, hears a message, and hears another after `disconnect`. -/
def heardAfter (calls : List Action) : List Action :=
  [.connect (.ok ()), .data 0 (js ":server 001 bot :Welcome\n"), .line 0 (.ofInt 0), .finished 0,
    .onInbound 0] ++ calls ++ [.data 0 (js ":bob!u@h PRIVMSG bot :hi\n"), .line 0 (.ofInt 1)]

def bot : IrcAdapterOptions := { nick := js "bot" }

theorem sessions_apart_iff_connected :
    ∃ a, run (IrcAdapter.step asciiCase bot) (.new bot) (heardAfter []) = some a ∧
      (∀ k, Held k a.log ↔ a.socket = some k) ∧ a.nick = recorded bot.nick a.log ∧
      (Apart a.log ↔
        Meets (IrcAdapter.step asciiCase bot) (Fenced asciiCase) (.new bot) (heardAfter [])) := by
  have hsome : (run (IrcAdapter.step asciiCase bot) (.new bot) (heardAfter [])).isSome = true := by
    decide +kernel
  obtain ⟨a, hrun⟩ := Option.isSome_iff_exists.1 hsome
  exact ⟨a, hrun, sessions_apart_iff asciiCase bot (heardAfter []) a hrun⟩

/-- A message that a socket delivers after `disconnect` reaches the handler. -/
theorem given_up_socket_heard :
    ¬ ∀ (m : CaseMapping) (opts : IrcAdapterOptions) (as : List Action) (a : IrcAdapter),
      run (IrcAdapter.step m opts) (.new opts) as = some a → Apart a.log := by
  intro h
  have hline : ((run (IrcAdapter.step asciiCase bot) (.new bot) (heardAfter [.disconnect])).bind
      fun a => a.log.head?.bind Effect.ofLine) = some 0 := by decide +kernel
  have hheld : (run (IrcAdapter.step asciiCase bot) (.new bot) (heardAfter [.disconnect])).any
      (fun a => ¬Held 0 a.log.tail) = true := by decide +kernel
  obtain ⟨a, hrun, hline⟩ := Option.bind_eq_some_iff.1 hline
  have horderly := (h asciiCase bot _ a hrun).orderly
  rw [hrun] at hheld
  cases hlog : a.log with
  | nil => simp [hlog] at hline
  | cons e past =>
    rw [hlog] at horderly
    simp only [hlog, Option.any_some, List.tail_cons, decide_eq_true_eq] at hheld
    simp only [hlog, List.head?_cons, Option.bind_some] at hline
    exact hheld (horderly.1 0 hline).1

end TheokitGateways.Irc
