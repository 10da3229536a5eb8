import TheokitGateways.Irc.Options
import TheokitGateways.Irc.Sessions

/-!
# The lines the adapter writes

A line carries one command when it holds no line break and no NUL before its
CRLF. The options are checked by the constructor, a target and its text by
`sendMessage`, but what a PING asks to be answered with is written back as it
came. `EchoesClean` says of a step that what it echoes is clean, and
`uninjected_iff_meets` that this is all there is to it.
-/

namespace TheokitGateways.Irc
open Js Gateway Transition

/-- The adapter with what `sendMessage` has left of it and written. -/
structure Connection where
  adapter : IrcAdapter
  warnedAboutHtml : Bool := false
  /-- The payloads written, each with its target. -/
  payloads : List (JsString × JsString) := []

inductive Event where
  | adapter (action : Action)
  | send (out : OutboundMessage)

/-- The adapter is connected and holds a socket that is not destroyed. -/
def IrcAdapter.isWritable (a : IrcAdapter) : Bool :=
  a.connected && a.socket.any fun k => !a.isDestroyed k

/-- The payload a send writes, if it writes one. -/
def writtenPayload : Except Thrown SendStep → Option JsString
  | .ok (.writing payload) => some payload
  | .ok (.answered _) | .error _ => none

namespace Connection

section
variable (translate : JsString → Except Thrown JsString)

def send (c : Connection) (out : OutboundMessage) : Connection :=
  let sender := { writable := c.adapter.isWritable, warnedAboutHtml := c.warnedAboutHtml }
  let (sent, sender, _) := sendMessage translate sender out
  { c with
    warnedAboutHtml := sender.warnedAboutHtml
    payloads := c.payloads ++ ((writtenPayload sent).map (out.channel.id, ·)).toList }

variable (m : CaseMapping) (opts : IrcAdapterOptions)

def step (c : Connection) : Event → Option Connection
  | .adapter action => (c.adapter.step m opts action).map fun a => { c with adapter := a }
  | .send out => some (c.send translate out)

end

/-- The connection as constructed. -/
def new (opts : IrcAdapterOptions) : Connection := { adapter := .new opts }

end Connection

/-- The lines written one by one are clean. -/
def CleanLog (log : List Effect) : Prop := ∀ k line, Effect.wrote k line ∈ log → Clean line

/-- The payload is PRIVMSG lines to the target, each clean before its CRLF. -/
def CleanPayload (target payload : JsString) : Prop :=
  ∃ bodies : List JsString, payload = bodies.flatMap (command target) ∧
    ∀ body ∈ bodies, Clean (commandFront target ++ body)

/-- Every line written so far is clean. -/
structure Uninjected (c : Connection) : Prop where
  lines : CleanLog c.adapter.log
  payloads : ∀ p ∈ c.payloads, CleanPayload p.1 p.2

/-- What a PING asks to be answered with is clean. -/
def EchoesClean (m : CaseMapping) (a : IrcAdapter) : Action → Prop
  | .line k _ => ∀ s line, a.session k = some s → s.nextLine m = some line →
      line.command = js "PING" → Clean (line.param 0)
  | _ => True

def Connection.EchoesClean (m : CaseMapping) (c : Connection) : Event → Prop
  | .adapter action => Irc.EchoesClean m c.adapter action
  | .send _ => True

/-! ### The handshake -/

theorem isBreak_base64Unit (n : Nat) : isBreak (base64Unit n) = false := by
  have hlow : 0x20 < (base64Unit n).toNat := by
    unfold base64Unit
    split
    · simp; omega
    split
    · simp; omega
    split
    · simp; omega
    split <;> simp
  unfold isBreak
  have hne {d : UInt16} (hd : d.toNat ≤ 0x20) : base64Unit n ≠ d := by
    rintro rfl
    omega
  simp [hne (d := cr) (by decide), hne (d := lf) (by decide), hne (d := nul) (by decide)]

theorem clean_base64Encode (bytes : List UInt8) : Clean (base64Encode bytes) := by
  rw [clean_iff]
  have hpad : isBreak (unit '=') = false := rfl
  fun_induction base64Encode bytes with
  | case1 => simp
  | case2 a => simp [isBreak_base64Unit, hpad]
  | case3 a b => simp [isBreak_base64Unit, hpad]
  | case4 a b c rest ih =>
    rw [List.forall_mem_append]
    exact ⟨by simp [isBreak_base64Unit], ih⟩

theorem clean_authenticateChunks {fuel : Nat} {encoded : JsString} (h : Clean encoded) :
    ∀ chunk ∈ authenticateChunks fuel encoded, Clean chunk := by
  induction fuel generalizing encoded with
  | zero => simp [authenticateChunks]
  | succ fuel ih =>
    unfold authenticateChunks
    split
    · simp
    · rw [clean_iff] at h
      refine List.forall_mem_cons.2 ⟨?_, ih ?_⟩
      · exact clean_iff.2 fun c hc => h c (List.mem_of_mem_take hc)
      · exact clean_iff.2 fun c hc => h c (List.mem_of_mem_drop hc)

/-- A nick that may still be written is clean. -/
def NickClean (r : Registration) : Prop := r.welcomed = false → Clean r.nick

/-- What the machine writes is clean, and it keeps its nick so. -/
structure SpeaksClean (p : Progress) : Prop where
  writes : ∀ w ∈ p.writes, Clean w
  nick : NickClean p.after

variable {m : CaseMapping} {opts : RegistrationOptions} {r : Registration} {line : IrcLine}

theorem speaksClean_silent (hr : NickClean r) (outcome : Option RegistrationOutcome) :
    SpeaksClean { after := r, outcome := outcome } :=
  ⟨by simp, hr⟩

theorem speaksClean_constant (hr : NickClean r) {w : JsString} (hw : w.any isBreak = false) :
    SpeaksClean { after := r, writes := [w] } :=
  ⟨List.forall_mem_singleton.2 (clean_of_any hw), hr⟩

theorem speaksClean_onCap (hr : NickClean r) (line : IrcLine) : SpeaksClean (r.onCap line) := by
  unfold Registration.onCap
  dsimp only
  split
  · have hoffered (offered : List JsString) : NickClean { r with offered := offered } := hr
    split
    · exact speaksClean_silent (hoffered _) none
    split
    · exact speaksClean_silent (hoffered _) _
    · exact speaksClean_constant (hoffered _) (by decide)
  split
  · exact speaksClean_constant hr (by decide)
  split
  · exact speaksClean_silent hr _
  · exact speaksClean_silent hr none

theorem speaksClean_onAuthenticate (hr : NickClean r) (line : IrcLine) :
    SpeaksClean (r.onAuthenticate opts line) := by
  unfold Registration.onAuthenticate
  split
  · exact speaksClean_silent hr none
  · have hfront : Clean (js "AUTHENTICATE ") := clean_of_any rfl
    refine ⟨fun w hw => ?_, hr⟩
    rcases List.mem_append.1 hw with hw | hw
    · obtain ⟨chunk, hchunk, rfl⟩ := List.mem_map.1 hw
      exact clean_append.2 ⟨hfront,
        clean_authenticateChunks (clean_base64Encode _) chunk hchunk⟩
    · split at hw
      · obtain rfl := List.mem_singleton.1 hw
        exact clean_of_any rfl
      · cases hw

theorem speaksClean_onNickInUse (hr : NickClean r) : SpeaksClean r.onNickInUse := by
  unfold Registration.onNickInUse
  split
  · exact speaksClean_silent hr none
  rename_i hwelcomed
  split
  · exact speaksClean_silent hr _
  · have hnick : Clean (r.nick ++ js "_") :=
      clean_append.2 ⟨hr (Bool.eq_false_iff.2 hwelcomed), clean_of_any rfl⟩
    exact ⟨List.forall_mem_singleton.2 (clean_append.2 ⟨clean_of_any rfl, hnick⟩), fun _ => hnick⟩

theorem speaksClean_onWelcome (hopts : CleanOptions opts) (hr : NickClean r) (line : IrcLine) :
    SpeaksClean (r.onWelcome opts line) := by
  unfold Registration.onWelcome
  split
  · exact speaksClean_silent hr _
  have hwelcomed (nick : JsString) : NickClean { r with welcomed := true, nick := nick } :=
    Bool.noConfusion
  dsimp only
  split
  · exact speaksClean_silent (hwelcomed _) _
  · have hjoin : Clean (js "JOIN " ++ (js ",").intercalate opts.channels) :=
      clean_append.2 ⟨clean_of_any rfl, clean_intercalate (clean_of_any rfl) hopts.channels⟩
    exact ⟨List.forall_mem_singleton.2 hjoin, hwelcomed _⟩

/-- However the server words a line, what the handshake answers is clean. -/
theorem speaksClean_onLine (hopts : CleanOptions opts) (hr : NickClean r) (line : IrcLine) :
    SpeaksClean (r.onLine m opts line) := by
  unfold Registration.onLine
  refine iteInduction (fun _ => speaksClean_silent hr _) fun _ => ?_
  refine iteInduction (fun _ => speaksClean_onCap hr line) fun _ => ?_
  refine iteInduction (fun _ => speaksClean_onAuthenticate hr line) fun _ => ?_
  refine iteInduction (fun _ => speaksClean_silent hr _) fun _ => ?_
  refine iteInduction (fun _ => speaksClean_silent hr _) fun _ => ?_
  refine iteInduction (fun _ => ?_) fun _ => ?_
  · have hdone : NickClean { r with saslDone := true } := hr
    exact speaksClean_constant hdone (by decide)
  refine iteInduction (fun _ => speaksClean_silent hr _) fun _ => ?_
  refine iteInduction (fun _ => speaksClean_onNickInUse hr) fun _ => ?_
  refine iteInduction (fun _ => speaksClean_onWelcome hopts hr line) fun _ => ?_
  refine iteInduction (fun _ => ?_) fun _ => speaksClean_silent hr none
  have hnamed (waitingFor : List JsString) : NickClean { r with waitingFor := waitingFor } := hr
  exact speaksClean_silent (hnamed _) _

theorem clean_start (hopts : CleanOptions opts) :
    ∀ w ∈ (Registration.new m opts).start opts, Clean w := by
  intro w hw
  simp only [Registration.start, List.mem_append, List.mem_cons, List.not_mem_nil, or_false] at hw
  rcases hw with (hw | hw) | rfl | rfl
  · cases hpassword : opts.password with
    | none => rw [hpassword] at hw; cases hw
    | some password =>
      rw [hpassword] at hw
      obtain rfl := List.mem_singleton.1 hw
      exact clean_append.2 ⟨clean_of_any rfl, hopts.password password hpassword⟩
  · split at hw
    · obtain rfl := List.mem_singleton.1 hw
      exact clean_of_any rfl
    · cases hw
  · exact clean_append.2 ⟨clean_of_any rfl, hopts.nick⟩
  · exact clean_append.2 ⟨clean_append.2 ⟨clean_append.2 ⟨clean_of_any rfl, hopts.username⟩,
      clean_of_any rfl⟩, hopts.realname⟩

/-! ### The adapter's own steps -/

/-- No attempt will write a nick that is not clean. -/
def NicksClean (a : IrcAdapter) : Prop :=
  ∀ k s, a.session k = some s → NickClean s.registration

/-- What was done wrote nothing that is not clean. -/
structure StaysClean (a a' : IrcAdapter) : Prop where
  lines : CleanLog a'.log ↔ CleanLog a.log
  nicks : NicksClean a → NicksClean a'

variable {a : IrcAdapter} {k : Nat}

theorem cleanLog_cons {e : Effect} (he : ∀ k line, e ≠ .wrote k line) {log : List Effect} :
    CleanLog (e :: log) ↔ CleanLog log := by
  constructor
  · intro h k line hline
    exact h k line (List.mem_cons_of_mem _ hline)
  · intro h k line hline
    rcases List.mem_cons.1 hline with heq | hline
    · exact absurd heq.symm (he k line)
    · exact h k line hline

theorem cleanLog_write (a : IrcAdapter) (k : Nat) (lines : List JsString) :
    CleanLog (a.write k lines).log ↔ CleanLog a.log ∧ ∀ line ∈ lines, Clean line := by
  have hmem (j : Nat) (line : JsString) : Effect.wrote j line ∈ (a.write k lines).log ↔
      line ∈ lines ∧ k = j ∨ Effect.wrote j line ∈ a.log := by
    simp only [IrcAdapter.write, List.mem_append, List.mem_reverse, List.mem_map,
      Effect.wrote.injEq]
    grind
  constructor
  · intro h
    constructor
    · intro j line hline
      exact h j line ((hmem j line).2 (.inr hline))
    · intro line hline
      exact h k line ((hmem k line).2 (.inl ⟨hline, rfl⟩))
  · rintro ⟨hlog, hlines⟩ j line hline
    rcases (hmem j line).1 hline with ⟨hline, _⟩ | hline
    · exact hlines line hline
    · exact hlog j line hline

theorem StaysClean.trans {a b c : IrcAdapter} (hab : StaysClean a b) (hbc : StaysClean b c) :
    StaysClean a c :=
  ⟨hbc.lines.trans hab.lines, fun h => hbc.nicks (hab.nicks h)⟩

theorem staysClean_refl (a : IrcAdapter) : StaysClean a a := ⟨Iff.rfl, id⟩

theorem staysClean_record {e : Effect} (he : ∀ k line, e ≠ .wrote k line) :
    StaysClean a (a.record e) := ⟨cleanLog_cons he, id⟩

theorem staysClean_complain (text : JsString) : StaysClean a (a.complain text) :=
  staysClean_record (by simp)

theorem staysClean_write {lines : List JsString} (h : ∀ line ∈ lines, Clean line) :
    StaysClean a (a.write k lines) := by
  refine ⟨?_, id⟩
  rw [cleanLog_write]
  exact and_iff_left h

theorem staysClean_setSession {s : Session} (hs : NickClean s.registration) :
    StaysClean a (a.setSession k s) := by
  refine ⟨Iff.rfl, fun h j t ht => ?_⟩
  have hset : t = s ∨ a.session j = some t := by
    simp only [IrcAdapter.session, IrcAdapter.setSession, List.getElem?_set] at ht ⊢
    grind
  rcases hset with rfl | ht
  · exact hs
  · exact h j t ht

theorem staysClean_rename (nick : JsString) : StaysClean a (a.rename k nick) := by
  unfold IrcAdapter.rename
  split
  · exact staysClean_refl a
  · exact ⟨cleanLog_cons (by simp), id⟩

theorem staysClean_letGo : StaysClean a (a.letGo k) := by
  unfold IrcAdapter.letGo
  split
  · exact ⟨cleanLog_cons (by simp), id⟩
  · exact staysClean_refl a

theorem staysClean_finishConnect {s : Session} (hs : NickClean s.registration) (ok : Bool)
    (reason : Option JsString) : StaysClean a (a.finishConnect k s ok reason) := by
  unfold IrcAdapter.finishConnect
  split
  · have hconnected : StaysClean a { a with connected := true } := ⟨Iff.rfl, id⟩
    exact (hconnected.trans (staysClean_rename _)).trans (staysClean_record (by simp))
  · have hdestroyed : NickClean { s with destroyed := true }.registration := hs
    exact (((staysClean_complain _).trans staysClean_letGo).trans
      (staysClean_setSession hdestroyed)).trans (staysClean_record (by simp))

theorem staysClean_settle {s : Session} (hs : NickClean s.registration) (ok : Bool)
    (reason : Option JsString) : StaysClean a (a.settle k s ok reason) := by
  unfold IrcAdapter.settle
  split
  · exact staysClean_refl a
  · have hsettled : NickClean { s with settled := true }.registration := hs
    exact (staysClean_setSession hsettled).trans (staysClean_finishConnect hsettled ok reason)

theorem staysClean_onClose {s : Session} (hs : NickClean s.registration) :
    StaysClean a (a.onClose k s) := by
  unfold IrcAdapter.onClose
  split
  · exact staysClean_settle hs _ _
  split
  · exact staysClean_refl a
  · have hgone := (staysClean_complain (a := a) (js "the connection closed")).trans
      (staysClean_letGo (k := k))
    exact ⟨hgone.lines, hgone.nicks⟩

theorem staysClean_onError {s : Session} (hs : NickClean s.registration) (message : JsString) :
    StaysClean a (a.onError k s message) := by
  unfold IrcAdapter.onError
  split
  · exact staysClean_complain _
  · exact staysClean_settle hs _ _

theorem staysClean_disconnect : StaysClean a a.disconnect := by
  unfold IrcAdapter.disconnect
  cases a.socket with
  | none => exact ⟨Iff.rfl, id⟩
  | some k =>
    have hafter : StaysClean a
        { a with
          socket := none, connected := false, connecting := none
          log := .disconnected k :: a.log } := ⟨cleanLog_cons (by simp), id⟩
    dsimp only
    split
    · exact hafter
    · exact hafter.trans (staysClean_write (List.forall_mem_singleton.2 (clean_of_any rfl)))

theorem staysClean_onLine (line : IrcLine) (raw : JsString) (now : JsNumber) :
    StaysClean a (a.onLine m k line raw now) := by
  unfold IrcAdapter.onLine
  split
  · exact staysClean_rename _
  split
  · exact staysClean_refl a
  · have hcounted : StaysClean a { a with received := a.received + 1 } := ⟨Iff.rfl, id⟩
    dsimp only
    split
    · exact hcounted.trans (staysClean_record (by simp))
    · exact hcounted

/-! ### The step, and runs -/

section
variable {opts : IrcAdapterOptions} (hopts : CleanOptions (IrcAdapter.registrationOptions opts))
include hopts

theorem staysClean_handshake {s : Session} (hs : NickClean s.registration) (line : IrcLine) :
    StaysClean a
      ((a.setSession k { s with registration :=
          (s.registration.onLine m (IrcAdapter.registrationOptions opts) line).after }).write k
        (s.registration.onLine m (IrcAdapter.registrationOptions opts) line).writes) := by
  have hspeaks := speaksClean_onLine (m := m) hopts hs line
  exact (staysClean_setSession hspeaks.nick).trans (staysClean_write hspeaks.writes)

/-- Of the lines of the server only a PING is echoed. -/
theorem onRaw_clean {s : Session} (ha : NicksClean a) (hs : NickClean s.registration)
    (raw : JsString) (now : JsNumber) :
    NicksClean (a.onRaw m opts k s raw now) ∧
      (CleanLog (a.onRaw m opts k s raw now).log ↔ CleanLog a.log ∧
        ∀ line, parseIrcLine m raw = some line → line.command = js "PING" →
          Clean (line.param 0)) := by
  have hstays {a' : IrcAdapter} {P : Prop} (h : StaysClean a a') (hP : P) :
      NicksClean a' ∧ (CleanLog a'.log ↔ CleanLog a.log ∧ P) :=
    ⟨h.nicks ha, h.lines.trans (and_iff_left hP).symm⟩
  unfold IrcAdapter.onRaw
  cases hline : parseIrcLine m raw with
  | none => exact hstays (staysClean_refl a) (by simp)
  | some line =>
    dsimp only
    split
    · rename_i hping
      refine ⟨ha, (cleanLog_write a k _).trans (and_congr_right fun _ => ?_)⟩
      rw [List.forall_mem_singleton, clean_append]
      constructor
      · rintro ⟨_, hparam⟩ line' hline' _
        obtain rfl := Option.some.inj hline'
        exact hparam
      · intro h
        exact ⟨clean_of_any rfl, h line rfl hping⟩
    · rename_i hping
      refine hstays ?_ fun line' hline' hping' => ?_
      · split
        · exact staysClean_onLine line raw now
        · have hhandshake := staysClean_handshake (m := m) (a := a) (k := k) hopts hs line
          have hspeaks := speaksClean_onLine (m := m) hopts hs line
          split
          · exact hhandshake
          · exact hhandshake.trans (staysClean_settle hspeaks.nick _ _)
          · exact hhandshake.trans (staysClean_settle hspeaks.nick _ _)
      · obtain rfl := Option.some.inj hline'
        exact absurd hping' hping

theorem readLine_clean {s : Session} (ha : NicksClean a) (hs : a.session k = some s)
    {line rest : JsString} (hcut : cutAt lf s.buffered = some (line, rest)) (now : JsNumber) :
    NicksClean (a.readLine m opts k s line rest now) ∧
      (CleanLog (a.readLine m opts k s line rest now).log ↔
        CleanLog a.log ∧ EchoesClean m a (.line k now)) := by
  have hechoes : EchoesClean m a (.line k now) ↔ ∀ l, s.nextLine m = some l →
      l.command = js "PING" → Clean (l.param 0) := by
    simp only [EchoesClean, hs, Option.some.injEq]
    grind
  have hnick : NickClean { s with buffered := rest }.registration := ha k s hs
  have hset : StaysClean a (a.setSession k { s with buffered := rest }) :=
    staysClean_setSession hnick
  simp only [Session.nextLine, hcut, Option.bind_some] at hechoes
  unfold IrcAdapter.readLine
  dsimp only
  split
  · rename_i hempty
    exact ⟨hset.nicks ha, by simp [hset.lines, hechoes, hempty]⟩
  · rename_i hempty
    obtain ⟨hnicks, hlog⟩ := onRaw_clean (m := m) (k := k) hopts (hset.nicks ha) hnick
      (IrcAdapter.withoutCr line) now
    refine ⟨hnicks, hlog.trans ?_⟩
    rw [hset.lines, hechoes, if_neg hempty]

theorem staysClean_openSession : StaysClean a (a.openSession m opts) := by
  have hopened : StaysClean a
      { a with
        attempts := a.attempts ++
          [some { registration := .new m (IrcAdapter.registrationOptions opts) }]
        socket := some a.attempts.length
        connecting := some a.attempts.length
        log := .opened a.attempts.length :: a.log } := by
    refine ⟨cleanLog_cons (by simp), fun h j s hs => ?_⟩
    rcases Nat.lt_or_ge j a.attempts.length with hlt | hge
    · refine h j s ?_
      rw [← hs]
      simp only [IrcAdapter.session, List.getElem?_append_left hlt]
    · simp only [IrcAdapter.session, List.getElem?_append_right hge] at hs
      cases hj : j - a.attempts.length with
      | zero =>
        rw [hj] at hs
        cases hs
        exact fun _ => hopts.nick
      | succ n => simp [hj] at hs
  exact hopened.trans (staysClean_write (clean_start hopts))

theorem staysClean_connect (factory : Except JsString Unit) :
    StaysClean a (a.connect m opts factory) := by
  unfold IrcAdapter.connect
  split
  · exact staysClean_refl a
  · cases factory with
    | ok => exact staysClean_openSession hopts
    | error message =>
      have hfailed : StaysClean a
          { a with attempts := a.attempts ++ [none], connecting := some a.attempts.length } := by
        refine ⟨Iff.rfl, fun h j s hs => h j s ?_⟩
        simp only [IrcAdapter.session] at hs ⊢
        grind
      exact (hfailed.trans (staysClean_complain _)).trans (staysClean_record (by simp))

/-- A step keeps the written lines clean exactly when what it echoes is clean. -/
theorem step_clean (ha : NicksClean a) {action : Action} {a' : IrcAdapter}
    (hstep : a.step m opts action = some a') :
    NicksClean a' ∧ (CleanLog a'.log ↔ CleanLog a.log ∧ EchoesClean m a action) := by
  have hstays (h : StaysClean a a') (hC : EchoesClean m a action) :
      NicksClean a' ∧ (CleanLog a'.log ↔ CleanLog a.log ∧ EchoesClean m a action) :=
    ⟨h.nicks ha, h.lines.trans (and_iff_left hC).symm⟩
  cases IrcAdapter.steps_of_step hstep with
  | connect factory => exact hstays (staysClean_connect hopts factory) trivial
  | disconnect => exact hstays staysClean_disconnect trivial
  | onInbound handler => exact hstays ⟨Iff.rfl, id⟩ trivial
  | unsubscribe handler =>
    refine hstays ?_ trivial
    unfold IrcAdapter.unsubscribe
    split
    · exact ⟨Iff.rfl, id⟩
    · exact staysClean_refl a
  | finished hdone =>
    refine hstays ?_ trivial
    split
    · exact ⟨Iff.rfl, id⟩
    · exact staysClean_refl a
  | data hs chunk =>
    have hnick := ha _ _ hs
    exact hstays (staysClean_setSession hnick) trivial
  | line hs hcut now => exact readLine_clean hopts ha hs hcut now
  | error hs message => exact hstays (staysClean_onError (ha _ _ hs) message) trivial
  | @close k s hs =>
    have hclosed : NickClean { s with closed := true, destroyed := true }.registration := ha k s hs
    exact hstays ((staysClean_setSession hclosed).trans (staysClean_onClose hclosed)) trivial
  | deadline hs reason => exact hstays (staysClean_settle (ha _ _ hs) _ _) trivial
  | destroy hs =>
    have hnick := ha _ _ hs
    exact hstays (staysClean_setSession hnick) trivial

end

/-- What is sent is clean: the target by its own check, the bodies by `splitForIrc`. -/
theorem cleanPayload_of_writing {translate : JsString → Except Thrown JsString} {sender : Sender}
    {out : OutboundMessage} {payload : JsString}
    (h : (sendMessage translate sender out).1 = .ok (.writing payload)) :
    CleanPayload out.channel.id payload := by
  simp only [sendMessage] at h
  split at h
  · cases h
  split at h
  · cases h
  rename_i hchecks
  split at h
  · cases h
  obtain ⟨text, bodies, _, rfl, hbodies⟩ := framed_eq_writing h
  have htarget : Clean out.channel.id :=
    clean_of_checks isSpace_of_isTarget (Bool.eq_false_iff.2 hchecks)
  have hfront : Clean (commandFront out.channel.id) :=
    clean_append.2 ⟨clean_append.2 ⟨clean_of_any rfl, htarget⟩, clean_of_any rfl⟩
  refine ⟨bodies, rfl, fun body hbody => ?_⟩
  obtain ⟨_, hnul, hlf, hcr⟩ := hbodies.visible body hbody
  exact clean_append.2 ⟨hfront, hcr, hlf, hnul⟩

variable {opts : IrcAdapterOptions} {translate : JsString → Except Thrown JsString}
  {c : Connection}

theorem writtenPayload_eq_some {sent : Except Thrown SendStep} {payload : JsString}
    (h : writtenPayload sent = some payload) : sent = .ok (.writing payload) := by
  rcases sent with e | result | text
  · cases h
  · cases h
  · rw [Option.some.inj h]

theorem uninjected_send (out : OutboundMessage) :
    Uninjected (c.send translate out) ↔ Uninjected c := by
  have hsent (sender : Sender) : ∀ p ∈ ((writtenPayload (sendMessage translate sender out).1).map
      (out.channel.id, ·)).toList, CleanPayload p.1 p.2 := by
    intro p hp
    obtain ⟨payload, hpayload, rfl⟩ := Option.map_eq_some_iff.1 (Option.mem_toList.1 hp)
    exact cleanPayload_of_writing (writtenPayload_eq_some hpayload)
  constructor
  · intro h
    exact ⟨h.lines, fun p hp => h.payloads p (List.mem_append_left _ hp)⟩
  · intro h
    exact ⟨h.lines, List.forall_mem_append.2 ⟨h.payloads, hsent _⟩⟩

theorem connection_step_clean (hopts : CleanOptions (IrcAdapter.registrationOptions opts))
    (hc : NicksClean c.adapter) {event : Event} {c' : Connection}
    (hstep : c.step translate m opts event = some c') :
    NicksClean c'.adapter ∧ (Uninjected c' ↔ Uninjected c ∧ c.EchoesClean m event) := by
  cases event with
  | adapter action =>
    obtain ⟨a, ha, rfl⟩ := Option.map_eq_some_iff.1 hstep
    obtain ⟨hnicks, hlog⟩ := step_clean hopts hc ha
    refine ⟨hnicks, ?_⟩
    constructor
    · intro h
      obtain ⟨hlines, hechoes⟩ := hlog.1 h.lines
      exact ⟨⟨hlines, h.payloads⟩, hechoes⟩
    · rintro ⟨h, hechoes⟩
      exact ⟨hlog.2 ⟨h.lines, hechoes⟩, h.payloads⟩
  | send out =>
    cases hstep
    exact ⟨hc, (uninjected_send out).trans (and_iff_left trivial).symm⟩

/-- With options the constructor accepts, no line written in a run carries a second command
exactly when no PING asked it to. -/
theorem uninjected_iff_meets (m : CaseMapping) (translate : JsString → Except Thrown JsString)
    (host : JsString) (opts : IrcAdapterOptions) (haccepted : validateOptions host opts = .ok ())
    (events : List Event) (c : Connection)
    (hrun : run (Connection.step translate m opts) (.new opts) events = some c) :
    Uninjected c ↔
      Meets (Connection.step translate m opts) (Connection.EchoesClean m) (.new opts) events := by
  have hopts := cleanOptions_of_validateOptions haccepted
  have hnew : NicksClean (Connection.new opts).adapter := fun k s hs => by
    simp [Connection.new, IrcAdapter.new, IrcAdapter.session] at hs
  have hclean : Uninjected (.new opts) :=
    ⟨by simp [CleanLog, Connection.new, IrcAdapter.new], by simp [Connection.new]⟩
  have hiff := holds_iff_meets (I := fun c => NicksClean c.adapter)
    (fun _ _ _ hc hstep => (connection_step_clean hopts hc hstep).1)
    (fun _ _ _ hc hstep => (connection_step_clean hopts hc hstep).2) hnew hrun
  exact hiff.trans (and_iff_right hclean)

/-- An adapter for one channel. -/
def inChannel : IrcAdapterOptions := { nick := js "bot", channels := [js "#theokit"] }

/-- It connects, is asked for a PONG, registers, and sends a message. -/
def pinged (line : JsString) : List Event :=
  [.adapter (.connect (.ok ())),
    .adapter (.data 0 (line ++ js "\r\n")), .adapter (.line 0 (.ofInt 0)),
    .adapter (.data 0 (js ":server 001 bot :Welcome\r\n:server 366 bot #theokit :End\r\n")),
    .adapter (.line 0 (.ofInt 1)), .adapter (.line 0 (.ofInt 2)),
    .send { channel := { id := js "#theokit", type := .group }, text := js "hi\r\nthere" }]

theorem uninjected_iff_meets_pinged :
    ∃ c, run (Connection.step .ok asciiCase inChannel) (.new inChannel) (pinged (js "PING :a")) =
        some c ∧
      (Uninjected c ↔ Meets (Connection.step .ok asciiCase inChannel)
        (Connection.EchoesClean asciiCase) (.new inChannel) (pinged (js "PING :a"))) := by
  have hsome : (run (Connection.step .ok asciiCase inChannel) (.new inChannel)
      (pinged (js "PING :a"))).isSome = true := by decide +kernel
  obtain ⟨c, hrun⟩ := Option.isSome_iff_exists.1 hsome
  exact ⟨c, hrun, uninjected_iff_meets asciiCase .ok (js "irc.example") inChannel rfl _
    c hrun⟩

/-- The effect is a line with a line break or NUL in it. -/
def Effect.breaks : Effect → Bool
  | .wrote _ line => line.any isBreak
  | _ => false

/-- A PING with a CR inside it is answered with a second command. -/
theorem ping_carries_command :
    ¬ ∀ (m : CaseMapping) (translate : JsString → Except Thrown JsString) (host : JsString)
      (opts : IrcAdapterOptions) (events : List Event) (c : Connection),
      validateOptions host opts = .ok () →
      run (Connection.step translate m opts) (.new opts) events = some c → Uninjected c := by
  intro h
  have hbreaks : (run (Connection.step .ok asciiCase inChannel) (.new inChannel)
      (pinged (js "PING :a\rQUIT"))).any (fun c => c.adapter.log.any Effect.breaks) = true := by
    decide +kernel
  obtain ⟨c, hrun, hbreaks⟩ := (Option.any_eq_true _ _).1 hbreaks
  obtain ⟨e, he, hbreak⟩ := List.any_eq_true.1 hbreaks
  have huninjected := h asciiCase .ok (js "irc.example") inChannel _ c rfl hrun
  cases e with
  | wrote k line =>
    obtain ⟨u, hu, hunit⟩ := List.any_eq_true.1 hbreak
    rw [clean_iff.1 (huninjected.lines k line he) u hu] at hunit
    cases hunit
  | _ => cases hbreak

end TheokitGateways.Irc
