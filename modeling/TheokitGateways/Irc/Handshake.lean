import TheokitGateways.Irc.Registration

/-!
# What the handshake waits for

A handshake reads the server's lines up to its first outcome, in whatever order
they come. It goes by four facts: the nick was welcomed, SASL is done, how often
the nick was replaced, and which channels are still awaited. Each line changes one
of them at most, and none but its own numeric does.
-/

namespace TheokitGateways.Irc
open Js

/-- The machine, with the lines it has read and those it wrote in answer. -/
structure Handshake where
  machine : Registration
  heard : List IrcLine := []
  answers : List JsString := []
  outcome : Option RegistrationOutcome := none

section
variable (m : CaseMapping) (opts : RegistrationOptions)

def Handshake.new : Handshake := { machine := Registration.new m opts }

def Handshake.read (h : Handshake) (line : IrcLine) : Handshake :=
  if h.outcome.isSome then h
  else
    let progress := h.machine.onLine m opts line
    { machine := progress.after
      heard := h.heard ++ [line]
      answers := h.answers ++ progress.writes
      outcome := progress.outcome }

/-- The handshake after the lines up to the first outcome. -/
def Handshake.readAll (lines : List IrcLine) : Handshake :=
  lines.foldl (Handshake.read m opts) (Handshake.new m opts)

end

/-- The line is the command. -/
def isCommand (name line : JsString) : Bool := (name ++ js " ").isPrefixOf line

def Handshake.Heard (h : Handshake) (command : JsString) : Prop :=
  ∃ line ∈ h.heard, line.command = command

/-! ### One line -/

/-- A line that changes none of the facts the handshake goes by. -/
structure Idle (r : Registration) (p : Progress) : Prop where
  welcomed : p.after.welcomed = r.welcomed
  saslDone : p.after.saslDone = r.saslDone
  retries : p.after.retries = r.retries
  waitingFor : p.after.waitingFor = r.waitingFor
  joins : ∀ w ∈ p.writes, isCommand (js "JOIN") w = false
  nicks : ∀ w ∈ p.writes, isCommand (js "NICK") w = false
  outcome : ∀ nick, p.outcome ≠ some (.ok nick)

/-- What a line does. -/
inductive Reads (m : CaseMapping) (opts : RegistrationOptions) (r : Registration)
    (line : IrcLine) : Progress → Prop where
  | idle (p : Progress) (h : Idle r p) : Reads m opts r line p
  | authenticated (hcommand : line.command = js "903") :
    Reads m opts r line { after := { r with saslDone := true }, writes := [js "CAP END"] }
  | renamed (hwelcomed : r.welcomed = false) (hretries : r.retries < nickRetries)
    (nick : JsString) :
    Reads m opts r line
      { after := { r with retries := r.retries + 1, nick := nick }, writes := [js "NICK " ++ nick] }
  | welcomed (hcommand : line.command = js "001")
    (hsasl : opts.saslPassword.isSome = true → r.saslDone = true) (nick : JsString)
    (writes : List JsString) (outcome : Option RegistrationOutcome)
    (hnicks : ∀ w ∈ writes, isCommand (js "NICK") w = false)
    (houtcome : ∀ nick, outcome = some (.ok nick) → opts.channels = []) :
    Reads m opts r line ⟨{ r with welcomed := true, nick := nick }, writes, outcome⟩
  | named (hcommand : line.command = js "366") (waitingFor : List JsString)
    (hwaiting : waitingFor = r.waitingFor.filter (· ≠ ircLower m (line.param 1))) :
    Reads m opts r line
      { after := { r with waitingFor := waitingFor }
        outcome := Registration.joinedAll { r with waitingFor := waitingFor } }

variable {m : CaseMapping} {opts : RegistrationOptions} {r : Registration} {line : IrcLine}

theorem idle_refused (r : Registration) (reason : JsString) :
    Idle r { after := r, outcome := some (.refused reason) } :=
  ⟨rfl, rfl, rfl, rfl, by simp, by simp, by simp⟩

/-- Lines of other commands are written. -/
theorem idle_writes {writes : List JsString}
    (hjoins : ∀ w ∈ writes, isCommand (js "JOIN") w = false)
    (hnicks : ∀ w ∈ writes, isCommand (js "NICK") w = false) :
    Idle r { after := r, writes := writes } :=
  ⟨rfl, rfl, rfl, rfl, hjoins, hnicks, by simp⟩

theorem idle_nothing (r : Registration) : Idle r { after := r } := idle_writes (by simp) (by simp)

/-- What was offered is no fact the handshake goes by. -/
theorem Idle.of_offered {p : Progress} {offered : List JsString}
    (h : Idle { r with offered := offered } p) : Idle r p :=
  ⟨h.welcomed, h.saslDone, h.retries, h.waitingFor, h.joins, h.nicks, h.outcome⟩

theorem idle_onCap (r : Registration) (line : IrcLine) : Idle r (r.onCap line) := by
  unfold Registration.onCap
  dsimp only
  split
  · split
    · exact (idle_nothing _).of_offered
    · split
      · exact (idle_refused _ _).of_offered
      · exact (idle_writes (List.forall_mem_singleton.2 rfl)
          (List.forall_mem_singleton.2 rfl)).of_offered
  · split
    · exact idle_writes (List.forall_mem_singleton.2 rfl) (List.forall_mem_singleton.2 rfl)
    · split
      · exact idle_refused _ _
      · exact idle_nothing r

theorem isCommand_authenticate (payload : JsString) :
    isCommand (js "JOIN") (js "AUTHENTICATE " ++ payload) = false ∧
      isCommand (js "NICK") (js "AUTHENTICATE " ++ payload) = false :=
  ⟨rfl, rfl⟩

/-- The lines written in answer to `AUTHENTICATE +`. -/
theorem writes_onAuthenticate (h : line.params[0]? = some (js "+")) :
    (r.onAuthenticate opts line).writes =
      (authenticateChunks (credentials opts).length (credentials opts) ++
        if (credentials opts).length % authenticateChunk = 0 then [js "+"] else []).map
          (js "AUTHENTICATE " ++ ·) := by
  have hclosing (b : Prop) [Decidable b] : (if b then [js "+"] else []).map
      (js "AUTHENTICATE " ++ ·) = if b then [js "AUTHENTICATE +"] else [] := by
    split <;> rfl
  unfold Registration.onAuthenticate
  rw [if_neg (not_not_intro h), List.map_append, hclosing]

theorem idle_onAuthenticate (r : Registration) (line : IrcLine) :
    Idle r (r.onAuthenticate opts line) := by
  by_cases h : line.params[0]? = some (js "+")
  · have hwrites : (r.onAuthenticate opts line).writes = _ := writes_onAuthenticate h
    have hafter : r.onAuthenticate opts line =
        { after := r, writes := (r.onAuthenticate opts line).writes } := by
      unfold Registration.onAuthenticate
      rw [if_neg (not_not_intro h)]
    rw [hafter, hwrites]
    refine idle_writes (fun w hw => ?_) (fun w hw => ?_)
    · obtain ⟨payload, _, rfl⟩ := List.mem_map.1 hw
      exact (isCommand_authenticate payload).1
    · obtain ⟨payload, _, rfl⟩ := List.mem_map.1 hw
      exact (isCommand_authenticate payload).2
  · unfold Registration.onAuthenticate
    rw [if_pos h]
    exact idle_nothing r

theorem reads_onNickInUse (r : Registration) (line : IrcLine) :
    Reads m opts r line r.onNickInUse := by
  unfold Registration.onNickInUse
  split
  · exact .idle _ (idle_nothing r)
  · rename_i hwelcomed
    split
    · exact .idle _ (idle_refused r _)
    · rename_i hretries
      exact .renamed (Bool.eq_false_iff.2 hwelcomed) (Nat.lt_of_not_le hretries) _

theorem reads_onWelcome (r : Registration) (hcommand : line.command = js "001") :
    Reads m opts r line (r.onWelcome opts line) := by
  unfold Registration.onWelcome
  split
  · exact .idle _ (idle_refused r _)
  · rename_i hsasl
    have hdone : opts.saslPassword.isSome = true → r.saslDone = true := by
      intro hsome
      rw [← Bool.not_eq_false]
      exact fun hfalse => hsasl ⟨hsome, hfalse⟩
    dsimp only
    split
    · rename_i hnone
      exact .welcomed hcommand hdone _ _ _ (by simp)
        fun _ _ => List.eq_nil_of_length_eq_zero hnone
    · exact .welcomed hcommand hdone _ _ _ (List.forall_mem_singleton.2 rfl) (by simp)

theorem reads_onLine (r : Registration) (line : IrcLine) :
    Reads m opts r line (r.onLine m opts line) := by
  unfold Registration.onLine
  refine iteInduction (fun _ => .idle _ (idle_refused r _)) fun _ => ?_
  refine iteInduction (fun _ => .idle _ (idle_onCap r line)) fun _ => ?_
  refine iteInduction (fun _ => .idle _ (idle_onAuthenticate r line)) fun _ => ?_
  refine iteInduction (fun _ => .idle _ (idle_refused r _)) fun _ => ?_
  refine iteInduction (fun _ => .idle _ (idle_refused r _)) fun _ => ?_
  refine iteInduction (fun hcommand => .authenticated hcommand) fun _ => ?_
  refine iteInduction (fun _ => .idle _ (idle_refused r _)) fun _ => ?_
  refine iteInduction (fun _ => reads_onNickInUse r line) fun _ => ?_
  refine iteInduction (fun hcommand => reads_onWelcome r hcommand) fun _ => ?_
  exact iteInduction (fun hcommand => .named hcommand _ rfl) fun _ => .idle _ (idle_nothing r)

/-! ### Whole handshakes -/

/-- The facts the handshake goes by are what the lines it has heard say. -/
structure Kept (m : CaseMapping) (opts : RegistrationOptions) (h : Handshake) : Prop where
  welcomed : h.machine.welcomed = true →
    h.Heard (js "001") ∧ (opts.saslPassword.isSome = true → h.Heard (js "903"))
  saslDone : h.machine.saslDone = true → h.Heard (js "903")
  retries : h.machine.retries ≤ nickRetries
  nicks : (h.answers.filter (isCommand (js "NICK"))).length = h.machine.retries
  joins : ∀ w ∈ h.answers, isCommand (js "JOIN") w = true → h.machine.welcomed = true
  named : ∀ channel ∈ opts.channels, ircLower m channel ∈ h.machine.waitingFor ∨
    ∃ line ∈ h.heard, line.command = js "366" ∧
      ircLower m (line.param 1) = ircLower m channel
  succeeded : ∀ nick, h.outcome = some (.ok nick) →
    h.machine.welcomed = true ∧ (opts.channels = [] ∨ h.machine.waitingFor = [])

variable {h : Handshake}

theorem kept_new : Kept m opts (Handshake.new m opts) where
  welcomed hw := Bool.noConfusion hw
  saslDone hd := Bool.noConfusion hd
  retries := Nat.zero_le _
  nicks := rfl
  joins _ hw := nomatch hw
  named _ hc := .inl (List.mem_map_of_mem hc)
  succeeded _ ho := nomatch ho

/-- The handshake once the machine has read a line. -/
def Handshake.advance (h : Handshake) (line : IrcLine) (p : Progress) : Handshake where
  machine := p.after
  heard := h.heard ++ [line]
  answers := h.answers ++ p.writes
  outcome := p.outcome

theorem heard_advance {p : Progress} {command : JsString} (hheard : h.Heard command) :
    (h.advance line p).Heard command := by
  obtain ⟨heardLine, hmem, hcommand⟩ := hheard
  exact ⟨heardLine, List.mem_append_left _ hmem, hcommand⟩

theorem heard_self {p : Progress} {command : JsString} (hcommand : line.command = command) :
    (h.advance line p).Heard command :=
  ⟨line, List.mem_append_right _ List.mem_cons_self, hcommand⟩

theorem nicks_advance {p : Progress} (hnicks : ∀ w ∈ p.writes, isCommand (js "NICK") w = false) :
    ((h.advance line p).answers.filter (isCommand (js "NICK"))).length =
      (h.answers.filter (isCommand (js "NICK"))).length := by
  have hnone : p.writes.filter (isCommand (js "NICK")) = [] :=
    List.filter_eq_nil_iff.2 fun w hw => by simp [hnicks w hw]
  show ((h.answers ++ p.writes).filter _).length = _
  rw [List.filter_append, hnone, List.append_nil]

theorem joins_advance {p : Progress} (hkept : Kept m opts h)
    (hjoins : ∀ w ∈ p.writes, isCommand (js "JOIN") w = true → p.after.welcomed = true)
    (hwelcomed : h.machine.welcomed = true → p.after.welcomed = true) :
    ∀ w ∈ (h.advance line p).answers, isCommand (js "JOIN") w = true →
      (h.advance line p).machine.welcomed = true := by
  intro w hw hjoin
  rcases List.mem_append.1 hw with hw | hw
  · exact hwelcomed (hkept.joins w hw hjoin)
  · exact hjoins w hw hjoin

/-- A channel that is awaited, or whose names have ended. -/
theorem named_advance {p : Progress} (hkept : Kept m opts h)
    (hwaiting : p.after.waitingFor = h.machine.waitingFor) :
    ∀ channel ∈ opts.channels, ircLower m channel ∈ (h.advance line p).machine.waitingFor ∨
      ∃ line' ∈ (h.advance line p).heard, line'.command = js "366" ∧
        ircLower m (line'.param 1) = ircLower m channel := by
  intro channel hchannel
  obtain hwait | ⟨line', hmem, hended⟩ := hkept.named channel hchannel
  · exact .inl (hwaiting ▸ hwait)
  · exact .inr ⟨line', List.mem_append_left _ hmem, hended⟩

/-- Each line keeps the facts true. -/
theorem kept_advance {p : Progress} (hkept : Kept m opts h)
    (hreads : Reads m opts h.machine line p) : Kept m opts (h.advance line p) := by
  cases hreads with
  | idle _ hidle =>
    refine ⟨fun hw => ?_, fun hd => ?_, ?_, ?_, ?_, named_advance hkept hidle.waitingFor,
      fun nick ho => absurd ho (hidle.outcome nick)⟩
    · obtain ⟨hwelcome, hsasl⟩ := hkept.welcomed (hidle.welcomed ▸ hw)
      exact ⟨heard_advance hwelcome, fun hsome => heard_advance (hsasl hsome)⟩
    · exact heard_advance (hkept.saslDone (hidle.saslDone ▸ hd))
    · exact hidle.retries ▸ hkept.retries
    · rw [nicks_advance hidle.nicks, hkept.nicks]
      exact hidle.retries.symm
    · refine joins_advance hkept (fun w hw hjoin => ?_) fun hw => hidle.welcomed.trans hw
      rw [hidle.joins w hw] at hjoin
      cases hjoin
  | authenticated hcommand =>
    refine ⟨fun hw => ?_, fun _ => heard_self hcommand, hkept.retries, ?_, ?_,
      named_advance hkept rfl, fun _ ho => nomatch ho⟩
    · obtain ⟨hwelcome, hsasl⟩ := hkept.welcomed hw
      exact ⟨heard_advance hwelcome, fun hsome => heard_advance (hsasl hsome)⟩
    · have hcap : ∀ w ∈ [js "CAP END"], isCommand (js "NICK") w = false :=
        List.forall_mem_singleton.2 rfl
      exact (nicks_advance hcap).trans hkept.nicks
    · exact joins_advance hkept (List.forall_mem_singleton.2 fun hjoin => nomatch hjoin) id
  | renamed hwelcomed hretries nick =>
    refine ⟨fun hw => ?_, fun hd => heard_advance (hkept.saslDone hd), hretries, ?_, ?_,
      named_advance hkept rfl, fun _ ho => nomatch ho⟩
    · rw [show h.machine.welcomed = true from hw] at hwelcomed
      cases hwelcomed
    · show ((h.answers ++ [js "NICK " ++ nick]).filter _).length = h.machine.retries + 1
      rw [List.filter_append, List.length_append, hkept.nicks]
      rfl
    · exact joins_advance hkept (List.forall_mem_singleton.2 fun hjoin => nomatch hjoin) id
  | welcomed hcommand hsasl nick writes outcome hnicks houtcome =>
    refine ⟨fun _ => ⟨heard_self hcommand, fun hsome => ?_⟩,
      fun hd => heard_advance (hkept.saslDone hd), hkept.retries, ?_,
      joins_advance hkept (fun _ _ _ => rfl) fun _ => rfl, named_advance hkept rfl,
      fun nick ho => ⟨rfl, .inl (houtcome nick ho)⟩⟩
    · exact heard_advance (hkept.saslDone (hsasl hsome))
    · exact (nicks_advance hnicks).trans hkept.nicks
  | named hcommand waitingFor hwaiting =>
    refine ⟨fun hw => ?_, fun hd => heard_advance (hkept.saslDone hd), hkept.retries, ?_, ?_, ?_,
      fun nick ho => ?_⟩
    · obtain ⟨hwelcome, hsasl⟩ := hkept.welcomed hw
      exact ⟨heard_advance hwelcome, fun hsome => heard_advance (hsasl hsome)⟩
    · exact (nicks_advance (by simp)).trans hkept.nicks
    · exact joins_advance hkept (by simp) id
    · intro channel hchannel
      obtain hwait | ⟨line', hmem, hended⟩ := hkept.named channel hchannel
      · by_cases hsame : ircLower m channel = ircLower m (line.param 1)
        · exact .inr ⟨line, List.mem_append_right _ List.mem_cons_self, hcommand, hsame.symm⟩
        · refine .inl ?_
          show ircLower m channel ∈ waitingFor
          rw [hwaiting]
          exact List.mem_filter.2 ⟨hwait, by simpa using hsame⟩
      · exact .inr ⟨line', List.mem_append_left _ hmem, hended⟩
    · obtain ⟨hnot, _⟩ := Option.ite_none_left_eq_some.1 ho
      obtain ⟨hwelcomed, hempty⟩ := not_or.1 hnot
      exact ⟨eq_true_of_ne_false hwelcomed,
        .inr (List.eq_nil_of_length_eq_zero (Nat.eq_zero_of_not_pos hempty))⟩

theorem kept_read (hkept : Kept m opts h) (line : IrcLine) : Kept m opts (h.read m opts line) := by
  unfold Handshake.read
  split
  · exact hkept
  · exact kept_advance hkept (reads_onLine h.machine line)

theorem kept_readAll (lines : List IrcLine) : Kept m opts (Handshake.readAll m opts lines) := by
  have hfold (h : Handshake) (hkept : Kept m opts h) :
      Kept m opts (lines.foldl (Handshake.read m opts) h) := by
    induction lines generalizing h with
    | nil => exact hkept
    | cons line lines ih => exact ih _ (kept_read hkept line)
  exact hfold _ kept_new

/-! ### The credentials -/

theorem length_of_mem_authenticateChunks {fuel : Nat} {encoded chunk : JsString}
    (h : chunk ∈ authenticateChunks fuel encoded) : chunk.length ≤ authenticateChunk := by
  induction fuel generalizing encoded with
  | zero => cases h
  | succ fuel ih =>
    rw [authenticateChunks] at h
    split at h
    · cases h
    · rcases List.mem_cons.1 h with rfl | h
      · exact List.length_take_le _ _
      · exact ih h

theorem flatten_authenticateChunks {fuel : Nat} {encoded : JsString}
    (hfuel : encoded.length ≤ fuel) : (authenticateChunks fuel encoded).flatten = encoded := by
  induction fuel generalizing encoded with
  | zero =>
    obtain rfl := List.eq_nil_of_length_eq_zero (Nat.le_zero.1 hfuel)
    rfl
  | succ fuel ih =>
    rw [authenticateChunks]
    split
    · rename_i hnil
      rw [hnil]
      rfl
    · rename_i hne
      have hpos := List.length_pos_iff.2 hne
      have hchunk : authenticateChunk = 400 := rfl
      have hrest : (encoded.drop authenticateChunk).length ≤ fuel := by
        rw [List.length_drop]
        omega
      rw [List.flatten_cons, ih hrest, List.take_append_drop]

/-- Unless the text ends on a chunk boundary, the last chunk is a short one. -/
theorem last_authenticateChunks {fuel : Nat} {encoded : JsString} (hfuel : encoded.length ≤ fuel)
    (hmod : encoded.length % authenticateChunk ≠ 0) :
    ∃ front chunk, authenticateChunks fuel encoded = front ++ [chunk] ∧
      chunk.length < authenticateChunk := by
  induction fuel generalizing encoded with
  | zero =>
    rw [Nat.le_zero.1 hfuel] at hmod
    exact absurd rfl hmod
  | succ fuel ih =>
    have hne : encoded ≠ [] := by
      rintro rfl
      exact hmod rfl
    have hpos := List.length_pos_iff.2 hne
    rw [authenticateChunks, if_neg hne]
    rcases Nat.lt_or_ge encoded.length authenticateChunk with hlt | hge
    · have hrest : encoded.drop authenticateChunk = [] :=
        List.drop_eq_nil_of_le (Nat.le_of_lt hlt)
      refine ⟨[], encoded.take authenticateChunk, ?_, ?_⟩
      · rw [hrest]
        cases fuel <;> rfl
      · exact Nat.lt_of_le_of_lt (List.length_take_le' _ _) hlt
    · have hge' : 400 ≤ encoded.length := hge
      have hmod' : encoded.length % 400 ≠ 0 := hmod
      have hlength : (encoded.drop authenticateChunk).length = encoded.length - 400 :=
        List.length_drop
      have hrest : (encoded.drop authenticateChunk).length % 400 ≠ 0 := by omega
      obtain ⟨front, chunk, heq, hshort⟩ := ih (by omega) hrest
      exact ⟨_ :: front, chunk, by rw [heq]; rfl, hshort⟩

/-- The payloads of `AUTHENTICATE` are the chunks of the credentials and, unless the last of these
is a short one, the empty payload that closes them. -/
def Authenticates (opts : RegistrationOptions) (writes : List JsString) : Prop :=
  ∃ chunks closing : List JsString,
    writes = (chunks ++ closing).map (js "AUTHENTICATE " ++ ·) ∧
      (∀ payload ∈ chunks ++ closing, payload.length ≤ 400) ∧
      chunks.flatten = credentials opts ∧
      (closing = [js "+"] ∨
        closing = [] ∧ ∃ front chunk, chunks = front ++ [chunk] ∧ chunk.length < 400)

theorem authenticates_onLine (r : Registration) (hcommand : line.command = js "AUTHENTICATE")
    (hplus : line.params[0]? = some (js "+")) :
    Authenticates opts (r.onLine m opts line).writes := by
  have honLine : r.onLine m opts line = r.onAuthenticate opts line := by
    unfold Registration.onLine
    simp only [hcommand]
    rfl
  have hlength := Nat.le_refl (credentials opts).length
  rw [honLine, writes_onAuthenticate hplus]
  refine ⟨_, _, rfl, fun payload hpayload => ?_, flatten_authenticateChunks hlength, ?_⟩
  · rcases List.mem_append.1 hpayload with hpayload | hpayload
    · exact length_of_mem_authenticateChunks hpayload
    · split at hpayload
      · obtain rfl := List.mem_singleton.1 hpayload
        decide
      · cases hpayload
  · split
    · exact .inl rfl
    · rename_i hmod
      exact .inr ⟨rfl, last_authenticateChunks hlength hmod⟩

/-- What holds of a handshake up to its first outcome. -/
structure InOrder (m : CaseMapping) (opts : RegistrationOptions) (h : Handshake) : Prop where
  /-- Success and JOIN come after 001, and with a SASL password after 903. -/
  welcomed : ((∃ nick, h.outcome = some (.ok nick)) ∨
      ∃ w ∈ (Registration.new m opts).start opts ++ h.answers, isCommand (js "JOIN") w = true) →
    h.Heard (js "001") ∧ (opts.saslPassword.isSome = true → h.Heard (js "903"))
  /-- Success comes after the names of every channel. -/
  joined : (∃ nick, h.outcome = some (.ok nick)) → ∀ channel ∈ opts.channels,
    ∃ line ∈ h.heard, line.command = js "366" ∧ ircLower m (line.param 1) = ircLower m channel
  nicks : (h.answers.filter (isCommand (js "NICK"))).length ≤ 3
  authenticates : ∀ line : IrcLine, line.command = js "AUTHENTICATE" →
    line.params[0]? = some (js "+") →
      Authenticates opts (h.machine.onLine m opts line).writes

/-- The opening lines join no channel. -/
theorem isCommand_start {w : JsString} (hw : w ∈ r.start opts) :
    isCommand (js "JOIN") w = false := by
  unfold Registration.start at hw
  rcases List.mem_append.1 hw with hw | hw
  · rcases List.mem_append.1 hw with hw | hw
    · cases hpassword : opts.password with
      | none =>
        rw [hpassword] at hw
        cases hw
      | some password =>
        rw [hpassword] at hw
        obtain rfl := List.mem_singleton.1 hw
        rfl
    · split at hw
      · obtain rfl := List.mem_singleton.1 hw
        rfl
      · cases hw
  · rcases List.mem_cons.1 hw with rfl | hw
    · rfl
    · obtain rfl := List.mem_singleton.1 hw
      rfl

theorem inOrder_readAll (m : CaseMapping) (opts : RegistrationOptions) (lines : List IrcLine) :
    InOrder m opts (Handshake.readAll m opts lines) := by
  have hkept : Kept m opts (Handshake.readAll m opts lines) := kept_readAll lines
  refine ⟨?_, ?_, ?_, fun line hcommand hplus => authenticates_onLine _ hcommand hplus⟩
  · rintro (⟨nick, houtcome⟩ | ⟨w, hw, hjoin⟩)
    · exact hkept.welcomed (hkept.succeeded nick houtcome).1
    · rcases List.mem_append.1 hw with hw | hw
      · rw [isCommand_start hw] at hjoin
        cases hjoin
      · exact hkept.welcomed (hkept.joins w hw hjoin)
  · rintro ⟨nick, houtcome⟩ channel hchannel
    obtain hnone | hempty := (hkept.succeeded nick houtcome).2
    · rw [hnone] at hchannel
      cases hchannel
    · obtain hwait | hended := hkept.named channel hchannel
      · rw [hempty] at hwait
        cases hwait
      · exact hended
  · rw [hkept.nicks]
    exact hkept.retries

end TheokitGateways.Irc
