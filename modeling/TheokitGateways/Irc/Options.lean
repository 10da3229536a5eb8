import TheokitGateways.Irc.Adapter
import TheokitGateways.Irc.Send

/-!
# The options the constructor accepts

A line break or NUL in an option would let it carry a second command, so
`validateOptions` throws on one in any text that goes into a line as it stands.
-/

namespace TheokitGateways.Irc
open Js

/-- One unit of `/[\r\n\0]/`. -/
def isBreak (c : UInt16) : Bool := c = cr || c = lf || c = nul

/-- Holds no line break and no NUL. -/
def Clean (line : JsString) : Prop := cr ∉ line ∧ lf ∉ line ∧ nul ∉ line

/-- `NICK.test(nick)`, for the pattern `/^[^\s:#&!@,][^\s!@,]*$/`. -/
def isNick : JsString → Bool
  | [] => false
  | c :: rest =>
    !(isSpace c || (js ":#&!@,").contains c) &&
      rest.all fun c => !(isSpace c || (js "!@,").contains c)

/-- `CHANNEL.test(channel)`, for the pattern `/^[#&][^\s,]+$/`. -/
def isChannel : JsString → Bool
  | c :: d :: rest =>
    (c = unit '#' || c = unit '&') && (d :: rest).all fun c => !(isSpace c || c = unit ',')
  | _ => false

/-- The fields that go into a line, by name. -/
def lineFields (opts : IrcAdapterOptions) : List (JsString × Option JsString) :=
  [(js "password", opts.password), (js "saslAccount", opts.saslAccount),
    (js "saslPassword", opts.saslPassword), (js "realname", opts.realname),
    (js "username", opts.username)]

/-- Throw on any option the server would refuse, or that could carry a second command. -/
def validateOptions (host : JsString) (opts : IrcAdapterOptions) : Except JsString Unit :=
  if trim host = [] then .error (js "gateway-irc: opts.host is empty")
  else if !isNick opts.nick || hasControlByte opts.nick then
    .error (js "gateway-irc: opts.nick \"" ++ opts.nick ++ js "\" is not a valid IRC nick")
  else
    match opts.channels.find? fun channel => !isChannel channel || hasControlByte channel with
    | some channel =>
      .error (js "gateway-irc: channel \"" ++ channel ++
        js "\" must be #name or &name with no spaces")
    | none =>
      match (lineFields opts).find? fun field => (field.2.getD []).any isBreak with
      | some (field, _) =>
        .error (js "gateway-irc: opts." ++ field ++ js " holds a line break or NUL")
      | none =>
        if (opts.username.getD []).any isSpace then
          .error (js "gateway-irc: opts.username holds a space; USER takes it as one word")
        else .ok ()

/-- What the handshake writes of the options as it stands. -/
structure CleanOptions (opts : RegistrationOptions) : Prop where
  nick : Clean opts.nick
  username : Clean opts.username
  realname : Clean opts.realname
  password : ∀ password, opts.password = some password → Clean password
  channels : ∀ channel ∈ opts.channels, Clean channel

/-! ### Clean lines -/

theorem clean_iff {line : JsString} : Clean line ↔ ∀ c ∈ line, isBreak c = false := by
  unfold Clean isBreak
  constructor
  · rintro ⟨hcr, hlf, hnul⟩ c hc
    have hne {d : UInt16} (hd : d ∉ line) : c ≠ d := by
      rintro rfl
      exact hd hc
    simp [hne hcr, hne hlf, hne hnul]
  · intro h
    have hnot {d : UInt16} (hd : isBreak d = true) : d ∉ line := by
      intro hmem
      have := h d hmem
      rw [← isBreak, hd] at this
      cases this
    exact ⟨hnot rfl, hnot rfl, hnot rfl⟩

theorem clean_append {a b : JsString} : Clean (a ++ b) ↔ Clean a ∧ Clean b := by
  simp only [clean_iff, List.forall_mem_append]

/-- A constant is clean when the test on it says so. -/
theorem clean_of_any {line : JsString} (h : line.any isBreak = false) : Clean line := by
  rw [clean_iff]
  intro c hc
  exact Bool.eq_false_iff.2 (List.any_eq_false.1 h c hc)

theorem clean_intercalate {sep : JsString} {lines : List JsString} (hsep : Clean sep)
    (hlines : ∀ line ∈ lines, Clean line) : Clean (sep.intercalate lines) :=
  ⟨notMem_intercalate hsep.1 fun line h => (hlines line h).1,
    notMem_intercalate hsep.2.1 fun line h => (hlines line h).2.1,
    notMem_intercalate hsep.2.2 fun line h => (hlines line h).2.2⟩

theorem isSpace_of_isNick {nick : JsString} (h : isNick nick = true) :
    ∀ c ∈ nick, isSpace c = false := by
  intro c hc
  cases nick with
  | nil => cases hc
  | cons d rest => grind [isNick]

theorem isSpace_of_isChannel {channel : JsString} (h : isChannel channel = true) :
    ∀ c ∈ channel, isSpace c = false := by
  intro c hc
  rcases channel with _ | ⟨d, _ | ⟨e, rest⟩⟩
  · cases hc
  · cases h
  · obtain ⟨hmark, hrest⟩ := Bool.and_eq_true_iff.1 h
    rcases List.mem_cons.1 hc with rfl | hc
    · have hplain : c = unit '#' ∨ c = unit '&' := by simpa using hmark
      rcases hplain with rfl | rfl <;> decide
    · have hunit := List.all_eq_true.1 hrest c hc
      grind

theorem isSpace_of_isTarget {target : JsString} (h : isTarget target = true) :
    ∀ c ∈ target, isSpace c = false := by
  intro c hc
  cases target with
  | nil => cases hc
  | cons d rest => grind [isTarget]

/-- A text that passes both checks is clean, when what the pattern matches holds no space. -/
theorem clean_of_checks {pattern : JsString → Bool} {text : JsString}
    (hspace : pattern text = true → ∀ c ∈ text, isSpace c = false)
    (h : (!pattern text || hasControlByte text) = false) : Clean text := by
  obtain ⟨hpattern, hcontrol⟩ := Bool.or_eq_false_iff.1 h
  have hnot {c : UInt16} (hc : isSpace c = true) : c ∉ text := by
    intro hmem
    rw [hspace (by simpa using hpattern) c hmem] at hc
    cases hc
  refine ⟨hnot (by decide), hnot (by decide), fun hnul => ?_⟩
  obtain ⟨hcontains, _⟩ := Bool.or_eq_false_iff.1 hcontrol
  rw [List.contains_iff_mem.2 hnul] at hcontains
  cases hcontains

/-- The constructor accepts no option that could carry a second command. -/
theorem cleanOptions_of_validateOptions {host : JsString} {opts : IrcAdapterOptions}
    (h : validateOptions host opts = .ok ()) :
    CleanOptions (IrcAdapter.registrationOptions opts) := by
  unfold validateOptions at h
  split at h
  · cases h
  split at h
  · cases h
  rename_i hnick
  split at h
  · cases h
  rename_i hchannels
  split at h
  · cases h
  rename_i hfields
  have hclean (field : JsString × Option JsString) (hfield : field ∈ lineFields opts) :
      Clean (field.2.getD []) :=
    clean_of_any (Bool.eq_false_iff.2 (List.find?_eq_none.1 hfields field hfield))
  have hcleanNick : Clean opts.nick :=
    clean_of_checks isSpace_of_isNick (Bool.eq_false_iff.2 hnick)
  have hdefault (field : JsString × Option JsString) (hfield : field ∈ lineFields opts) :
      Clean (field.2.getD opts.nick) := by
    have hvalue := hclean field hfield
    revert hvalue
    cases field.2 with
    | none => exact fun _ => hcleanNick
    | some value => exact id
  refine ⟨hcleanNick, hdefault (js "username", opts.username) (by simp [lineFields]),
    hdefault (js "realname", opts.realname) (by simp [lineFields]), fun password hpassword => ?_,
    fun channel hchannel => ?_⟩
  · have hvalue := hclean (js "password", opts.password) (by simp [lineFields])
    have hsome : opts.password = some password := hpassword
    rwa [hsome] at hvalue
  · have hgood := List.find?_eq_none.1 hchannels channel hchannel
    exact clean_of_checks isSpace_of_isChannel (Bool.eq_false_iff.2 hgood)

end TheokitGateways.Irc
