import TheokitGateways.Js.Replaced

/-!
# Credential shapes

The shapes of the credentials that are masked before a text reaches a log. A
text that a shape matched somewhere in a message is left standing by `maskShapes`
where no shape masks a unit of it (`infix_maskShapes_iff`).
-/

namespace TheokitGateways.Gateway
open Js

/-- `[a-z]`, for two bounds. -/
def between (a z : Char) (c : UInt16) : Bool := unit a ≤ c && c ≤ unit z

/-- `[A-Za-z0-9]`. -/
def alnum (c : UInt16) : Bool := between 'A' 'Z' c || between 'a' 'z' c || between '0' '9' c

def digit : UInt16 → Bool := between '0' '9'

/-- `[a-f0-9]`. -/
def lowerHex (c : UInt16) : Bool := between 'a' 'f' c || between '0' '9' c

/-- `[A-Z0-9]`. -/
def upperAlnum (c : UInt16) : Bool := between 'A' 'Z' c || between '0' '9' c

/-- A class with the units of a text added. -/
def orUnits (admits : UInt16 → Bool) (extra : String) (c : UInt16) : Bool :=
  admits c || (js extra).contains c

/-- `[A-Za-z0-9_-]`. -/
def urlSafe : UInt16 → Bool := orUnits alnum "_-"

/-- `[A-Za-z0-9._~-]`. -/
def secretUnit : UInt16 → Bool := orUnits alnum "._~-"

/-- A class taken a fixed number of times. -/
def exactly (n : Nat) (admits : UInt16 → Bool) : Piece := ⟨admits, n, some n⟩

/-- A class taken at least so many times. -/
def atLeast (n : Nat) (admits : UInt16 → Bool) : Piece := ⟨admits, n, none⟩

/-- A text, unit by unit. -/
def verbatim (s : String) : List Piece := (js s).map fun c => exactly 1 (· == c)

/-- `gateway-telegram token`. -/
def telegramToken : Pattern where
  notAfter := alnum
  pieces := [⟨digit, 8, some 10⟩] ++ verbatim ":" ++ [exactly 35 urlSafe]
  notBefore := urlSafe
  nonempty := ⟨_, List.mem_cons_self, by decide⟩

/-- `gateway-discord token`. -/
def discordToken : Pattern where
  notAfter := urlSafe
  pieces := [⟨urlSafe, 23, some 28⟩] ++ verbatim "." ++ [⟨urlSafe, 6, some 7⟩] ++ verbatim "." ++
    [atLeast 27 urlSafe]
  notBefore := urlSafe
  nonempty := ⟨_, List.mem_cons_self, by decide⟩

/-- `gateway-slack appToken`. -/
def slackAppToken : Pattern where
  notAfter := orUnits alnum "-"
  pieces := verbatim "xapp-" ++ [exactly 1 digit] ++ verbatim "-" ++ [atLeast 1 upperAlnum] ++
    verbatim "-" ++ [atLeast 1 digit] ++ verbatim "-" ++ [atLeast 32 lowerHex]
  notBefore := lowerHex
  nonempty := ⟨_, List.mem_cons_self, by decide⟩

/-- `gateway-matrix accessToken`. -/
def matrixAccessToken : Pattern where
  notAfter := orUnits alnum "_"
  pieces := verbatim "syt_" ++ [atLeast 1 urlSafe] ++ verbatim "_" ++ [atLeast 1 urlSafe] ++
    verbatim "_" ++ [atLeast 1 alnum]
  notBefore := urlSafe
  nonempty := ⟨_, List.mem_cons_self, by decide⟩

/-- `gateway-whatsapp accessToken`. -/
def whatsappAccessToken : Pattern where
  notAfter := alnum
  pieces := verbatim "EAA" ++ [atLeast 20 alnum]
  notBefore := alnum
  nonempty := ⟨_, List.mem_cons_self, by decide⟩

/-- `gateway-teams clientSecret`. -/
def teamsClientSecret : Pattern where
  notAfter := orUnits alnum "~"
  pieces := [exactly 3 alnum, exactly 1 digit, ⟨alnum, 0, some 1⟩] ++ verbatim "~" ++
    [atLeast 30 secretUnit]
  notBefore := secretUnit
  nonempty := ⟨_, List.mem_cons_self, by decide⟩

/-- `CREDENTIAL_SHAPES.covered`. -/
def covered : List Pattern :=
  [telegramToken, discordToken, slackAppToken, matrixAccessToken, whatsappAccessToken,
    teamsClientSecret]

/-- Replace every covered shape with `***`. -/
def maskShapes (text : JsString) : JsString := Pattern.replaceEach (js "***") covered text

/-- The texts that covered shapes match in a message. -/
def Credential (m w : JsString) : Prop :=
  ∃ p ∈ covered, ∃ a b, m = a ++ w ++ b ∧ p.MatchesAt a w b

/-- Units no shape has: those of a mask, and those that end a word of a line. -/
def outside : JsString := js "*… \n"

theorem covered_excludes :
    ∀ p ∈ covered, ∀ piece ∈ p.pieces, outside.all (fun c => !piece.admits c) = true := by
  decide

theorem covered_neutral : ∀ p ∈ covered, p.Neutral (js "***") := by
  intro p hp
  have hall : covered.all (fun p =>
      (js "***").all fun c => !p.notAfter c && !p.notBefore c) = true := by decide
  have := List.all_eq_true.1 hall p hp
  simpa [Pattern.Neutral] using this

theorem covered_excludes_mask : ∀ p ∈ covered, p.Excludes (js "***") := by
  intro p hp c hc piece hpiece
  have hall := List.all_eq_true.1 (covered_excludes p hp piece hpiece) c
    (by cases List.eq_of_mem_replicate (n := 3) hc; decide)
  simpa using hall

section
variable {notBefore : UInt16 → Bool} {ps : List Piece}

theorem firm_exactly (n : Nat) (admits : UInt16 → Bool) (h : Firm notBefore ps) :
    Firm notBefore (exactly n admits :: ps) := .fixed rfl h

theorem firm_verbatim (s : String) (h : Firm notBefore ps) : Firm notBefore (verbatim s ++ ps) := by
  unfold verbatim
  induction js s with
  | nil => exact h
  | cons c cs ih => exact firm_exactly 1 _ ih

/-- A class up to a unit it does not have. -/
theorem firm_until {q : Piece} {c : UInt16} (hc : q.admits c = false)
    (h : Firm notBefore (exactly 1 (· == c) :: ps)) :
    Firm notBefore (q :: exactly 1 (· == c) :: ps) := by
  refine .parted (fun d hd => ?_) Nat.zero_lt_one h
  rw [beq_iff_eq.1 hd]
  exact hc

end

theorem sharp_telegramToken : telegramToken.Sharp :=
  Pattern.sharp_of_firm <| firm_until (by decide) <| firm_verbatim ":" <| firm_exactly 35 _ .nil

theorem sharp_discordToken : discordToken.Sharp :=
  Pattern.sharp_of_firm <| firm_until (by decide) <| firm_verbatim "." <| firm_until (by decide) <|
    firm_verbatim "." <| .last fun _ hc => hc

theorem sharp_slackAppToken : slackAppToken.Sharp :=
  Pattern.sharp_of_firm <| firm_verbatim "xapp-" <| firm_exactly 1 _ <| firm_verbatim "-" <|
    firm_until (by decide) <| firm_verbatim "-" <| firm_until (by decide) <| firm_verbatim "-" <|
    .last fun _ hc => hc

theorem urlSafe_of_alnum {c : UInt16} (h : alnum c = true) : urlSafe c = true := by
  rw [urlSafe, orUnits, h]
  rfl

theorem sharp_matrixAccessToken : matrixAccessToken.Sharp := by
  refine Pattern.sharp_of_admits fun q hq c hc => ?_
  have hverbatim {s : String} (hs : (js s).all urlSafe = true) (hq : q ∈ verbatim s) :
      urlSafe c = true := by
    obtain ⟨d, hd, rfl⟩ := List.mem_map.1 hq
    rw [beq_iff_eq.1 hc]
    exact List.all_eq_true.1 hs d hd
  simp only [matrixAccessToken, List.mem_append, List.mem_singleton] at hq
  obtain ((((hq | rfl) | hq) | rfl) | hq) | rfl := hq
  · exact hverbatim (by decide) hq
  · exact hc
  · exact hverbatim (by decide) hq
  · exact hc
  · exact hverbatim (by decide) hq
  · exact urlSafe_of_alnum hc

theorem sharp_whatsappAccessToken : whatsappAccessToken.Sharp :=
  Pattern.sharp_of_firm <| firm_verbatim "EAA" <| .last fun _ hc => hc

theorem sharp_teamsClientSecret : teamsClientSecret.Sharp :=
  Pattern.sharp_of_firm <| firm_exactly 3 _ <| firm_exactly 1 _ <| firm_until (by decide) <|
    firm_verbatim "~" <| .last fun _ hc => hc

theorem covered_masks : ∀ p ∈ covered, Pattern.Masks (js "***") p := by
  intro p hp
  refine ⟨covered_neutral p hp, covered_excludes_mask p hp, ?_⟩
  simp only [covered, List.mem_cons, List.not_mem_nil, or_false] at hp
  obtain rfl | rfl | rfl | rfl | rfl | rfl := hp
  · exact sharp_telegramToken
  · exact sharp_discordToken
  · exact sharp_slackAppToken
  · exact sharp_matrixAccessToken
  · exact sharp_whatsappAccessToken
  · exact sharp_teamsClientSecret

theorem Credential.ne_nil {m w : JsString} (h : Credential m w) : w ≠ [] := by
  obtain ⟨p, _, a, b, _, hmatch⟩ := h
  exact hmatch.ne_nil

end TheokitGateways.Gateway
