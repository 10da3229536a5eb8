import TheokitGateways.Js.Json

/-!
# The lexical shape of JSON text

A scanner reads a text one code unit at a time and knows only whether it is
inside a string literal. `rise` counts the braces it opens less those it closes
outside string literals. A parsed value is `Balanced`: scanned from outside a
string it ends there, its rise is zero and no prefix of it falls below.

An object's text is a brace around a balanced text, so every proper prefix of it
has an open brace or an open string. That is why no proper suffix of an object's
text is an object's text again, wherever the cut falls.
-/

namespace TheokitGateways.Js.JsonLex
open JsonParser

/-- Where a scanner stands: outside a string, in one, after its backslash, or with some
hexadecimal digits still to come. -/
inductive Mode where
  | out
  | str
  | esc
  | hex (left : Nat)
  | bad
  deriving DecidableEq

def next : Mode → UInt16 → Mode
  | .out, c => if c = quote then .str else if c = backslash then .bad else .out
  | .str, c => if c = quote then .out else if c = backslash then .esc else .str
  | .esc, c =>
    if c = unit 'u' then .hex 3 else if (escape c).isSome then .str else .bad
  | .hex left, c =>
    if (hexDigit c).isNone then .bad
    else match left with
      | 0 => .str
      | left + 1 => .hex left
  | .bad, _ => .bad

def step : Mode → UInt16 → Int
  | .out, c => if c = openBrace then 1 else if c = closeBrace then -1 else 0
  | _, _ => 0

def scan (m : Mode) (w : JsString) : Mode := w.foldl next m

/-- The braces opened less those closed. -/
def rise : Mode → JsString → Int
  | _, [] => 0
  | m, c :: w => step m c + rise (next m c) w

structure Balanced (w : JsString) : Prop where
  closes : scan .out w = .out
  level : rise .out w = 0
  stays : ∀ p, p <+: w → 0 ≤ rise .out p

@[simp] theorem scan_nil (m : Mode) : scan m [] = m := rfl

@[simp] theorem scan_cons (m : Mode) (c : UInt16) (w : JsString) :
    scan m (c :: w) = scan (next m c) w := rfl

@[simp] theorem scan_append (m : Mode) (u v : JsString) :
    scan m (u ++ v) = scan (scan m u) v := by
  simp [scan]

@[simp] theorem rise_nil (m : Mode) : rise m [] = 0 := rfl

@[simp] theorem rise_cons (m : Mode) (c : UInt16) (w : JsString) :
    rise m (c :: w) = step m c + rise (next m c) w := rfl

@[simp] theorem rise_append (m : Mode) (u v : JsString) :
    rise m (u ++ v) = rise m u + rise (scan m u) v := by
  induction u generalizing m with
  | nil => simp
  | cons c u ih => simp [ih, Int.add_assoc]

@[simp] theorem scan_bad (w : JsString) : scan .bad w = .bad := by
  induction w with
  | nil => rfl
  | cons c w ih => exact ih

@[simp] theorem next_out_openBrace : next .out openBrace = .out := rfl

@[simp] theorem next_out_closeBrace : next .out closeBrace = .out := rfl

@[simp] theorem step_out_openBrace : step .out openBrace = 1 := rfl

@[simp] theorem step_out_closeBrace : step .out closeBrace = -1 := rfl

@[simp] theorem next_esc_openBrace : next .esc openBrace = .bad := rfl

@[simp] theorem next_hex_openBrace (left : Nat) : next (.hex left) openBrace = .bad := rfl

@[simp] theorem next_bad (c : UInt16) : next .bad c = .bad := rfl

namespace Balanced

theorem nil : Balanced [] where
  closes := rfl
  level := rfl
  stays p hp := by simp [List.prefix_nil.1 hp]

theorem append {u v : JsString} (hu : Balanced u) (hv : Balanced v) : Balanced (u ++ v) where
  closes := by simp [hu.closes, hv.closes]
  level := by simp [hu.closes, hu.level, hv.level]
  stays p hp := by
    obtain hp | ⟨q, rfl⟩ := List.prefix_or_prefix_of_prefix hp (List.prefix_append u v)
    · exact hu.stays p hp
    · rw [rise_append, hu.closes, hu.level]
      simpa using hv.stays q ((List.prefix_append_right_inj u).1 hp)

/-- A code unit that means nothing to the scanner outside a string. -/
def Plain (c : UInt16) : Prop :=
  c ≠ quote ∧ c ≠ backslash ∧ c ≠ openBrace ∧ c ≠ closeBrace

instance (c : UInt16) : Decidable (Plain c) := inferInstanceAs (Decidable (_ ∧ _))

theorem of_plain {w : JsString} (h : ∀ c ∈ w, Plain c) : Balanced w := by
  induction w with
  | nil => exact nil
  | cons c w ih =>
    obtain ⟨⟨hq, hb, ho, hc⟩, hw⟩ := List.forall_mem_cons.1 h
    have hnext : next .out c = .out := by simp [next, hq, hb]
    have hstep : step .out c = 0 := by simp [step, ho, hc]
    refine ⟨by simp [hnext, (ih hw).closes], by simp [hnext, hstep, (ih hw).level], ?_⟩
    intro p hp
    obtain rfl | ⟨p, rfl, hw'⟩ := List.prefix_cons_iff.1 hp
    · simp
    · simpa [hnext, hstep] using (ih hw).stays p hw'

end Balanced

/-- A balanced text in braces. -/
def ObjectText (w : JsString) : Prop :=
  ∃ inner, Balanced inner ∧ w = openBrace :: (inner ++ [closeBrace])

namespace ObjectText

theorem closes {w : JsString} (h : ObjectText w) : scan .out w = .out := by
  obtain ⟨inner, hi, rfl⟩ := h
  simp [hi.closes]

theorem level {w : JsString} (h : ObjectText w) : rise .out w = 0 := by
  obtain ⟨inner, hi, rfl⟩ := h
  simp [hi.closes, hi.level]

/-- A proper prefix holds an open brace. -/
theorem rise_pos {w p : JsString} (h : ObjectText w) (hp : p <+: w) (hnil : p ≠ [])
    (hw : p ≠ w) : 1 ≤ rise .out p := by
  obtain ⟨inner, hi, rfl⟩ := h
  obtain rfl | ⟨q, rfl, hq⟩ := List.prefix_cons_iff.1 hp
  · contradiction
  · obtain rfl | hq := List.prefix_concat_iff.1 hq
    · contradiction
    · have hstays := hi.stays q hq
      simp only [rise_cons, step_out_openBrace, next_out_openBrace]
      omega

theorem balanced {w : JsString} (h : ObjectText w) : Balanced w where
  closes := h.closes
  level := h.level
  stays p hp := by
    by_cases hnil : p = []
    · simp [hnil]
    by_cases hw : p = w
    · simp [hw, h.level]
    · have := h.rise_pos hp hnil hw
      omega

end ObjectText

/-- Two scanners that disagree about being inside a string. -/
def Opposed (m n : Mode) : Prop := (m = .out ∧ n = .str) ∨ (m = .str ∧ n = .out)

/-- They go on disagreeing, or one of them meets a backslash outside a string. -/
theorem Opposed.next {m n : Mode} (h : Opposed m n) (c : UInt16) :
    Opposed (next m c) (next n c) ∨ next m c = .bad ∨ next n c = .bad := by
  obtain ⟨rfl, rfl⟩ | ⟨rfl, rfl⟩ := h <;>
  · by_cases hq : c = quote
    · simp [JsonLex.next, hq, Opposed]
    · by_cases hb : c = backslash
      · have hne : backslash ≠ quote := by decide
        simp [JsonLex.next, hb, hne]
      · simp [JsonLex.next, hq, hb, Opposed]

theorem Opposed.scan {m n : Mode} (h : Opposed m n) (w : JsString) :
    Opposed (scan m w) (scan n w) ∨ scan m w = .bad ∨ scan n w = .bad := by
  induction w generalizing m n with
  | nil => exact .inl h
  | cons c w ih =>
    obtain h | h | h := h.next c
    · simpa using ih h
    · simp [h]
    · simp [h]

/-- No text is an object's and, read from after a nonempty prefix, the rest of one. -/
theorem ObjectText.not_append {p w : JsString} (hp : p ≠ []) (h : ObjectText (p ++ w)) :
    ¬ ObjectText w := by
  intro hw
  have hwhole := h.closes
  rw [scan_append] at hwhole
  have hw' : w ≠ [] := by
    obtain ⟨inner, _, rfl⟩ := hw
    simp
  match hmode : JsonLex.scan .out p with
  | .out =>
    -- both scans read `w` alike, so the open brace of `p` is never closed
    have hrise := h.rise_pos (List.prefix_append p w) hp (by simpa using hw')
    have hlevel := h.level
    rw [rise_append, hmode, hw.level] at hlevel
    omega
  | .str =>
    rw [hmode] at hwhole
    obtain hopp | hbad | hbad := Opposed.scan (.inl ⟨rfl, rfl⟩) w (m := .out) (n := .str)
    · simp [Opposed, hwhole, hw.closes] at hopp
    · simp [hw.closes] at hbad
    · simp [hwhole] at hbad
  | .esc | .hex left | .bad =>
    obtain ⟨inner, _, rfl⟩ := hw
    simp [hmode] at hwhole

/-- What a parser has read is a balanced text. -/
def Reads (s r : JsString) : Prop := ∃ w, s = w ++ r ∧ Balanced w

namespace Reads

theorem refl (s : JsString) : Reads s s := ⟨[], rfl, Balanced.nil⟩

theorem trans {s t r : JsString} (hs : Reads s t) (ht : Reads t r) : Reads s r := by
  obtain ⟨u, rfl, hu⟩ := hs
  obtain ⟨v, rfl, hv⟩ := ht
  exact ⟨u ++ v, by simp, hu.append hv⟩

theorem plain {w s r : JsString} (h : s = w ++ r) (hw : ∀ c ∈ w, Balanced.Plain c) :
    Reads s r :=
  ⟨w, h, Balanced.of_plain hw⟩

theorem length_le {s r : JsString} (h : Reads s r) : r.length ≤ s.length := by
  obtain ⟨w, rfl, _⟩ := h
  simp

end Reads

theorem plain_of_isWs {c : UInt16} (h : isWs c = true) : Balanced.Plain c := by
  simp only [isWs, Bool.or_eq_true, decide_eq_true_eq] at h
  obtain ((rfl | rfl) | rfl) | rfl := h <;> simp [Balanced.Plain] <;> decide

theorem plain_of_isDigit {c : UInt16} (h : isDigit c = true) : Balanced.Plain c := by
  simp only [isDigit, Bool.and_eq_true, decide_eq_true_eq] at h
  refine ⟨?_, ?_, ?_, ?_⟩ <;> rintro rfl <;> revert h <;> decide

theorem reads_dropWhile {p : UInt16 → Bool} (hp : ∀ c, p c = true → Balanced.Plain c)
    (s : JsString) : Reads s (s.dropWhile p) :=
  .plain (List.takeWhile_append_dropWhile (p := p) (l := s)).symm fun c hc =>
    hp c (List.all_eq_true.1 List.all_takeWhile c hc)

theorem reads_skipWs (s : JsString) : Reads s (skipWs s) :=
  reads_dropWhile (fun _ => plain_of_isWs) s

theorem reads_digits (s : JsString) : Reads s (afterDigits s) :=
  reads_dropWhile (fun _ => plain_of_isDigit) s

theorem reads_cons {c : UInt16} (hc : Balanced.Plain c) (s : JsString) : Reads (c :: s) s :=
  .plain (w := [c]) rfl (by simpa using hc)

theorem reads_of_expect {c : UInt16} {s r : JsString} (hc : Balanced.Plain c)
    (h : expect c s = some r) : Reads s r := by
  have hskip := reads_skipWs s
  rw [expect_eq_some.1 h] at hskip
  exact hskip.trans (reads_cons hc r)

theorem reads_fraction {s ds r : JsString} (h : fraction s = some (ds, r)) : Reads s r := by
  cases s with
  | nil => simp_all [fraction, Reads.refl]
  | cons c cs =>
    by_cases hc : c = unit '.'
    · simp only [fraction, hc, if_true, Option.ite_none_left_eq_some,
        Option.some.injEq, Prod.mk.injEq] at h
      obtain ⟨_, rfl, rfl⟩ := h
      exact (reads_cons (by rw [hc]; decide) cs).trans (reads_digits cs)
    · simp_all [fraction, Reads.refl]

theorem reads_sign (s : JsString) : Reads s (sign s).2 := by
  cases s with
  | nil => exact Reads.refl _
  | cons c cs =>
    by_cases hm : c = unit '-'
    · simpa [sign, hm] using reads_cons (by decide) cs
    · by_cases hp : c = unit '+'
      · have hne : unit '+' ≠ unit '-' := by decide
        simpa [sign, hp, hne] using reads_cons (by decide) cs
      · simpa [sign, hm, hp] using Reads.refl (c :: cs)

theorem reads_exponent {s r : JsString} {e : Int} (h : exponent s = some (e, r)) :
    Reads s r := by
  cases s with
  | nil => simp_all [exponent, Reads.refl]
  | cons c cs =>
    by_cases hc : c = unit 'e' ∨ c = unit 'E'
    · simp only [exponent, hc, if_true, Option.ite_none_left_eq_some,
        Option.some.injEq, Prod.mk.injEq] at h
      obtain ⟨_, _, rfl⟩ := h
      have hplain : Balanced.Plain c := by obtain rfl | rfl := hc <;> decide
      exact (reads_cons hplain cs).trans ((reads_sign cs).trans (reads_digits _))
    · simp_all [exponent, Reads.refl]

theorem reads_magnitude {s r : JsString} {q : Rat} (h : parseMagnitude s = some (q, r)) :
    Reads s r := by
  simp only [parseMagnitude, Option.ite_none_left_eq_some, Option.bind_eq_bind,
    Option.bind_eq_some_iff, Option.pure_def, Option.some.injEq, Prod.mk.injEq, Prod.exists] at h
  obtain ⟨_, ds, s₁, hfrac, e, s₂, hexp, _, rfl⟩ := h
  exact (reads_digits s).trans ((reads_fraction hfrac).trans (reads_exponent hexp))

theorem reads_number {s r : JsString} {n : JsNumber} (h : parseNumber s = some (n, r)) :
    Reads s r := by
  unfold parseNumber at h
  split at h
  · obtain ⟨⟨q, r⟩, hq, ⟨⟩⟩ := Option.map_eq_some_iff.1 h
    cases s with
    | nil => exact reads_magnitude hq
    | cons c cs =>
      have hc : Balanced.Plain c := by simp_all; decide
      exact (reads_cons hc cs).trans (reads_magnitude hq)
  · obtain ⟨⟨q, r⟩, hq, ⟨⟩⟩ := Option.map_eq_some_iff.1 h
    exact reads_magnitude hq

theorem reads_literal {word s r : JsString} {v w : Json} (hword : ∀ c ∈ word, Balanced.Plain c)
    (h : literal word v s = some (w, r)) : Reads s r := by
  simp only [literal, Option.ite_none_right_eq_some, Option.some.injEq, Prod.mk.injEq] at h
  obtain ⟨hp, _, rfl⟩ := h
  obtain ⟨t, rfl⟩ := List.isPrefixOf_iff_prefix.1 hp
  exact .plain (by simp) hword

theorem reads_scalar {s r : JsString} {v : Json} (h : parseScalar s = some (v, r)) :
    Reads s r ∧ v.isObject = false := by
  have hlit {word : JsString} {u : Json} (hu : u.isObject = false)
      (hword : ∀ c ∈ word, Balanced.Plain c) (h : literal word u s = some (v, r)) :
      Reads s r ∧ v.isObject = false := by
    refine ⟨reads_literal hword h, ?_⟩
    simp only [literal, Option.ite_none_right_eq_some, Option.some.injEq, Prod.mk.injEq] at h
    exact h.2.1 ▸ hu
  simp only [parseScalar, Option.or_eq_some_iff, Option.map_eq_some_iff] at h
  obtain (h | ⟨_, h⟩) | ⟨_, h | ⟨_, ⟨n, t⟩, h, ⟨⟩⟩⟩ := h
  · exact hlit rfl (forall_mem_of_all rfl) h
  · exact hlit rfl (forall_mem_of_all rfl) h
  · exact hlit rfl (forall_mem_of_all rfl) h
  · exact ⟨reads_number h, rfl⟩

/-- The rest of a string literal, read from inside it. -/
def Inside (m : Mode) (w : JsString) : Prop :=
  scan m w = .out ∧ ∀ p, p <+: w → rise m p = 0

theorem Inside.cons {m : Mode} {c : UInt16} {w : JsString} (hm : m ≠ .out)
    (h : Inside (next m c) w) : Inside m (c :: w) := by
  have hstep : step m c = 0 := by cases m <;> simp_all [step]
  refine ⟨h.1, fun p hp => ?_⟩
  obtain rfl | ⟨q, rfl, hq⟩ := List.prefix_cons_iff.1 hp
  · rfl
  · rw [rise_cons, hstep, h.2 q hq]
    rfl

theorem Inside.nil : Inside .out [] := by
  refine ⟨rfl, fun p hp => ?_⟩
  rw [List.prefix_nil.1 hp]
  rfl

theorem Inside.balanced {w : JsString} (h : Inside .str w) : Balanced (quote :: w) := by
  have hrise (p : JsString) : rise .out (quote :: p) = rise .str p := Int.zero_add _
  refine ⟨h.1, by rw [hrise, h.2 w List.prefix_rfl], fun p hp => ?_⟩
  obtain rfl | ⟨q, rfl, hq⟩ := List.prefix_cons_iff.1 hp
  · simp
  · have hzero : rise .out (quote :: q) = 0 := (hrise q).trans (h.2 q hq)
    omega

theorem next_str_of_ne {c : UInt16} (hq : c ≠ quote) (hb : c ≠ backslash) :
    next .str c = .str := by
  simp [next, hq, hb]

theorem next_esc_of_escape {c u : UInt16} (hu : c ≠ unit 'u') (h : escape c = some u) :
    next .esc c = .str := by
  simp [next, hu, h]

theorem inside_hexUnit {a b c d u : UInt16} {w : JsString} (h : hexUnit a b c d = some u)
    (hw : Inside .str w) : Inside (.hex 3) (a :: b :: c :: d :: w) := by
  have hnext {x : UInt16} {n k : Nat} (hx : hexDigit x = some n) :
      next (.hex (k + 1)) x = .hex k ∧ next (.hex 0) x = .str := by simp [next, hx]
  simp only [hexUnit, Option.bind_eq_bind, Option.bind_eq_some_iff] at h
  obtain ⟨_, ha, _, hb, _, hc, _, hd, _⟩ := h
  refine .cons (by simp) ?_
  rw [(hnext ha).1]
  refine .cons (by simp) ?_
  rw [(hnext hb).1]
  refine .cons (by simp) ?_
  rw [(hnext hc).1]
  refine .cons (by simp) ?_
  rwa [(hnext (k := 0) hd).2]

theorem inside_stringBody {s t r : JsString} (h : stringBody s = some (t, r)) :
    ∃ w, s = w ++ r ∧ Inside .str w := by
  fun_induction stringBody s generalizing t with
  | case1 => simp at h
  | case2 cs =>
    obtain ⟨⟩ := h
    exact ⟨[quote], rfl, Inside.nil.cons (by simp)⟩
  | case3 => simp at h
  | case4 a b c d rest _ ih =>
    simp only [Option.bind_eq_bind, Option.bind_eq_some_iff, Option.pure_def, Option.some.injEq,
      Prod.mk.injEq, Prod.exists] at h
    obtain ⟨u, hu, t, r, hr, _, rfl⟩ := h
    obtain ⟨w, rfl, hw⟩ := ih hr
    exact ⟨backslash :: unit 'u' :: a :: b :: c :: d :: w, rfl,
      .cons (by simp) (.cons (by simp [next]; decide) (inside_hexUnit hu hw))⟩
  | case5 => simp at h
  | case6 e rest he _ ih =>
    simp only [Option.bind_eq_bind, Option.bind_eq_some_iff, Option.pure_def, Option.some.injEq,
      Prod.mk.injEq, Prod.exists] at h
    obtain ⟨u, hu, t, r, hr, _, rfl⟩ := h
    obtain ⟨w, rfl, hw⟩ := ih hr
    refine ⟨backslash :: e :: w, rfl, .cons (by simp) (.cons (by simp [next]; decide) ?_)⟩
    have hesc : next (next .str backslash) e = .str := next_esc_of_escape he hu
    rwa [hesc]
  | case7 => simp at h
  | case8 c cs hq hb _ ih =>
    simp only [Option.bind_eq_bind, Option.bind_eq_some_iff, Option.pure_def, Option.some.injEq,
      Prod.mk.injEq, Prod.exists] at h
    obtain ⟨t, r, hr, _, rfl⟩ := h
    obtain ⟨w, rfl, hw⟩ := ih hr
    refine ⟨c :: w, rfl, .cons (by simp) ?_⟩
    rwa [next_str_of_ne hq hb]

theorem reads_stringBody {s t r : JsString} (h : stringBody s = some (t, r)) :
    Reads (quote :: s) r := by
  obtain ⟨w, rfl, hw⟩ := inside_stringBody h
  exact ⟨quote :: w, rfl, hw.balanced⟩

theorem reads_until {c : UInt16} {s r : JsString} (h : expect c s = some r) :
    Reads s (c :: r) := by
  rw [← expect_eq_some.1 h]
  exact reads_skipWs s

theorem reads_quoted {s t t' r : JsString} (h : expect quote s = some t)
    (ht : stringBody t = some (t', r)) : Reads s r :=
  (reads_until h).trans (reads_stringBody ht)

/-- An object's text, from its opening brace on. -/
theorem objectText_of_reads {cs r : JsString} (h : Reads cs (closeBrace :: r)) :
    ∃ w, openBrace :: cs = w ++ r ∧ ObjectText w := by
  obtain ⟨inner, rfl, hi⟩ := h
  exact ⟨openBrace :: (inner ++ [closeBrace]), by simp, inner, hi, rfl⟩

/-- What each of the three parsers reads; the induction is on their fuel. -/
theorem reads_parse (n : Nat) :
    (∀ s v r, parseValue n s = some (v, r) → Reads s r ∧
      (v.isObject = true → ∃ w, skipWs s = w ++ r ∧ ObjectText w)) ∧
    (∀ members s v r, parseMembers n members s = some (v, r) → Reads s (closeBrace :: r)) ∧
    (∀ items s v r, parseElements n items s = some (v, r) →
      Reads s (closeBracket :: r) ∧ v.isObject = false) := by
  induction n with
  | zero => simp [parseValue, parseMembers, parseElements]
  | succ n ih =>
    obtain ⟨hvalue, hmembers, helements⟩ := ih
    refine ⟨fun s v r h => ?_, fun members s v r h => ?_, fun items s v r h => ?_⟩
    · have hskip := reads_skipWs s
      rw [parseValue] at h
      split at h
      · simp at h
      · rename_i c cs hs
        rw [hs] at hskip ⊢
        split at h
        · rename_i hc
          have hin : Reads cs (closeBrace :: r) := by
            split at h
            · rename_i r' hr
              obtain ⟨⟩ := h
              exact reads_until hr
            · exact hmembers _ _ _ _ h
          subst hc
          obtain ⟨w, hw, hobj⟩ := objectText_of_reads hin
          exact ⟨hskip.trans ⟨w, hw, hobj.balanced⟩, fun _ => ⟨w, hw, hobj⟩⟩
        · split at h
          · rename_i _ hc
            have hplain : Balanced.Plain c := by rw [hc]; decide
            have hin : Reads cs (closeBracket :: r) ∧ v.isObject = false := by
              split at h
              · rename_i r' hr
                obtain ⟨⟩ := h
                exact ⟨reads_until hr, rfl⟩
              · exact helements _ _ _ _ h
            exact ⟨hskip.trans ((reads_cons hplain cs).trans
              (hin.1.trans (reads_cons (by decide) r))), by simp [hin.2]⟩
          · split at h
            · rename_i _ _ hc
              obtain ⟨⟨t, r⟩, ht, ⟨⟩⟩ := Option.map_eq_some_iff.1 h
              subst hc
              exact ⟨hskip.trans (reads_stringBody ht), by simp [Json.isObject]⟩
            · obtain ⟨hr, hv⟩ := reads_scalar h
              exact ⟨hskip.trans hr, by simp [hv]⟩
    · simp only [parseMembers, Option.bind_eq_bind, Option.bind_eq_some_iff, Prod.exists] at h
      obtain ⟨s₁, h₁, key, s₂, h₂, s₃, h₃, v', s₄, h₄, h⟩ := h
      have hv : Reads s s₄ :=
        (reads_quoted h₁ h₂).trans ((reads_of_expect (by decide) h₃).trans (hvalue _ _ _ h₄).1)
      split at h
      · rename_i r' hr
        exact hv.trans ((reads_of_expect (by decide) hr).trans (hmembers _ _ _ _ h))
      · obtain ⟨r', hr, ⟨⟩⟩ := Option.map_eq_some_iff.1 h
        exact hv.trans (reads_until hr)
    · simp only [parseElements, Option.bind_eq_bind, Option.bind_eq_some_iff, Prod.exists] at h
      obtain ⟨v', s₁, h₁, h⟩ := h
      have hv : Reads s s₁ := (hvalue _ _ _ h₁).1
      split at h
      · rename_i r' hr
        obtain ⟨hrest, hobj⟩ := helements _ _ _ _ h
        exact ⟨hv.trans ((reads_of_expect (by decide) hr).trans hrest), hobj⟩
      · obtain ⟨r', hr, ⟨⟩⟩ := Option.map_eq_some_iff.1 h
        exact ⟨hv.trans (reads_until hr), rfl⟩

theorem length_of_skipWs {s cs : JsString} {c : UInt16} (h : skipWs s = c :: cs) :
    cs.length < s.length := by
  have hle := (reads_skipWs s).length_le
  rw [h, List.length_cons] at hle
  exact hle

theorem length_of_expect {c : UInt16} {s r : JsString} (h : expect c s = some r) :
    r.length < s.length :=
  length_of_skipWs (expect_eq_some.1 h)

theorem length_of_stringBody {s t r : JsString} (h : stringBody s = some (t, r)) :
    r.length ≤ s.length := by
  obtain ⟨w, rfl, _⟩ := inside_stringBody h
  simp

theorem length_of_parseValue {n : Nat} {s r : JsString} {v : Json}
    (h : parseValue n s = some (v, r)) : r.length ≤ s.length :=
  ((reads_parse n).1 _ _ _ h).1.length_le

/-- With enough fuel the three parsers do not depend on it; an element list needs one more
step than a value of its length. -/
theorem parse_fuel (n m : Nat) :
    (∀ s, 2 * s.length < n → 2 * s.length < m → parseValue n s = parseValue m s) ∧
    (∀ members s, 2 * s.length < n → 2 * s.length < m →
      parseMembers n members s = parseMembers m members s) ∧
    (∀ items s, 2 * s.length + 1 < n → 2 * s.length + 1 < m →
      parseElements n items s = parseElements m items s) := by
  induction n generalizing m with
  | zero => simp
  | succ n ih =>
    cases m with
    | zero => simp
    | succ m =>
      obtain ⟨hvalue, hmembers, helements⟩ := ih m
      refine ⟨fun s hn hm => ?_, fun members s hn hm => ?_, fun items s hn hm => ?_⟩
      · rw [parseValue, parseValue]
        cases hs : skipWs s with
        | nil => rfl
        | cons c cs =>
          have hlen := length_of_skipWs hs
          simp only [hmembers [] cs (by omega) (by omega), helements [] cs (by omega) (by omega)]
      · rw [parseMembers, parseMembers]
        refine Option.bind_congr fun s₁ h₁ => Option.bind_congr fun ⟨key, s₂⟩ h₂ =>
          Option.bind_congr fun s₃ h₃ => ?_
        have hlen₁ := length_of_expect h₁
        have hlen₂ := length_of_stringBody h₂
        have hlen₃ := length_of_expect h₃
        rw [hvalue s₃ (by omega) (by omega)]
        refine Option.bind_congr fun ⟨v, s₄⟩ h₄ => ?_
        have hlen₄ := length_of_parseValue h₄
        cases hr : expect comma s₄ with
        | none => simp only [hr]
        | some r =>
          have hlen := length_of_expect hr
          simp only [hr]
          exact hmembers _ r (by omega) (by omega)
      · rw [parseElements, parseElements, hvalue s (by omega) (by omega)]
        refine Option.bind_congr fun ⟨v, s₁⟩ h₁ => ?_
        have hlen₁ := length_of_parseValue h₁
        cases hr : expect comma s₁ with
        | none => simp only [hr]
        | some r =>
          have hlen := length_of_expect hr
          simp only [hr]
          exact helements _ r (by omega) (by omega)

theorem parseValue_fuel {n : Nat} {s : JsString} (h : 2 * s.length < n) :
    parseValue n s = parseValue (2 * s.length + 1) s :=
  (parse_fuel n _).1 s h (by omega)

/-- A text `JSON.parse` reads as an object is an object's text between whitespace. -/
theorem objectText_of_jsonParse {s : JsString} {v : Json} (h : jsonParse s = some v)
    (hv : v.isObject = true) :
    ∃ w ws, skipWs s = w ++ ws ∧ ObjectText w ∧ ∀ c ∈ ws, isWs c = true := by
  unfold jsonParse at h
  split at h
  · rename_i v' rest hparse
    obtain ⟨hrest, ⟨⟩⟩ := Option.ite_none_right_eq_some.1 h
    obtain ⟨w, hw, hobj⟩ := ((reads_parse _).1 _ _ _ hparse).2 hv
    have hws : rest.takeWhile isWs = rest := by
      have happ := List.takeWhile_append_dropWhile (p := isWs) (l := rest)
      rwa [← skipWs, hrest, List.append_nil] at happ
    exact ⟨w, rest, hw, hobj, fun c hc => List.all_eq_true.1 List.all_takeWhile c (hws.symm ▸ hc)⟩
  · simp at h

/-- What an object can begin with. -/
theorem head_of_jsonParse {cs : JsString} {c : UInt16} {v : Json}
    (h : jsonParse (c :: cs) = some v) (hv : v.isObject = true) :
    isWs c = true ∨ c = openBrace := by
  obtain ⟨w, ws, hw, ⟨inner, _, rfl⟩, _⟩ := objectText_of_jsonParse h hv
  by_cases hc : isWs c = true
  · exact .inl hc
  · simp_all [skipWs]

/-- Trailing whitespace is no part of a text that ends in something else. -/
theorem append_ws_inj {u v ws ws' : JsString} {c d : UInt16} (hc : isWs c = false)
    (hd : isWs d = false) (hws : ∀ x ∈ ws, isWs x = true) (hws' : ∀ x ∈ ws', isWs x = true)
    (h : u ++ c :: ws = v ++ d :: ws') : u ++ [c] = v ++ [d] := by
  have hstrip {x : UInt16} {t z : JsString} (hx : isWs x = false) (hz : ∀ y ∈ z, isWs y = true) :
      (t ++ x :: z).reverse.dropWhile isWs = (t ++ [x]).reverse := by
    rw [List.reverse_append, List.reverse_cons, List.append_assoc,
      List.dropWhile_append_of_pos (by simpa using hz)]
    simp [hx]
  have hrev := congrArg (fun t => t.reverse.dropWhile isWs) h
  simp only [hstrip hc hws, hstrip hd hws'] at hrev
  exact List.reverse_inj.1 hrev

/-- No proper suffix of an object's text is an object's text. -/
theorem not_object_of_suffix {p s : JsString} {v u : Json} (hp : p ≠ [])
    (hopen : (p ++ s).head? = some openBrace) (h : jsonParse (p ++ s) = some v)
    (hv : v.isObject = true) (hs : jsonParse s = some u) : u.isObject = false := by
  refine Bool.eq_false_iff.2 fun hu => ?_
  obtain ⟨w, ws, hw, hobj, hws⟩ := objectText_of_jsonParse h hv
  obtain ⟨w', ws', hw', hobj', hws'⟩ := objectText_of_jsonParse hs hu
  have hskip : skipWs (p ++ s) = p ++ s := by
    cases hps : p ++ s with
    | nil => rfl
    | cons c cs =>
      have hc : isWs c = false := by simp_all; decide
      simp [skipWs, hc]
  have hsplit : s = s.takeWhile isWs ++ (w' ++ ws') := by
    rw [← hw', skipWs, List.takeWhile_append_dropWhile]
  have hjoin : w = p ++ s.takeWhile isWs ++ w' := by
    obtain ⟨inner, _, rfl⟩ := hobj
    obtain ⟨inner', _, rfl⟩ := hobj'
    have heq : openBrace :: inner ++ closeBrace :: ws =
        p ++ s.takeWhile isWs ++ (openBrace :: inner') ++ closeBrace :: ws' := by
      have hps : p ++ s = p ++ (s.takeWhile isWs ++
          (openBrace :: (inner' ++ [closeBrace]) ++ ws')) := congrArg (p ++ ·) hsplit
      rw [← hskip, hw] at hps
      simpa using hps
    simpa using append_ws_inj (by decide) (by decide) hws hws' heq
  exact (hjoin ▸ hobj).not_append (by simp [hp]) hobj'

end TheokitGateways.Js.JsonLex
