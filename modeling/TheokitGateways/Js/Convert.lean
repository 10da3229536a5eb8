import TheokitGateways.Js.Bytes
import TheokitGateways.Js.Json

/-!
# Converting values to text and to numbers

`JsNumber.toStr` writes a number as `String(n)` does: the fewest digits that read
back as the number, the closest such digits, and an exponent only for very large
or very small numbers. `Json.toStr` is `String(v)` of a value `JSON.parse` made,
`Json.toNumber` is `Number(v)`, which arithmetic applies to its operands.
-/

namespace TheokitGateways.Js

theorem bind_eq_ok {ε α β : Type} {x : Except ε α} {f : α → Except ε β} {b : β} :
    (x >>= f) = .ok b ↔ ∃ a, x = .ok a ∧ f a = .ok b := by
  cases x with
  | error e =>
    constructor
    · rintro ⟨⟩
    · rintro ⟨a, ⟨⟩, _⟩
  | ok a => exact ⟨fun h => ⟨a, rfl, h⟩, fun ⟨_, ha, h⟩ => by cases ha; exact h⟩

theorem map_eq_ok {ε α β : Type} {x : Except ε α} {f : α → β} {b : β} :
    x.map f = .ok b ↔ ∃ a, x = .ok a ∧ f a = b := by
  cases x <;> simp [Except.map]

theorem getD_eq_true {v : Option Bool} : v.getD false = true ↔ v = some true := by
  cases v <;> simp

/-- The digits of a natural number. -/
def natText (n : Nat) : JsString := (Nat.toDigits 10 n).map unit

theorem toNat_unit_of_isDigit {c : Char} (h : c.isDigit = true) : (unit c).toNat = c.toNat := by
  simp only [Char.isDigit, Bool.and_eq_true, decide_eq_true_eq] at h
  have hle : c.val.toNat ≤ 57 := h.2
  unfold unit
  rw [UInt32.toNat_toUInt16]
  exact Nat.mod_eq_of_lt (by omega)

theorem digitsValue_natText (n : Nat) : JsonParser.digitsValue (natText n) = n := by
  have hfold (cs : List Char) (hcs : ∀ c ∈ cs, c.isDigit = true) (init : Nat) :
      (cs.map unit).foldl (fun n d => n * 10 + (d.toNat - 0x30)) init =
        Nat.ofDigitChars 10 cs init := by
    induction cs generalizing init with
    | nil => rfl
    | cons c cs ih =>
      obtain ⟨hc, hcs⟩ := List.forall_mem_cons.1 hcs
      rw [List.map_cons, List.foldl_cons, ih hcs, toNat_unit_of_isDigit hc, Nat.mul_comm]
      rfl
  unfold JsonParser.digitsValue natText
  rw [hfold _ (fun c hc => Nat.isDigit_of_mem_toDigits (by decide) (by decide) hc),
    Nat.ofDigitChars_ten_toDigits]

theorem natText_inj {m n : Nat} (h : natText m = natText n) : m = n := by
  rw [← digitsValue_natText m, h, digitsValue_natText]

theorem notMem_natText {c : UInt16} (h : (0x30 ≤ c && c ≤ 0x39) = false) (n : Nat) :
    c ∉ natText n := by
  intro hmem
  obtain ⟨d, hd, rfl⟩ := List.mem_map.1 hmem
  have hdigit := Nat.isDigit_of_mem_toDigits (by decide) (by decide) hd
  have hnat := toNat_unit_of_isDigit hdigit
  simp only [Char.isDigit, Bool.and_eq_true, decide_eq_true_eq] at hdigit
  have hge : 48 ≤ d.toNat := hdigit.1
  have hle : d.toNat ≤ 57 := hdigit.2
  simp only [Bool.and_eq_false_iff, decide_eq_false_iff_not, UInt16.le_iff_toNat_le, hnat,
    UInt16.reduceToNat] at h
  omega

namespace JsNumber

/-- The `n` with `10 ^ (n - 1) ≤ q < 10 ^ n`, for a positive double. -/
def decimalPoint (q : Rat) : Int := (natText (q * Nat.pow 10 400).floor.toNat).length - 400

/-- The two integers around `q / 10 ^ e`, the closer one first. -/
def decimalCandidates (q : Rat) (e : Int) : List Nat :=
  let scaled := q / JsonParser.pow10 e
  let below := scaled.floor.toNat
  let rest := scaled - below
  if rest < 1 / 2 ∨ (rest = 1 / 2 ∧ below % 2 = 0) then [below, below + 1] else [below + 1, below]

/-- The first of at most `tries` digit counts from `k` on that reads back as `q`. -/
def shortestDigits (q : Rat) (n : Int) : (tries k : Nat) → Nat × Int
  | 0, k => ((q / JsonParser.pow10 (n - k)).floor.toNat, n - k)
  | tries + 1, k =>
    let e := n - k
    match (decimalCandidates q e).find? (fun s : Nat => round (s * JsonParser.pow10 e) =
      .finite q) with
    | some s => (s, e)
    | none => shortestDigits q n tries (k + 1)

/-- The digits `ds` with the point after the first `n` of them. -/
def placePoint (ds : JsString) (n : Int) : JsString :=
  let k : Int := ds.length
  if k ≤ n ∧ n ≤ 21 then ds ++ List.replicate (n - k).toNat (unit '0')
  else if 0 < n ∧ n ≤ 21 then ds.take n.toNat ++ unit '.' :: ds.drop n.toNat
  else if -6 < n ∧ n ≤ 0 then js "0." ++ List.replicate (-n).toNat (unit '0') ++ ds
  else
    let e := (if 0 ≤ n - 1 then js "e+" else js "e-") ++ natText (n - 1).natAbs
    if k = 1 then ds ++ e else ds.take 1 ++ unit '.' :: ds.drop 1 ++ e

def positiveText (q : Rat) : JsString :=
  let (s, e) := shortestDigits q (decimalPoint q) 17 1
  let ds := natText s
  let kept := (ds.reverse.dropWhile (· = unit '0')).reverse
  placePoint kept (ds.length + e)

/-- `String(n)`. -/
def toStr : JsNumber → JsString
  | .nan => js "NaN"
  | .infinite negative => if negative then js "-Infinity" else js "Infinity"
  | .finite q =>
    if q = 0 then js "0" else if q < 0 then unit '-' :: positiveText (-q) else positiveText q

end JsNumber

/-- White space and line terminators. -/
def isSpace (c : UInt16) : Bool :=
  (0x09 ≤ c && c ≤ 0x0D) || c = 0x20 || c = 0xA0 || c = 0xFEFF || c = 0x1680 ||
    (0x2000 ≤ c && c ≤ 0x200A) || c = 0x2028 || c = 0x2029 || c = 0x202F || c = 0x205F ||
    c = 0x3000

/-- `s.trim()`. -/
def trim (s : JsString) : JsString := ((s.dropWhile isSpace).reverse.dropWhile isSpace).reverse

theorem dropWhile_of_prefix {p : UInt16 → Bool} {s t : JsString} (h : t <+: s.dropWhile p) :
    t.dropWhile p = t := by
  cases t with
  | nil => rfl
  | cons c t =>
    obtain ⟨rest, hrest⟩ := h
    have hc : p c = false := by
      have hhead := List.head?_dropWhile_not p s
      rw [← hrest] at hhead
      exact hhead
    exact List.dropWhile_cons_of_neg (by simp [hc])

/-- A text is its trimmed text between white space. -/
theorem trim_between (s : JsString) : ∃ before after : JsString,
    s = before ++ (trim s ++ after) ∧ before.all isSpace = true ∧ after.all isSpace = true := by
  refine ⟨s.takeWhile isSpace, ((s.dropWhile isSpace).reverse.takeWhile isSpace).reverse, ?_,
    List.all_takeWhile, ?_⟩
  · rw [trim, ← List.reverse_append, List.takeWhile_append_dropWhile, List.reverse_reverse,
      List.takeWhile_append_dropWhile]
  · rw [List.all_reverse]
    exact List.all_takeWhile

theorem trim_ne_nil_of_mem {s : JsString} {c : UInt16} (hc : c ∈ s) (h : isSpace c = false) :
    trim s ≠ [] := by
  obtain ⟨before, after, hwhole, hbefore, hafter⟩ := trim_between s
  intro hnil
  rw [hnil, List.nil_append] at hwhole
  have hspace : s.all isSpace = true := by rw [hwhole, List.all_append, hbefore, hafter]; rfl
  rw [List.all_eq_true.1 hspace c hc] at h
  cases h

theorem trim_trim (s : JsString) : trim (trim s) = trim s := by
  have hprefix : trim s <+: s.dropWhile isSpace := by
    rw [trim, ← List.reverse_suffix, List.reverse_reverse]
    exact List.dropWhile_suffix _
  have hback : (trim s).reverse = (s.dropWhile isSpace).reverse.dropWhile isSpace := by
    rw [trim, List.reverse_reverse]
  have hlead := dropWhile_of_prefix hprefix
  conv =>
    lhs
    rw [trim, hlead, hback, dropWhile_of_prefix List.prefix_rfl, ← hback, List.reverse_reverse]

/-- The value of digits of a base, `none` when there are none or one is foreign. -/
def radixValue (base : Nat) (ds : JsString) : Option Nat :=
  if ds = [] then none
  else ds.foldlM
    (fun n c => (JsonParser.hexDigit c).bind fun d =>
      if d < base then some (n * base + d) else none)
    0

/-- A decimal literal without a sign: digits around a point, then an exponent. -/
def decimalValue (s : JsString) : Option Rat :=
  let whole := JsonParser.digits s
  let (frac, rest) :=
    match JsonParser.afterDigits s with
    | [] => ([], [])
    | c :: cs =>
      if c = unit '.' then (JsonParser.digits cs, JsonParser.afterDigits cs) else ([], c :: cs)
  if whole = [] ∧ frac = [] then none
  else
    match JsonParser.exponent rest with
    | some (e, []) =>
      some ((JsonParser.digitsValue (whole ++ frac) : Rat) * JsonParser.pow10 (e - frac.length))
    | _ => none

/-- The base a literal announces, and its digits. -/
def radixPrefix : JsString → Option (Nat × JsString)
  | c :: x :: ds =>
    if c ≠ unit '0' then none
    else if x = unit 'x' ∨ x = unit 'X' then some (16, ds)
    else if x = unit 'o' ∨ x = unit 'O' then some (8, ds)
    else if x = unit 'b' ∨ x = unit 'B' then some (2, ds)
    else none
  | _ => none

/-- A decimal literal or `Infinity`, with the sign read before it. -/
def decimalNumber (negative : Bool) (s : JsString) : JsNumber :=
  if s = js "Infinity" then .infinite negative
  else
    match decimalValue s with
    | some q => .round (if negative then -q else q)
    | none => .nan

/-- `Number(s)` of a string. -/
def stringToNumber (s : JsString) : JsNumber :=
  match trim s with
  | [] => .finite 0
  | c :: cs =>
    match radixPrefix (c :: cs) with
    | some (base, ds) => ((radixValue base ds).map fun n => JsNumber.ofInt n).getD .nan
    | none =>
      if c = unit '-' then decimalNumber true cs
      else if c = unit '+' then decimalNumber false cs
      else decimalNumber false (c :: cs)

namespace Json

def cannotConvert : JsString := js "Cannot convert object to primitive value"

mutual

/-- `String(v)`; the error is the message of its `TypeError`. A member called `toString`
hides the inherited method, and no JSON value is callable. -/
def toStr : Json → Except JsString JsString
  | .null => .ok (js "null")
  | .bool b => .ok (if b then js "true" else js "false")
  | .number n => .ok n.toStr
  | .string s => .ok s
  | .array items => (itemTexts items).map [unit ','].intercalate
  | .object members =>
    if members.any (·.1 = js "toString") then .error cannotConvert
    else .ok (js "[object Object]")

/-- The parts of an array's text: nothing for null. -/
def itemTexts : List Json → Except JsString (List JsString)
  | [] => .ok []
  | .null :: items => (itemTexts items).map ([] :: ·)
  | v :: items => do
    let s ← toStr v
    let rest ← itemTexts items
    return s :: rest

end

/-- `Number(v)`. An object goes through its text. -/
def toNumber : Json → Except JsString JsNumber
  | .null => .ok (.finite 0)
  | .bool b => .ok (.finite (if b then 1 else 0))
  | .number n => .ok n
  | .string s => .ok (stringToNumber s)
  | .array items => (toStr (.array items)).map stringToNumber
  | .object members => (toStr (.object members)).map stringToNumber

/-- A code unit in a quoted string: escaped when it is a quote, a backslash, a control
character or a lone surrogate. -/
def quoteUnit (lone : Bool) (c : UInt16) : JsString :=
  let hex (n : Nat) : JsString :=
    js "\\u" ++ [hexDigitUnit (n / 0x1000), hexDigitUnit (n / 0x100 % 16),
      hexDigitUnit (n / 16 % 16), hexDigitUnit (n % 16)]
  if c = 0x22 ∨ c = 0x5C then [0x5C, c]
  else if c = 0x08 then js "\\b"
  else if c = 0x0C then js "\\f"
  else if c = 0x0A then js "\\n"
  else if c = 0x0D then js "\\r"
  else if c = 0x09 then js "\\t"
  else if c < 0x20 ∨ lone then hex c.toNat
  else [c]

def quoteUnits : JsString → JsString
  | [] => []
  | [u] => quoteUnit (isHighSurrogate u || isLowSurrogate u) u
  | u :: v :: rest =>
    if isHighSurrogate u && isLowSurrogate v then u :: v :: quoteUnits rest
    else quoteUnit (isHighSurrogate u || isLowSurrogate u) u ++ quoteUnits (v :: rest)

/-- `JSON.stringify(s)` of a string. -/
def quoteString (s : JsString) : JsString := 0x22 :: quoteUnits s ++ [0x22]

mutual

/-- `JSON.stringify(v)`. -/
def stringify : Json → JsString
  | .null => js "null"
  | .bool b => if b then js "true" else js "false"
  | .number n => if n.isFinite then n.toStr else js "null"
  | .string s => quoteString s
  | .array items => unit '[' :: [unit ','].intercalate (stringifyItems items) ++ [unit ']']
  | .object members => 0x7B :: [unit ','].intercalate (stringifyMembers members) ++ [0x7D]

def stringifyItems : List Json → List JsString
  | [] => []
  | v :: items => stringify v :: stringifyItems items

def stringifyMembers : List (JsString × Json) → List JsString
  | [] => []
  | (key, v) :: members =>
    (quoteString key ++ unit ':' :: stringify v) :: stringifyMembers members

end

/-- What fails to convert to a number fails to convert to text. -/
theorem toNumber_eq_error {v : Json} {e : JsString} :
    v.toNumber = .error e ↔ v.toStr = .error e := by
  cases v with
  | array items => cases h : toStr (.array items) <;> simp [toNumber, h, Except.map]
  | object members => cases h : toStr (.object members) <;> simp [toNumber, h, Except.map]
  | _ => simp [toNumber, toStr]

end Json

example : (Json.object [(js "a\"", .array [.null, .number 5, .string (js "\n")])]).stringify =
    js "\x7b\"a\\\"\":[null,5,\"\\n\"]\x7d" := by decide +kernel
example : [js " 12.50\n", js "0x1F", js "-.5e1", js "", js "1e", js "-Infinity"].map
      stringToNumber =
    [.finite (25 / 2), .finite 31, .finite (-5), .finite 0, .nan, .infinite true] := by
  decide +kernel
example : (JsNumber.ofInt 120).toStr = js "120" := by decide +kernel
example : (JsNumber.round (1 / 10 + 2 / 10)).toStr = js "0.3" := by decide +kernel
example : (JsNumber.ofInt (10 ^ 23)).toStr = js "1e+23" := by decide +kernel
example : (JsNumber.round (-1 / 3)).toStr = js "-0.3333333333333333" := by decide +kernel
example : (JsNumber.round (1 / 8000000)).toStr = js "1.25e-7" := by decide +kernel

end TheokitGateways.Js
