import TheokitGateways.Js.Text
import TheokitGateways.Js.Number

/-!
# JSON values and `JSON.parse`

`Json` is a value `JSON.parse` can return; the members of an object keep their
order, one for each key. `jsonParse` is recursive descent over the code units.
Its fuel only serves termination: any amount above twice the length of the text
gives one answer (`JsonLex.parseValue_fuel`), and `jsonParse` starts with that.
-/

namespace TheokitGateways.Js

inductive Json where
  | null
  | bool (b : Bool)
  | number (n : JsNumber)
  | string (s : JsString)
  | array (items : List Json)
  | object (members : List (JsString × Json))

namespace Json

/-- A plain object: not null, not an array. -/
def isObject : Json → Bool
  | .object _ => true
  | _ => false

def isString : Json → Bool
  | .string _ => true
  | _ => false

/-- The string a value is. -/
def asString : Json → Option JsString
  | .string s => some s
  | _ => none

/-- The member of a value under a key other than `length`; `none` is `undefined`. -/
def get : Json → JsString → Option Json
  | .object members, key => members.lookup key
  | _, _ => none

/-- `v ?? d`. -/
def orElse (v : Option Json) (d : Json) : Json :=
  match v with
  | none | some .null => d
  | some v => v

/-- An object literal whose members may be absent. -/
def ofOptional (fields : List (JsString × Option Json)) : Json :=
  .object (fields.filterMap fun f => f.2.map (f.1, ·))

theorem get_ofOptional {fields : List (JsString × Option Json)} (key : JsString)
    (h : (fields.map Prod.fst).Nodup) : (ofOptional fields).get key = (fields.lookup key).join := by
  have hnot (fs : List (JsString × Option Json)) (hk : key ∉ fs.map Prod.fst) :
      (fs.filterMap fun f => f.2.map (f.1, ·)).lookup key = none := by
    refine List.lookup_eq_none_iff.2 fun m hm => ?_
    obtain ⟨f, hf, hfm⟩ := List.mem_filterMap.1 hm
    obtain ⟨v, _, rfl⟩ := Option.map_eq_some_iff.1 hfm
    have hne : key ≠ f.1 := fun heq => hk (List.mem_map.2 ⟨f, hf, heq.symm⟩)
    simpa using hne
  simp only [ofOptional, get]
  induction fields with
  | nil => rfl
  | cons f fields ih =>
    obtain ⟨name, value⟩ := f
    obtain ⟨hf, hfields⟩ := List.nodup_cons.1 h
    by_cases hkey : key = name
    · subst hkey
      cases value with
      | none => simp [hnot fields hf]
      | some v => simp
    · have hb : (key == name) = false := by simpa using hkey
      cases value with
      | none => simpa [List.lookup_cons, hb] using ih hfields
      | some v => simpa [List.lookup_cons, hb] using ih hfields

end Json

/-- `v?.key`: nothing when there is no value to read. -/
def optGet (v : Option Json) (key : JsString) : Option Json := v.bind (·.get key)

/-- The string an optional value is. -/
def optString (v : Option Json) : Option JsString := v.bind Json.asString

theorem optString_eq_some {v : Option Json} {s : JsString} :
    optString v = some s ↔ v = some (.string s) := by
  rcases v with _ | ⟨_ | _ | _ | _ | _ | _⟩ <;> simp [optString, Json.asString]

namespace JsonParser

def quote : UInt16 := 0x22
def backslash : UInt16 := 0x5C
def comma : UInt16 := 0x2C
def colon : UInt16 := 0x3A
def openBracket : UInt16 := 0x5B
def closeBracket : UInt16 := 0x5D
def openBrace : UInt16 := 0x7B
def closeBrace : UInt16 := 0x7D

/-- JSON whitespace: tab, line feed, carriage return, space. -/
def isWs (c : UInt16) : Bool := c = 0x09 || c = 0x0A || c = 0x0D || c = 0x20

def isDigit (c : UInt16) : Bool := 0x30 ≤ c && c ≤ 0x39

def hexDigit (c : UInt16) : Option Nat :=
  if 0x30 ≤ c ∧ c ≤ 0x39 then some (c.toNat - 0x30)
  else if 0x41 ≤ c ∧ c ≤ 0x46 then some (c.toNat - 0x41 + 10)
  else if 0x61 ≤ c ∧ c ≤ 0x66 then some (c.toNat - 0x61 + 10)
  else none

/-- What a backslash and one more code unit stand for, `u` excepted. -/
def escape (c : UInt16) : Option UInt16 :=
  if c = quote ∨ c = backslash ∨ c = unit '/' then some c
  else if c = unit 'b' then some 0x08
  else if c = unit 'f' then some 0x0C
  else if c = unit 'n' then some 0x0A
  else if c = unit 'r' then some 0x0D
  else if c = unit 't' then some 0x09
  else none

def skipWs (s : JsString) : JsString := s.dropWhile isWs

/-- Skip whitespace, then take one given code unit. -/
def expect (c : UInt16) (s : JsString) : Option JsString :=
  match skipWs s with
  | [] => none
  | d :: r => if d = c then some r else none

theorem expect_eq_some {c : UInt16} {s r : JsString} :
    expect c s = some r ↔ skipWs s = c :: r := by
  unfold expect
  split <;> simp_all

/-- The four hexadecimal digits after a backslash and `u`. -/
def hexUnit (a b c d : UInt16) : Option UInt16 := do
  let a ← hexDigit a
  let b ← hexDigit b
  let c ← hexDigit c
  let d ← hexDigit d
  return (((a * 16 + b) * 16 + c) * 16 + d).toUInt16

/-- A string literal after its opening quote, and the text after its closing one. -/
def stringBody : JsString → Option (JsString × JsString)
  | [] => none
  | c :: cs =>
    if c = quote then some ([], cs)
    else if c = backslash then
      match cs with
      | [] => none
      | e :: rest =>
        if e = unit 'u' then
          match rest with
          | h₁ :: h₂ :: h₃ :: h₄ :: rest => do
            let u ← hexUnit h₁ h₂ h₃ h₄
            let (t, r) ← stringBody rest
            return (u :: t, r)
          | _ => none
        else do
          let u ← escape e
          let (t, r) ← stringBody rest
          return (u :: t, r)
    else if c < 0x20 then none
    else do
      let (t, r) ← stringBody cs
      return (c :: t, r)

def digitsValue (ds : JsString) : Nat := ds.foldl (fun n d => n * 10 + (d.toNat - 0x30)) 0

def pow10 (k : Int) : Rat :=
  if 0 ≤ k then Nat.pow 10 k.toNat else 1 / Nat.pow 10 (-k).toNat

/-- The digits a text starts with. -/
def digits (s : JsString) : JsString := s.takeWhile isDigit

def afterDigits (s : JsString) : JsString := s.dropWhile isDigit

/-- The digits after a point, none without a point. -/
def fraction (s : JsString) : Option (JsString × JsString) :=
  match s with
  | [] => some ([], [])
  | c :: cs =>
    if c = unit '.' then
      if digits cs = [] then none else some (digits cs, afterDigits cs)
    else some ([], c :: cs)

def sign (s : JsString) : Bool × JsString :=
  match s with
  | [] => (false, [])
  | c :: cs =>
    if c = unit '-' then (true, cs) else if c = unit '+' then (false, cs) else (false, c :: cs)

/-- The power of ten after an `e`, zero without one. -/
def exponent (s : JsString) : Option (Int × JsString) :=
  match s with
  | [] => some (0, [])
  | c :: cs =>
    if c = unit 'e' ∨ c = unit 'E' then
      let (negative, cs) := sign cs
      if digits cs = [] then none
      else
        let e := digitsValue (digits cs)
        some (if negative then -(e : Int) else e, afterDigits cs)
    else some (0, c :: cs)

/-- A number after its minus sign, if it has one. -/
def parseMagnitude (s : JsString) : Option (Rat × JsString) :=
  let whole := digits s
  if whole = [] ∨ (whole.head? = some (unit '0') ∧ 1 < whole.length) then none
  else do
    let (frac, r) ← fraction (afterDigits s)
    let (exp, r) ← exponent r
    return ((digitsValue (whole ++ frac) : Rat) * pow10 (exp - frac.length), r)

def parseNumber (s : JsString) : Option (JsNumber × JsString) :=
  if s.head? = some (unit '-') then
    (parseMagnitude (s.drop 1)).map fun (q, r) => (.round (-q), r)
  else (parseMagnitude s).map fun (q, r) => (.round q, r)

def literal (word : JsString) (v : Json) (s : JsString) : Option (Json × JsString) :=
  if word.isPrefixOf s then some (v, s.drop word.length) else none

/-- A value that is neither a string nor a container. -/
def parseScalar (s : JsString) : Option (Json × JsString) :=
  ((literal (js "true") (.bool true) s).or (literal (js "false") (.bool false) s)).or
    ((literal (js "null") .null s).or ((parseNumber s).map fun (n, r) => (.number n, r)))

/-- A repeated key keeps its first place and takes its last value. -/
def setMember (members : List (JsString × Json)) (key : JsString) (v : Json) :
    List (JsString × Json) :=
  if members.any (·.1 = key) then members.map fun m => if m.1 = key then (key, v) else m
  else members ++ [(key, v)]

mutual

def parseValue : Nat → JsString → Option (Json × JsString)
  | 0, _ => none
  | n + 1, s =>
    match skipWs s with
    | [] => none
    | c :: cs =>
      if c = openBrace then
        match expect closeBrace cs with
        | some r => some (.object [], r)
        | none => parseMembers n [] cs
      else if c = openBracket then
        match expect closeBracket cs with
        | some r => some (.array [], r)
        | none => parseElements n [] cs
      else if c = quote then (stringBody cs).map fun (t, r) => (.string t, r)
      else parseScalar (c :: cs)

/-- The members of an object from a key on, with those already read. -/
def parseMembers : Nat → List (JsString × Json) → JsString → Option (Json × JsString)
  | 0, _, _ => none
  | n + 1, members, s => do
    let s ← expect quote s
    let (key, s) ← stringBody s
    let s ← expect colon s
    let (v, s) ← parseValue n s
    match expect comma s with
    | some r => parseMembers n (setMember members key v) r
    | none => (expect closeBrace s).map fun r => (.object (setMember members key v), r)

def parseElements : Nat → List Json → JsString → Option (Json × JsString)
  | 0, _, _ => none
  | n + 1, items, s => do
    let (v, s) ← parseValue n s
    match expect comma s with
    | some r => parseElements n (items ++ [v]) r
    | none => (expect closeBracket s).map fun r => (.array (items ++ [v]), r)

end

end JsonParser

open JsonParser in
/-- `JSON.parse`; `none` is its `SyntaxError`. -/
def jsonParse (s : JsString) : Option Json :=
  match parseValue (2 * s.length + 1) s with
  | some (v, rest) => if skipWs rest = [] then some v else none
  | none => none

end TheokitGateways.Js
