import TheokitGateways.Js.JsonLex
import TheokitGateways.Js.NumberText
import TheokitGateways.Js.Unicode

/-!
# What `JSON.stringify` writes, `JSON.parse` reads

A value whose numbers are doubles and whose objects name no key twice is read back
as it was written (`jsonParse_stringify`). The text is one line of well-formed
UTF-16, so that it may go through a pipe as one line, in UTF-8.
-/

namespace TheokitGateways.Js

namespace JsonParser

/-! ### Strings -/

theorem hexDigit_hexDigitUnit : ∀ d < 16, hexDigit (hexDigitUnit d) = some d := by decide

theorem hexUnit_quoteUnit (c : UInt16) : hexUnit (hexDigitUnit (c.toNat / 0x1000))
    (hexDigitUnit (c.toNat / 0x100 % 16)) (hexDigitUnit (c.toNat / 16 % 16))
    (hexDigitUnit (c.toNat % 16)) = some c := by
  have hlt := c.toNat_lt
  rw [hexUnit, hexDigit_hexDigitUnit _ (by omega), hexDigit_hexDigitUnit _ (by omega),
    hexDigit_hexDigitUnit _ (by omega), hexDigit_hexDigitUnit _ (by omega)]
  have hvalue : ((c.toNat / 0x1000 * 16 + c.toNat / 0x100 % 16) * 16 + c.toNat / 16 % 16) * 16 +
      c.toNat % 16 = c.toNat := by omega
  simp only [Option.bind_eq_bind, Option.bind_some, hvalue]
  simp

theorem stringBody_quote (s : JsString) : stringBody (quote :: s) = some ([], s) := by
  rw [stringBody.eq_def]
  dsimp only
  rw [if_pos rfl]

theorem stringBody_plain {c : UInt16} (hquote : c ≠ quote) (hback : c ≠ backslash)
    (hcontrol : ¬c < 0x20) (s : JsString) :
    stringBody (c :: s) = (stringBody s).map fun (t, r) => (c :: t, r) := by
  rw [stringBody.eq_def]
  dsimp only
  rw [if_neg hquote, if_neg hback, if_neg hcontrol]
  cases stringBody s <;> rfl

theorem stringBody_of_isSurrogate {c : UInt16} (h : isSurrogate c = true) (s : JsString) :
    stringBody (c :: s) = (stringBody s).map fun (t, r) => (c :: t, r) := by
  refine stringBody_plain ?_ ?_ (fun hlt => ?_) s
  · rintro rfl
    cases h
  · rintro rfl
    cases h
  · simp only [isSurrogate, isHighSurrogate, isLowSurrogate, Bool.or_eq_true, Bool.and_eq_true,
      decide_eq_true_eq, UInt16.le_iff_toNat_le, UInt16.lt_iff_toNat_lt, UInt16.reduceToNat]
        at h hlt
    omega

theorem stringBody_escape {c u : UInt16} (hu : c ≠ unit 'u') (hescape : escape c = some u)
    (s : JsString) :
    stringBody (backslash :: c :: s) = (stringBody s).map fun (t, r) => (u :: t, r) := by
  rw [stringBody.eq_def]
  dsimp only
  rw [if_neg (by decide), if_pos rfl, if_neg hu, hescape]
  cases stringBody s <;> rfl

theorem stringBody_hex (c : UInt16) (s : JsString) :
    stringBody (js "\\u" ++ [hexDigitUnit (c.toNat / 0x1000), hexDigitUnit (c.toNat / 0x100 % 16),
      hexDigitUnit (c.toNat / 16 % 16), hexDigitUnit (c.toNat % 16)] ++ s) =
      (stringBody s).map fun (t, r) => (c :: t, r) := by
  show stringBody (backslash :: unit 'u' :: _ :: _ :: _ :: _ :: s) = _
  rw [stringBody.eq_def]
  dsimp only
  rw [if_neg (by decide), if_pos rfl, if_pos rfl, hexUnit_quoteUnit]
  cases stringBody s <;> rfl

/-- A unit is read as it was quoted. -/
theorem stringBody_quoteUnit (lone : Bool) (c : UInt16) (s : JsString) :
    stringBody (Json.quoteUnit lone c ++ s) = (stringBody s).map fun (t, r) => (c :: t, r) := by
  unfold Json.quoteUnit
  dsimp only
  split
  · rename_i hc
    obtain rfl | rfl := hc
    · exact stringBody_escape (by decide) (by decide) s
    · exact stringBody_escape (by decide) (by decide) s
  · rename_i hc
    split
    · subst c
      exact stringBody_escape (by decide) (by decide) s
    split
    · subst c
      exact stringBody_escape (by decide) (by decide) s
    split
    · subst c
      exact stringBody_escape (by decide) (by decide) s
    split
    · subst c
      exact stringBody_escape (by decide) (by decide) s
    split
    · subst c
      exact stringBody_escape (by decide) (by decide) s
    split
    · exact stringBody_hex c s
    · rename_i hplain
      rw [not_or] at hc hplain
      exact stringBody_plain hc.1 hc.2 hplain.1 s

theorem stringBody_quoteUnits (s r : JsString) :
    stringBody (Json.quoteUnits s ++ quote :: r) = some (s, r) := by
  fun_induction Json.quoteUnits s with
  | case1 =>
    exact stringBody_quote r
  | case2 u =>
    rw [stringBody_quoteUnit, stringBody_quote]
    rfl
  | case3 u v rest hpair ih =>
    obtain ⟨hu, hv⟩ := Bool.and_eq_true_iff.1 hpair
    rw [List.cons_append, List.cons_append, stringBody_of_isSurrogate (by simp [isSurrogate, hu]),
      stringBody_of_isSurrogate (by simp [isSurrogate, hv]), ih]
    rfl
  | case4 u v rest hpair ih =>
    rw [List.append_assoc, stringBody_quoteUnit, ih]
    rfl

/-! ### Values -/

end JsonParser

namespace Json

mutual

/-- A value that `JSON.stringify` writes in full: its numbers are doubles, and its objects name no
key twice. -/
def Writable : Json → Prop
  | .null | .bool _ | .string _ => True
  | .number n => ∃ q, n = .finite q ∧ JsNumber.round q = .finite q
  | .array items => WritableItems items
  | .object members => (members.map Prod.fst).Nodup ∧ WritableMembers members

def WritableItems : List Json → Prop
  | [] => True
  | v :: items => v.Writable ∧ WritableItems items

def WritableMembers : List (JsString × Json) → Prop
  | [] => True
  | (_, v) :: members => v.Writable ∧ WritableMembers members

end

mutual

def decidableWritable : (v : Json) → Decidable v.Writable
  | .null | .bool _ | .string _ => .isTrue trivial
  | .number (.finite q) =>
    decidable_of_iff (JsNumber.round q = .finite q)
      ⟨fun h => ⟨q, rfl, h⟩, fun ⟨_, heq, h⟩ => by cases heq; exact h⟩
  | .number .nan | .number (.infinite _) => .isFalse fun ⟨_, heq, _⟩ => nomatch heq
  | .array items => decidableWritableItems items
  | .object members =>
    have := decidableWritableMembers members
    inferInstanceAs (Decidable ((members.map Prod.fst).Nodup ∧ WritableMembers members))

def decidableWritableItems : (items : List Json) → Decidable (WritableItems items)
  | [] => .isTrue trivial
  | v :: items =>
    have := decidableWritable v
    have := decidableWritableItems items
    inferInstanceAs (Decidable (v.Writable ∧ WritableItems items))

def decidableWritableMembers : (members : List (JsString × Json)) →
    Decidable (WritableMembers members)
  | [] => .isTrue trivial
  | (_, v) :: members =>
    have := decidableWritable v
    have := decidableWritableMembers members
    inferInstanceAs (Decidable (v.Writable ∧ WritableMembers members))

end

instance (v : Json) : Decidable v.Writable := decidableWritable v

end Json

namespace JsonParser

/-- What stands behind a value in a JSON text. -/
def Follows (r : JsString) : Prop :=
  ∀ c ∈ r.head?, c = comma ∨ c = closeBracket ∨ c = closeBrace

theorem Follows.endsNumber {r : JsString} (h : Follows r) : EndsNumber r := by
  intro c hc
  obtain rfl | rfl | rfl := h c hc <;> decide

theorem expect_cons {c : UInt16} (hc : isWs c = false) (s : JsString) :
    expect c (c :: s) = some s := by
  rw [expect_eq_some, skipWs, List.dropWhile_cons_of_neg (by simp [hc])]

theorem expect_other {c d : UInt16} (hd : isWs d = false) (hne : d ≠ c) (s : JsString) :
    expect c (d :: s) = none := by
  rw [expect, skipWs, List.dropWhile_cons_of_neg (by simp [hd])]
  simp [hne]

theorem literal_self (word : JsString) (v : Json) (r : JsString) :
    literal word v (word ++ r) = some (v, r) := by
  rw [literal, if_pos (List.isPrefixOf_iff_prefix.2 (List.prefix_append word r)),
    List.drop_left]

theorem literal_other {w c : UInt16} (h : w ≠ c) (word : JsString) (v : Json) (s : JsString) :
    literal (w :: word) v (c :: s) = none := by
  rw [literal, if_neg]
  intro hprefix
  exact h (List.cons_prefix_cons.1 (List.isPrefixOf_iff_prefix.1 hprefix)).1

/-- The first unit of a number. -/
def StartsNumber (c : UInt16) : Prop := c = unit '-' ∨ isDigit c = true

theorem head?_of_parseNumber {s r : JsString} {n : JsNumber} (h : parseNumber s = some (n, r)) :
    ∃ c cs, s = c :: cs ∧ StartsNumber c := by
  cases s with
  | nil => cases h
  | cons c cs =>
    refine ⟨c, cs, rfl, ?_⟩
    by_cases hminus : c = unit '-'
    · exact .inl hminus
    · refine .inr (Bool.of_not_eq_false fun hdigit => ?_)
      have hnone : parseMagnitude (c :: cs) = none := by
        rw [parseMagnitude, if_pos (.inl (by simp [digits, hdigit]))]
      rw [parseNumber, if_neg (by simpa using hminus), hnone] at h
      cases h

/-- The first unit of a value's text tells which kind of value it is. -/
structure Starts (c : UInt16) : Prop where
  notWs : isWs c = false
  notCloseBracket : c ≠ closeBracket
  notCloseBrace : c ≠ closeBrace
  notComma : c ≠ comma

theorem StartsNumber.starts {c : UInt16} (h : StartsNumber c) : Starts c ∧
    c ≠ openBrace ∧ c ≠ openBracket ∧ c ≠ quote ∧
      c ≠ unit 't' ∧ c ≠ unit 'f' ∧ c ≠ unit 'n' := by
  have hrange : c = unit '-' ∨ (0x30 ≤ c ∧ c ≤ 0x39) := by
    simpa only [StartsNumber, isDigit, Bool.and_eq_true, decide_eq_true_eq] using h
  have hne (d : UInt16) (hd : d ≠ unit '-' ∧ (d < 0x30 ∨ 0x39 < d)) : c ≠ d := by
    rintro rfl
    obtain hminus | ⟨hge, hle⟩ := hrange
    · exact hd.1 hminus
    · exact hd.2.elim (fun hlt => UInt16.not_le.2 hlt hge) fun hgt => UInt16.not_le.2 hgt hle
  refine ⟨⟨?_, hne _ (by decide), hne _ (by decide), hne _ (by decide)⟩, hne _ (by decide),
    hne _ (by decide), hne _ (by decide), hne _ (by decide), hne _ (by decide), hne _ (by decide)⟩
  simp [isWs, hne 0x09 (by decide), hne 0x0A (by decide), hne 0x0D (by decide),
    hne 0x20 (by decide)]

theorem parseScalar_number {s r : JsString} {n : JsNumber} (h : parseNumber s = some (n, r)) :
    parseScalar s = some (.number n, r) := by
  obtain ⟨c, cs, rfl, hc⟩ := head?_of_parseNumber h
  obtain ⟨_, _, _, _, ht, hf, hn⟩ := hc.starts
  have htrue : literal (js "true") (.bool true) (c :: cs) = none := literal_other ht.symm ..
  have hfalse : literal (js "false") (.bool false) (c :: cs) = none := literal_other hf.symm ..
  have hnull : literal (js "null") .null (c :: cs) = none := literal_other hn.symm ..
  rw [parseScalar, htrue, hfalse, hnull, h]
  rfl

/-- A value that is not a container is read by its first unit. -/
theorem parseValue_scalar {n : Nat} {c : UInt16} {s r : JsString} {v : Json} (hws : isWs c = false)
    (hc : c ≠ openBrace ∧ c ≠ openBracket ∧ c ≠ quote) (h : parseScalar (c :: s) = some (v, r)) :
    parseValue (n + 1) (c :: s) = some (v, r) := by
  rw [parseValue, skipWs, List.dropWhile_cons_of_neg (by simp [hws])]
  dsimp only
  rw [if_neg hc.1, if_neg hc.2.1, if_neg hc.2.2, h]

theorem parseValue_string {n : Nat} (t r : JsString) :
    parseValue (n + 1) (Json.quoteString t ++ r) = some (.string t, r) := by
  have hshape : Json.quoteString t ++ r = quote :: (Json.quoteUnits t ++ quote :: r) := by
    simp [Json.quoteString, quote]
  rw [hshape, parseValue, skipWs, List.dropWhile_cons_of_neg (by decide)]
  dsimp only
  rw [if_neg (by decide), if_neg (by decide), if_pos rfl, stringBody_quoteUnits]
  rfl

/-- An array that is not empty is read by its elements. -/
theorem parseValue_array {n : Nat} {c : UInt16} (hc : Starts c) (s : JsString) :
    parseValue (n + 1) (openBracket :: c :: s) = parseElements n [] (c :: s) := by
  rw [parseValue, skipWs, List.dropWhile_cons_of_neg (by decide)]
  dsimp only
  rw [if_neg (by decide), if_pos rfl, expect_other hc.notWs hc.notCloseBracket]

theorem parseValue_nil_array {n : Nat} (r : JsString) :
    parseValue (n + 1) (openBracket :: closeBracket :: r) = some (.array [], r) := by
  rw [parseValue, skipWs, List.dropWhile_cons_of_neg (by decide)]
  dsimp only
  rw [if_neg (by decide), if_pos rfl, expect_cons (by decide)]

/-- An object that is not empty is read by its members. -/
theorem parseValue_object {n : Nat} (s : JsString) :
    parseValue (n + 1) (openBrace :: quote :: s) = parseMembers n [] (quote :: s) := by
  rw [parseValue, skipWs, List.dropWhile_cons_of_neg (by decide)]
  dsimp only
  rw [if_pos rfl, expect_other (by decide) (by decide)]

theorem parseValue_nil_object {n : Nat} (r : JsString) :
    parseValue (n + 1) (openBrace :: closeBrace :: r) = some (.object [], r) := by
  rw [parseValue, skipWs, List.dropWhile_cons_of_neg (by decide)]
  dsimp only
  rw [if_pos rfl, expect_cons (by decide)]

theorem follows_comma (s : JsString) : Follows (comma :: s) := fun _ hc => by
  cases hc
  exact .inl rfl

theorem follows_closeBracket (s : JsString) : Follows (closeBracket :: s) := fun _ hc => by
  cases hc
  exact .inr (.inl rfl)

theorem follows_closeBrace (s : JsString) : Follows (closeBrace :: s) := fun _ hc => by
  cases hc
  exact .inr (.inr rfl)

theorem parseElements_last {n : Nat} {s r : JsString} {v : Json} (items : List Json)
    (h : parseValue n s = some (v, closeBracket :: r)) :
    parseElements (n + 1) items s = some (.array (items ++ [v]), r) := by
  rw [parseElements]
  simp only [h, Option.bind_eq_bind, Option.bind_some]
  rw [expect_other (by decide) (by decide), expect_cons (by decide)]
  rfl

theorem parseElements_more {n : Nat} {s r : JsString} {v : Json} (items : List Json)
    (h : parseValue n s = some (v, comma :: r)) :
    parseElements (n + 1) items s = parseElements n (items ++ [v]) r := by
  rw [parseElements]
  simp only [h, Option.bind_eq_bind, Option.bind_some]
  rw [expect_cons (by decide)]

theorem setMember_new {members : List (JsString × Json)} {key : JsString}
    (h : key ∉ members.map Prod.fst) (v : Json) :
    setMember members key v = members ++ [(key, v)] := by
  rw [setMember, if_neg]
  rw [List.any_eq_true]
  rintro ⟨m, hm, hkey⟩
  exact h (List.mem_map.2 ⟨m, hm, of_decide_eq_true hkey⟩)

section
variable {n : Nat} {key s r : JsString} {v : Json} {members : List (JsString × Json)}

/-- A member is read up to what follows its value. -/
theorem parseMembers_key (h : parseValue n s = some (v, r)) :
    parseMembers (n + 1) members (Json.quoteString key ++ colon :: s) =
      match expect comma r with
      | some r => parseMembers n (setMember members key v) r
      | none => (expect closeBrace r).map fun r => (.object (setMember members key v), r) := by
  have hshape : Json.quoteString key ++ colon :: s =
      quote :: (Json.quoteUnits key ++ quote :: colon :: s) := by
    simp [Json.quoteString, quote]
  rw [hshape, parseMembers]
  cases hcomma : expect comma r with
  | none | some _ =>
    simp only [expect_cons (show isWs quote = false by decide), stringBody_quoteUnits,
      expect_cons (show isWs colon = false by decide), h, hcomma, Option.bind_eq_bind,
      Option.bind_some]

theorem parseMembers_last (hkey : key ∉ members.map Prod.fst)
    (h : parseValue n s = some (v, closeBrace :: r)) :
    parseMembers (n + 1) members (Json.quoteString key ++ colon :: s) =
      some (.object (members ++ [(key, v)]), r) := by
  rw [parseMembers_key h, expect_other (by decide) (by decide), expect_cons (by decide),
    setMember_new hkey]
  rfl

theorem parseMembers_more (hkey : key ∉ members.map Prod.fst)
    (h : parseValue n s = some (v, comma :: r)) :
    parseMembers (n + 1) members (Json.quoteString key ++ colon :: s) =
      parseMembers n (members ++ [(key, v)]) r := by
  rw [parseMembers_key h, expect_cons (by decide), setMember_new hkey]

end

theorem starts_stringify {v : Json} (hv : v.Writable) :
    ∃ c cs, v.stringify = c :: cs ∧ Starts c := by
  cases v with
  | null => exact ⟨unit 'n', js "ull", rfl, by constructor <;> decide⟩
  | bool b =>
    cases b
    · exact ⟨unit 'f', js "alse", rfl, by constructor <;> decide⟩
    · exact ⟨unit 't', js "rue", rfl, by constructor <;> decide⟩
  | number n =>
    obtain ⟨q, rfl, hdouble⟩ := hv
    have hread := parseNumber_toStr (r := []) hdouble (fun _ hc => nomatch hc)
    obtain ⟨c, cs, htext, hc⟩ := head?_of_parseNumber hread
    rw [List.append_nil] at htext
    exact ⟨c, cs, htext, hc.starts.1⟩
  | string s => exact ⟨quote, _, rfl, by constructor <;> decide⟩
  | array items => exact ⟨openBracket, _, rfl, by constructor <;> decide⟩
  | object members => exact ⟨openBrace, _, rfl, by constructor <;> decide⟩

theorem parseScalar_null (r : JsString) : parseScalar (js "null" ++ r) = some (.null, r) := by
  have htrue : literal (js "true") (.bool true) (js "null" ++ r) = none :=
    literal_other (show unit 't' ≠ unit 'n' by decide) ..
  have hfalse : literal (js "false") (.bool false) (js "null" ++ r) = none :=
    literal_other (show unit 'f' ≠ unit 'n' by decide) ..
  rw [parseScalar, htrue, hfalse, literal_self]
  rfl

theorem parseScalar_bool (b : Bool) (r : JsString) :
    parseScalar ((if b then js "true" else js "false") ++ r) = some (.bool b, r) := by
  cases b with
  | true =>
    rw [if_pos rfl, parseScalar, literal_self]
    rfl
  | false =>
    have htrue : literal (js "true") (.bool true) (js "false" ++ r) = none :=
      literal_other (show unit 't' ≠ unit 'f' by decide) ..
    rw [if_neg (by decide), parseScalar, htrue, literal_self]
    rfl

/-- A text that is read as no container is read as a value from its first unit. -/
theorem parseValue_of_parseScalar {n : Nat} {s r : JsString} {v : Json}
    (hs : ∃ c cs, s = c :: cs ∧ isWs c = false ∧ c ≠ openBrace ∧ c ≠ openBracket ∧ c ≠ quote)
    (h : parseScalar s = some (v, r)) : parseValue (n + 1) s = some (v, r) := by
  obtain ⟨c, cs, rfl, hws, hc⟩ := hs
  exact parseValue_scalar hws hc h

theorem stringify_array (v : Json) (items : List Json) (r : JsString) :
    (Json.array (v :: items)).stringify ++ r =
      openBracket :: ([comma].intercalate (Json.stringifyItems (v :: items)) ++
        closeBracket :: r) := by
  simp [Json.stringify, comma, openBracket, closeBracket, unit]

theorem stringify_object (m : JsString × Json) (members : List (JsString × Json)) (r : JsString) :
    (Json.object (m :: members)).stringify ++ r = openBrace ::
      ([comma].intercalate (Json.stringifyMembers (m :: members)) ++ closeBrace :: r) := by
  simp [Json.stringify, comma, openBrace, closeBrace, unit]

/-- The text of an array's elements starts as the first of them does. -/
theorem starts_intercalate {v : Json} {items : List Json}
    (hv : Json.WritableItems (v :: items)) :
    ∃ c cs, [comma].intercalate (Json.stringifyItems (v :: items)) = c :: cs ∧ Starts c := by
  obtain ⟨c, cs, hshape, hc⟩ := starts_stringify hv.1
  cases items with
  | nil => exact ⟨c, cs, by simp [Json.stringifyItems, List.intercalate, hshape], hc⟩
  | cons w items =>
    refine ⟨c, cs ++ ([comma] ++ [comma].intercalate (Json.stringifyItems (w :: items))), ?_, hc⟩
    rw [Json.stringifyItems, Json.stringifyItems, intercalate_cons_cons, hshape]
    rfl

theorem key_notMem {key : JsString} {v : Json} {before members : List (JsString × Json)}
    (h : ((before ++ (key, v) :: members).map Prod.fst).Nodup) : key ∉ before.map Prod.fst := by
  rw [List.map_append, List.nodup_append] at h
  intro hmem
  exact h.2.2 key hmem key List.mem_cons_self rfl

mutual

/-- The text of a value, with what follows it in a JSON text, is read as the value. -/
theorem parseValue_stringify : ∀ (v : Json), v.Writable → ∀ (r : JsString) (n : Nat), Follows r →
    2 * (v.stringify ++ r).length < n → parseValue n (v.stringify ++ r) = some (v, r)
  | v, _, r, 0, _, hn => absurd hn (Nat.not_lt_zero _)
  | .null, _, r, n + 1, _, _ =>
    parseValue_of_parseScalar ⟨unit 'n', _, rfl, by decide⟩ (parseScalar_null r)
  | .bool b, _, r, n + 1, _, _ => by
    refine parseValue_of_parseScalar ?_ (parseScalar_bool b r)
    cases b
    · exact ⟨unit 'f', _, rfl, by decide⟩
    · exact ⟨unit 't', _, rfl, by decide⟩
  | .number x, hv, r, n + 1, hr, _ => by
    obtain ⟨q, rfl, hdouble⟩ := hv
    have hread := parseNumber_toStr hdouble hr.endsNumber
    obtain ⟨c, cs, hshape, hc⟩ := head?_of_parseNumber hread
    obtain ⟨hstarts, hbrace, hbracket, hquote, _⟩ := hc.starts
    exact parseValue_of_parseScalar ⟨c, cs, hshape, hstarts.notWs, hbrace, hbracket, hquote⟩
      (parseScalar_number hread)
  | .string s, _, r, n + 1, _, _ => parseValue_string s r
  | .array [], _, r, n + 1, _, _ => parseValue_nil_array r
  | .array (v :: items), hv, r, n + 1, hr, hn => by
    obtain ⟨c, cs, hshape, hc⟩ := starts_intercalate hv
    have hread := parseElements_stringify (v :: items) (List.cons_ne_nil _ _) hv [] r n
    rw [stringify_array] at hn ⊢
    rw [List.length_cons] at hn
    rw [hshape, List.cons_append, parseValue_array hc, ← List.cons_append, ← hshape]
    exact hread (by omega)
  | .object [], _, r, n + 1, _, _ => parseValue_nil_object r
  | .object ((key, v) :: members), hv, r, n + 1, hr, hn => by
    have hread := parseMembers_stringify ((key, v) :: members) (List.cons_ne_nil _ _) hv.2
      [] r n hv.1
    rw [stringify_object] at hn ⊢
    rw [List.length_cons] at hn
    obtain ⟨s, hshape⟩ : ∃ s, [comma].intercalate (Json.stringifyMembers ((key, v) :: members)) ++
        closeBrace :: r = quote :: s := by
      cases members with
      | nil => exact ⟨_, rfl⟩
      | cons m members => exact ⟨_, rfl⟩
    rw [hshape, parseValue_object, ← hshape]
    exact hread (by omega)

/-- The elements of an array are read after those that were. -/
theorem parseElements_stringify : ∀ (items : List Json), items ≠ [] → Json.WritableItems items →
    ∀ (before : List Json) (r : JsString) (n : Nat),
      2 * ([comma].intercalate (Json.stringifyItems items) ++ closeBracket :: r).length + 1 < n →
      parseElements n before ([comma].intercalate (Json.stringifyItems items) ++
        closeBracket :: r) =
        some (.array (before ++ items), r)
  | _, _, _, _, _, 0, hn => absurd hn (Nat.not_lt_zero _)
  | [], hne, _, _, _, _, _ => absurd rfl hne
  | [v], _, hv, before, r, n + 1, hn => by
    have hshape : [comma].intercalate (Json.stringifyItems [v]) ++ closeBracket :: r =
        v.stringify ++ closeBracket :: r := by simp [Json.stringifyItems, List.intercalate]
    rw [hshape] at hn ⊢
    exact parseElements_last before
      (parseValue_stringify v hv.1 _ n (follows_closeBracket r) (by omega))
  | v :: w :: items, _, hv, before, r, n + 1, hn => by
    have hshape : [comma].intercalate (Json.stringifyItems (v :: w :: items)) ++ closeBracket :: r =
        v.stringify ++ comma ::
          ([comma].intercalate (Json.stringifyItems (w :: items)) ++ closeBracket :: r) := by
      rw [Json.stringifyItems, Json.stringifyItems, intercalate_cons_cons]
      simp
    have hread := parseElements_stringify (w :: items) (List.cons_ne_nil _ _) hv.2
      (before ++ [v]) r n
    rw [hshape] at hn ⊢
    rw [parseElements_more before (parseValue_stringify v hv.1 _ n (follows_comma _) (by omega)),
      hread, List.append_assoc]
    · rfl
    · simp only [List.length_append, List.length_cons] at hn ⊢
      omega

/-- The members of an object are read after those that were. -/
theorem parseMembers_stringify : ∀ (members : List (JsString × Json)), members ≠ [] →
    Json.WritableMembers members → ∀ (before : List (JsString × Json)) (r : JsString) (n : Nat),
      ((before ++ members).map Prod.fst).Nodup →
      2 * ([comma].intercalate (Json.stringifyMembers members) ++ closeBrace :: r).length + 1 < n →
      parseMembers n before ([comma].intercalate (Json.stringifyMembers members) ++
        closeBrace :: r) =
        some (.object (before ++ members), r)
  | _, _, _, _, _, 0, _, hn => absurd hn (Nat.not_lt_zero _)
  | [], hne, _, _, _, _, _, _ => absurd rfl hne
  | [(key, v)], _, hv, before, r, n + 1, hkeys, hn => by
    have hshape : [comma].intercalate (Json.stringifyMembers [(key, v)]) ++ closeBrace :: r =
        Json.quoteString key ++ colon :: (v.stringify ++ closeBrace :: r) := by
      simp [Json.stringifyMembers, List.intercalate, colon, unit]
    have hread := parseValue_stringify v hv.1 (closeBrace :: r) n (follows_closeBrace r)
    rw [hshape] at hn ⊢
    rw [List.length_append, List.length_cons] at hn
    exact parseMembers_last (key_notMem hkeys) (hread (by omega))
  | (key, v) :: m :: members, _, hv, before, r, n + 1, hkeys, hn => by
    have hshape : [comma].intercalate (Json.stringifyMembers ((key, v) :: m :: members)) ++
        closeBrace :: r = Json.quoteString key ++ colon :: (v.stringify ++ comma ::
          ([comma].intercalate (Json.stringifyMembers (m :: members)) ++ closeBrace :: r)) := by
      obtain ⟨key', v'⟩ := m
      rw [Json.stringifyMembers, Json.stringifyMembers, intercalate_cons_cons]
      simp [colon, unit]
    have hfirst := parseValue_stringify v hv.1 (comma ::
      ([comma].intercalate (Json.stringifyMembers (m :: members)) ++ closeBrace :: r)) n
      (follows_comma _)
    have hread := parseMembers_stringify (m :: members) (List.cons_ne_nil _ _) hv.2
      (before ++ [(key, v)]) r n (by simpa using hkeys)
    rw [hshape] at hn ⊢
    simp only [List.length_append, List.length_cons] at hn hfirst hread
    rw [parseMembers_more (key_notMem hkeys) (hfirst (by omega)), hread (by omega),
      List.append_assoc]
    rfl

end

end JsonParser

/-- What `JSON.stringify` writes, `JSON.parse` reads. -/
theorem jsonParse_stringify {v : Json} (hv : v.Writable) : jsonParse v.stringify = some v := by
  have hread := JsonParser.parseValue_stringify v hv [] (2 * v.stringify.length + 1)
    (fun _ hc => nomatch hc) (by simp)
  rw [List.append_nil] at hread
  rw [jsonParse, hread]
  rfl

/-! ### The units of a JSON text -/

/-- No unit of the text is a control character. -/
def Visible (s : JsString) : Prop := ∀ c ∈ s, 0x20 ≤ c

instance (s : JsString) : Decidable (Visible s) := List.decidableBAll _ s

theorem Visible.append {s t : JsString} (hs : Visible s) (ht : Visible t) : Visible (s ++ t) :=
  fun c hc => (List.mem_append.1 hc).elim (hs c) (ht c)

theorem visible_cons {c : UInt16} {s : JsString} : Visible (c :: s) ↔ 0x20 ≤ c ∧ Visible s :=
  List.forall_mem_cons

theorem visible_of_areDigits {s : JsString} (h : JsonParser.AreDigits s) : Visible s := by
  intro c hc
  have hdigit := h c hc
  simp only [JsonParser.isDigit, Bool.and_eq_true, decide_eq_true_eq] at hdigit
  exact UInt16.le_trans (by decide) hdigit.1

theorem visible_intercalate {sep : JsString} (hsep : Visible sep) {xs : List JsString}
    (hxs : ∀ x ∈ xs, Visible x) : Visible (sep.intercalate xs) := by
  intro c hc
  refine UInt16.not_lt.1 fun hlt => ?_
  refine notMem_intercalate (fun hmem => ?_) (fun x hx hmem => ?_) hc
  · exact UInt16.not_le.2 hlt (hsep c hmem)
  · exact UInt16.not_le.2 hlt (hxs x hx c hmem)

theorem visible_placePoint {ds : JsString} (h : Visible ds) (n : Int) :
    Visible (JsNumber.placePoint ds n) := by
  have hzeros (k : Nat) : Visible (List.replicate k (unit '0')) := fun c hc => by
    cases List.eq_of_mem_replicate hc
    decide
  have htake : Visible (ds.take n.toNat) := fun c hc => h c (List.mem_of_mem_take hc)
  have hdrop : Visible (ds.drop n.toNat) := fun c hc => h c (List.mem_of_mem_drop hc)
  have hone : Visible (ds.take 1) := fun c hc => h c (List.mem_of_mem_take hc)
  have hrest : Visible (ds.drop 1) := fun c hc => h c (List.mem_of_mem_drop hc)
  have hexp (k : Int) : Visible ((if 0 ≤ k then js "e+" else js "e-") ++ natText k.natAbs) := by
    refine Visible.append ?_ (visible_of_areDigits (JsonParser.areDigits_natText _))
    split <;> decide
  unfold JsNumber.placePoint
  dsimp only
  split
  · exact h.append (hzeros _)
  split
  · exact htake.append (visible_cons.2 ⟨by decide, hdrop⟩)
  split
  · exact ((show Visible (js "0.") by decide).append (hzeros _)).append h
  split
  · exact h.append (hexp _)
  · exact (hone.append (visible_cons.2 ⟨by decide, hrest⟩)).append (hexp _)

theorem visible_toStr (n : JsNumber) : Visible n.toStr := by
  have hpositive (q : Rat) : Visible (JsNumber.positiveText q) := by
    refine visible_placePoint (fun c hc => ?_) _
    have hmem := (List.dropWhile_suffix _).subset (List.mem_reverse.1 hc)
    exact visible_of_areDigits (JsonParser.areDigits_natText _) c (List.mem_reverse.1 hmem)
  cases n with
  | nan => exact (by decide : Visible (js "NaN"))
  | infinite negative =>
    cases negative
    · exact (by decide : Visible (js "Infinity"))
    · exact (by decide : Visible (js "-Infinity"))
  | finite q =>
    unfold JsNumber.toStr
    dsimp only
    split
    · decide
    · split
      · exact visible_cons.2 ⟨by decide, hpositive _⟩
      · exact hpositive _

namespace Json

/-- A quoted unit is the unit itself, or is written in ASCII. -/
theorem mem_quoteUnit {lone : Bool} {c u : UInt16} (h : c ∈ quoteUnit lone u) :
    0x20 ≤ c ∧ (c = u ∨ c < 0x80) := by
  have hhex : ∀ d < 16, 0x20 ≤ hexDigitUnit d ∧ hexDigitUnit d < 0x80 := by decide
  have hascii {w : JsString} (hw : ∀ d ∈ w, 0x20 ≤ d ∧ d < 0x80) (hc : c ∈ w) :
      0x20 ≤ c ∧ (c = u ∨ c < 0x80) := ⟨(hw c hc).1, .inr (hw c hc).2⟩
  have hfixed {w : JsString} (hw : w.all (fun d => 0x20 ≤ d ∧ d < 0x80) = true) (hc : c ∈ w) :
      0x20 ≤ c ∧ (c = u ∨ c < 0x80) :=
    hascii (fun d hd => of_decide_eq_true (List.all_eq_true.1 hw d hd)) hc
  unfold quoteUnit at h
  dsimp only at h
  split at h
  · rename_i hu
    obtain rfl | rfl := hu <;> exact hfixed (by decide) h
  split at h
  · exact hfixed (by decide) h
  split at h
  · exact hfixed (by decide) h
  split at h
  · exact hfixed (by decide) h
  split at h
  · exact hfixed (by decide) h
  split at h
  · exact hfixed (by decide) h
  split at h
  · have hlt := u.toNat_lt
    obtain hc | hc := List.mem_append.1 h
    · exact hfixed (by decide) hc
    · refine hascii ?_ hc
      simp only [List.forall_mem_cons, List.not_mem_nil, false_implies, implies_true, and_true]
      exact ⟨hhex _ (by omega), hhex _ (by omega), hhex _ (by omega), hhex _ (by omega)⟩
  · rename_i hplain
    rw [List.mem_singleton] at h
    rw [not_or, UInt16.not_lt] at hplain
    exact ⟨h ▸ hplain.1, .inl h⟩

theorem mem_quoteUnits {c : UInt16} {s : JsString} (h : c ∈ quoteUnits s) :
    0x20 ≤ c ∧ (c ∈ s ∨ c < 0x80) := by
  fun_induction quoteUnits s with
  | case1 => cases h
  | case2 u =>
    obtain ⟨hvisible, hc⟩ := mem_quoteUnit h
    exact ⟨hvisible, hc.imp_left List.mem_singleton.2⟩
  | case3 u v rest hpair ih =>
    obtain ⟨hu, hv⟩ := Bool.and_eq_true_iff.1 hpair
    simp only [isHighSurrogate, isLowSurrogate, Bool.and_eq_true, decide_eq_true_eq] at hu hv
    obtain rfl | hc := List.mem_cons.1 h
    · exact ⟨UInt16.le_trans (by decide) hu.1, .inl List.mem_cons_self⟩
    obtain rfl | hc := List.mem_cons.1 hc
    · exact ⟨UInt16.le_trans (by decide) hv.1, .inl (by simp)⟩
    · obtain ⟨hvisible, hc⟩ := ih hc
      exact ⟨hvisible, hc.imp_left fun hmem => by simp [hmem]⟩
  | case4 u v rest hpair ih =>
    obtain hc | hc := List.mem_append.1 h
    · obtain ⟨hvisible, hc⟩ := mem_quoteUnit hc
      exact ⟨hvisible, hc.imp_left fun heq => by simp [heq]⟩
    · obtain ⟨hvisible, hc⟩ := ih hc
      exact ⟨hvisible, hc.imp_left (List.mem_cons_of_mem u)⟩

theorem visible_quoteString (s : JsString) : Visible (quoteString s) := by
  refine visible_cons.2 ⟨by decide, Visible.append (fun c hc => (mem_quoteUnits hc).1) ?_⟩
  decide

mutual

/-- A JSON text has no line break in it. -/
theorem visible_stringify : ∀ v : Json, Visible v.stringify
  | .null => (by decide : Visible (js "null"))
  | .bool true => (by decide : Visible (js "true"))
  | .bool false => (by decide : Visible (js "false"))
  | .number n => by
    unfold stringify
    split
    · exact visible_toStr n
    · decide
  | .string s => visible_quoteString s
  | .array items => by
    unfold stringify
    refine visible_cons.2 ⟨by decide, Visible.append ?_ (by decide)⟩
    exact visible_intercalate (by decide) (visible_stringifyItems items)
  | .object members => by
    unfold stringify
    refine visible_cons.2 ⟨by decide, Visible.append ?_ (by decide)⟩
    exact visible_intercalate (by decide) (visible_stringifyMembers members)

theorem visible_stringifyItems : ∀ items : List Json, ∀ x ∈ stringifyItems items, Visible x
  | [], _, hx => nomatch hx
  | v :: items, x, hx => by
    obtain rfl | hx := List.mem_cons.1 hx
    · exact visible_stringify v
    · exact visible_stringifyItems items x hx

theorem visible_stringifyMembers :
    ∀ members : List (JsString × Json), ∀ x ∈ stringifyMembers members, Visible x
  | [], _, hx => nomatch hx
  | (key, v) :: members, x, hx => by
    obtain rfl | hx := List.mem_cons.1 hx
    · exact (visible_quoteString key).append (visible_cons.2 ⟨by decide, visible_stringify v⟩)
    · exact visible_stringifyMembers members x hx

end

end Json

end TheokitGateways.Js
