import TheokitGateways.Js.Text

/-!
# Bytes of strings

`Buffer.from(s)` and `buffer.toString()` go through UTF-8: a lone surrogate is
encoded as U+FFFD, and every maximal ill-formed run of bytes decodes to U+FFFD.
The base64url decoder is as lenient as the runtime's: it takes both alphabets,
skips what belongs to neither and stops at the first `=`.
-/

namespace TheokitGateways.Js

/-- What stands for ill-formed text. -/
def replacement : Nat := 0xFFFD

def isHighSurrogate (u : UInt16) : Bool := 0xD800 ≤ u && u ≤ 0xDBFF

def isLowSurrogate (u : UInt16) : Bool := 0xDC00 ≤ u && u ≤ 0xDFFF

/-- The code points of a string, U+FFFD for each lone surrogate. -/
def codePoints : JsString → List Nat
  | [] => []
  | [u] => [if isHighSurrogate u || isLowSurrogate u then replacement else u.toNat]
  | u :: v :: rest =>
    if isHighSurrogate u && isLowSurrogate v then
      (0x10000 + (u.toNat - 0xD800) * 0x400 + (v.toNat - 0xDC00)) :: codePoints rest
    else
      (if isHighSurrogate u || isLowSurrogate u then replacement else u.toNat) ::
        codePoints (v :: rest)

/-- The code units of a code point. -/
def pointUnits (n : Nat) : JsString :=
  if n < 0x10000 then [n.toUInt16]
  else [(0xD800 + (n - 0x10000) / 0x400).toUInt16, (0xDC00 + (n - 0x10000) % 0x400).toUInt16]

/-- The UTF-8 bytes of a code point. -/
def pointBytes (n : Nat) : List UInt8 :=
  if n < 0x80 then [n.toUInt8]
  else if n < 0x800 then [(0xC0 + n / 0x40).toUInt8, (0x80 + n % 0x40).toUInt8]
  else if n < 0x10000 then
    [(0xE0 + n / 0x1000).toUInt8, (0x80 + n / 0x40 % 0x40).toUInt8, (0x80 + n % 0x40).toUInt8]
  else
    [(0xF0 + n / 0x40000).toUInt8, (0x80 + n / 0x1000 % 0x40).toUInt8,
      (0x80 + n / 0x40 % 0x40).toUInt8, (0x80 + n % 0x40).toUInt8]

/-- `Buffer.from(s)`. -/
def utf8Encode (s : JsString) : List UInt8 := (codePoints s).flatMap pointBytes

/-- A character under way: how many bytes it still needs, the range its next byte must be
in, and the bits read so far. -/
structure Pending where
  needed : Nat
  lower : UInt8
  upper : UInt8
  bits : Nat

/-- What the first byte of a character announces: the character itself, more bytes, or
`none` when no character starts with it. -/
def leadByte (b : UInt8) : Option (Nat ⊕ Pending) :=
  if b < 0x80 then some (.inl b.toNat)
  else if 0xC2 ≤ b ∧ b ≤ 0xDF then some (.inr ⟨1, 0x80, 0xBF, b.toNat - 0xC0⟩)
  else if b = 0xE0 then some (.inr ⟨2, 0xA0, 0xBF, 0⟩)
  else if b = 0xED then some (.inr ⟨2, 0x80, 0x9F, 0xD⟩)
  else if 0xE1 ≤ b ∧ b ≤ 0xEF then some (.inr ⟨2, 0x80, 0xBF, b.toNat - 0xE0⟩)
  else if b = 0xF0 then some (.inr ⟨3, 0x90, 0xBF, 0⟩)
  else if b = 0xF4 then some (.inr ⟨3, 0x80, 0x8F, 4⟩)
  else if 0xF1 ≤ b ∧ b ≤ 0xF3 then some (.inr ⟨3, 0x80, 0xBF, b.toNat - 0xF0⟩)
  else none

/-- The code points of the bytes that follow a character under way, if there is one. -/
def decodePoints : Option Pending → List UInt8 → List Nat
  | none, [] => []
  | some _, [] => [replacement]
  | none, b :: bs =>
    match leadByte b with
    | none => replacement :: decodePoints none bs
    | some (.inl n) => n :: decodePoints none bs
    | some (.inr p) => decodePoints (some p) bs
  | some p, b :: bs =>
    if p.lower ≤ b ∧ b ≤ p.upper then
      let bits := p.bits * 0x40 + (b.toNat - 0x80)
      if p.needed ≤ 1 then bits :: decodePoints none bs
      else decodePoints (some ⟨p.needed - 1, 0x80, 0xBF, bits⟩) bs
    else
      -- the byte that does not fit starts a character of its own
      match leadByte b with
      | none => replacement :: replacement :: decodePoints none bs
      | some (.inl n) => replacement :: n :: decodePoints none bs
      | some (.inr p) => replacement :: decodePoints (some p) bs

/-- `buffer.toString("utf8")`. -/
def utf8Decode (bs : List UInt8) : JsString := (decodePoints none bs).flatMap pointUnits

/-- `new TextDecoder().decode(bytes)`: without a byte order mark. -/
def textDecode (bytes : List UInt8) : JsString :=
  match utf8Decode bytes with
  | 0xFEFF :: text => text
  | text => text

/-- The lower-case hexadecimal digit of a number below sixteen. -/
def hexDigitUnit (n : Nat) : UInt16 := (if n < 10 then 0x30 + n else 0x61 + (n - 10)).toUInt16

/-- `.digest("hex")` of the digest's bytes. -/
def hexText (bs : List UInt8) : JsString :=
  bs.flatMap fun b => [hexDigitUnit (b.toNat / 16), hexDigitUnit (b.toNat % 16)]

/-- The six bits of a base64 character of either alphabet. -/
def base64Digit (c : UInt16) : Option Nat :=
  if unit 'A' ≤ c ∧ c ≤ unit 'Z' then some (c.toNat - 0x41)
  else if unit 'a' ≤ c ∧ c ≤ unit 'z' then some (c.toNat - 0x61 + 26)
  else if unit '0' ≤ c ∧ c ≤ unit '9' then some (c.toNat - 0x30 + 52)
  else if c = unit '+' ∨ c = unit '-' then some 62
  else if c = unit '/' ∨ c = unit '_' then some 63
  else none

/-- The bytes of groups of six bits; a last group of six alone gives nothing. -/
def sixesToBytes : List Nat → List UInt8
  | a :: b :: c :: d :: rest =>
    [(a * 4 + b / 16).toUInt8, (b % 16 * 16 + c / 4).toUInt8, (c % 4 * 64 + d).toUInt8] ++
      sixesToBytes rest
  | [a, b, c] => [(a * 4 + b / 16).toUInt8, (b % 16 * 16 + c / 4).toUInt8]
  | [a, b] => [(a * 4 + b / 16).toUInt8]
  | _ => []

/-- `Buffer.from(s, "base64url")`. -/
def base64urlDecode (s : JsString) : List UInt8 :=
  sixesToBytes ((s.takeWhile (· ≠ unit '=')).filterMap base64Digit)

/-- The base64 character of six bits. -/
def base64Unit (n : Nat) : UInt16 :=
  (if n < 26 then 0x41 + n
  else if n < 52 then 0x61 + (n - 26)
  else if n < 62 then 0x30 + (n - 52)
  else if n = 62 then 0x2B
  else 0x2F).toUInt16

/-- `.toString("base64")` of a buffer's bytes. -/
def base64Encode : List UInt8 → JsString
  | [] => []
  | [a] => [base64Unit (a.toNat / 4), base64Unit (a.toNat % 4 * 16), unit '=', unit '=']
  | [a, b] =>
    [base64Unit (a.toNat / 4), base64Unit (a.toNat % 4 * 16 + b.toNat / 16),
      base64Unit (b.toNat % 16 * 4), unit '=']
  | a :: b :: c :: rest =>
    [base64Unit (a.toNat / 4), base64Unit (a.toNat % 4 * 16 + b.toNat / 16),
      base64Unit (b.toNat % 16 * 4 + c.toNat / 64), base64Unit (c.toNat % 64)] ++ base64Encode rest

example : base64Encode (utf8Encode (js "a\x00b?>")) = js "YQBiPz4=" := by decide

example : utf8Decode (base64urlDecode (js "eyJrIjoiw6kifQ")) = js "\x7b\"k\":\"é\"\x7d" := by
  decide

example : utf8Encode (js "a€" ++ [0xD83D, 0xDE00, 0xD800]) =
    [0x61, 0xE2, 0x82, 0xAC, 0xF0, 0x9F, 0x98, 0x80, 0xEF, 0xBF, 0xBD] := by decide

example : utf8Decode [0xE2, 0x82, 0x61, 0xF0, 0x9F, 0x98, 0x80] =
    [0xFFFD, 0x61, 0xD83D, 0xDE00] := by decide

end TheokitGateways.Js
