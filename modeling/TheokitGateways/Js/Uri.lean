import TheokitGateways.Js.Bytes
import TheokitGateways.Js.Json

/-!
# Percent-encoded text

`decodeURIComponent` reads `%` and two hexadecimal digits as a byte. The bytes
must be well-formed UTF-8, with no other character inside a sequence.
-/

namespace TheokitGateways.Js

/-- The text as code units and escaped bytes; `none` when a `%` has no two digits. -/
def percentTokens : JsString → Option (List (UInt16 ⊕ UInt8))
  | [] => some []
  | c :: rest =>
    if c = unit '%' then
      match rest with
      | h :: l :: rest => do
        let h ← JsonParser.hexDigit h
        let l ← JsonParser.hexDigit l
        let tokens ← percentTokens rest
        return .inr (h * 16 + l).toUInt8 :: tokens
      | _ => none
    else (percentTokens rest).map (.inl c :: ·)

/-- The text of tokens that follow a character under way, if there is one. -/
def decodeTokens : Option Pending → List (UInt16 ⊕ UInt8) → Option JsString
  | none, [] => some []
  | some _, [] => none
  | none, .inl u :: tokens => (decodeTokens none tokens).map (u :: ·)
  | some _, .inl _ :: _ => none
  | none, .inr b :: tokens =>
    match leadByte b with
    | none => none
    | some (.inl n) => (decodeTokens none tokens).map (pointUnits n ++ ·)
    | some (.inr p) => decodeTokens (some p) tokens
  | some p, .inr b :: tokens =>
    if p.lower ≤ b ∧ b ≤ p.upper then
      let bits := p.bits * 0x40 + (b.toNat - 0x80)
      if p.needed ≤ 1 then (decodeTokens none tokens).map (pointUnits bits ++ ·)
      else decodeTokens (some ⟨p.needed - 1, 0x80, 0xBF, bits⟩) tokens
    else none

/-- `decodeURIComponent(s)`; `none` is its `URIError`. -/
def decodeURIComponent (s : JsString) : Option JsString :=
  (percentTokens s).bind (decodeTokens none)

example : decodeURIComponent (js "a%20%C3%A9%e2%82%ac") = some (js "a é€") := by decide +kernel
example : decodeURIComponent (js "%C3x") = none := by decide +kernel
example : decodeURIComponent (js "%zz") = none := by decide +kernel

end TheokitGateways.Js
