import TheokitGateways.Js.Convert

/-!
# Authorization headers

The two patterns the sources match a bearer token with. The scheme matches in any
case of its letters.
-/

namespace TheokitGateways.Js

def isLineTerminator (c : UInt16) : Bool := c = 0x0A || c = 0x0D || c = 0x2028 || c = 0x2029

/-- What follows `Bearer`, when white space does. -/
def afterBearer (header : JsString) : Option JsString :=
  if (header.take 6).map asciiLower = js "bearer" ∧ (header.drop 6).head?.any isSpace = true then
    some (header.drop 6)
  else none

/-- The group of `/^Bearer\s+(\S+)$/i`. -/
def bearerWord (header : JsString) : Option JsString := do
  let word := (← afterBearer header).dropWhile isSpace
  if word = [] ∨ word.any isSpace then none else some word

/-- The group of `/^Bearer\s+(.+)$/i`: when only white space is left, its last unit. -/
def bearerRest (header : JsString) : Option JsString := do
  let spaced ← afterBearer header
  let rest := spaced.dropWhile isSpace
  let rest := if rest = [] then spaced.drop (max 1 (spaced.length - 1)) else rest
  if rest = [] ∨ rest.any isLineTerminator then none else some rest

example : bearerWord (js "bEARER  a.b.c") = some (js "a.b.c") := by decide
example : bearerWord (js "Bearer a b") = none := by decide
example : bearerRest (js "Bearer a b") = some (js "a b") := by decide
example : bearerRest (js "Bearer ") = none := by decide

end TheokitGateways.Js
