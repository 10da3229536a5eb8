import TheokitGateways.Js.Convert

/-!
# Splitting a text by grapheme clusters

`segment` is the runtime's `Intl.Segmenter` with grapheme granularity.
-/

namespace TheokitGateways.Gateway
open Js

/-- Throws unless a size is positive; the error is the message of its `RangeError`. -/
def assertPositiveInt (label : JsString) (value : Nat) : Except JsString Unit :=
  if 0 < value then .ok ()
  else .error (label ++ js " must be a positive integer, received " ++ natText value)

/-- The walk over the segments: the parts so far and the one being filled. -/
def graphemeWalk (partLimit : Nat) (segments : List JsString) : List JsString × JsString :=
  segments.foldl
    (fun (parts, buf) segment =>
      if partLimit < buf.length + segment.length then
        (if buf = [] then parts else parts ++ [buf], segment)
      else (parts, buf ++ segment))
    ([], [])

/-- `chunkByGrapheme` after its sizes are checked. -/
def graphemeParts (segment : JsString → List JsString) (text : JsString)
    (limit partLimit : Nat) : List JsString :=
  if text = [] then [[]]
  else if text.length ≤ limit then [text]
  else
    let (parts, buf) := graphemeWalk partLimit (segment text)
    if buf = [] then parts else parts ++ [buf]

def chunkByGrapheme (segment : JsString → List JsString) (text : JsString)
    (limit partLimit : Nat) : Except JsString (List JsString) := do
  assertPositiveInt (js "chunkByGrapheme: limit") limit
  assertPositiveInt (js "chunkByGrapheme: partLimit") partLimit
  return graphemeParts segment text limit partLimit

theorem chunkByGrapheme_of_pos {segment : JsString → List JsString} {text : JsString}
    {limit partLimit : Nat} (hl : 0 < limit) (hp : 0 < partLimit) :
    chunkByGrapheme segment text limit partLimit =
      .ok (graphemeParts segment text limit partLimit) := by
  simp only [chunkByGrapheme, assertPositiveInt, hl, hp, if_true]
  rfl

end TheokitGateways.Gateway
