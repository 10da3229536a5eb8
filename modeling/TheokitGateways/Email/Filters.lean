import TheokitGateways.Js.Convert
import TheokitGateways.Js.OrderedMap

/-!
# Which senders are heard

Automated mail is dropped, by the sender's address or by a header that says so,
and so is mail from outside the allowlist when there is one. The patterns ignore
the case of ASCII letters only, as patterns without the `u` flag do.
-/

namespace TheokitGateways.Email
open Js

/-- The local parts of `NOREPLY_RE`. -/
def noreplyNames : List JsString :=
  [js "noreply", js "no-reply", js "no_reply", js "donotreply", js "do-not-reply",
    js "mailer-daemon", js "postmaster", js "bounce", js "notifications"]

/-- `NOREPLY_RE.test(address)`. -/
def isNoreply (address : JsString) : Bool :=
  noreplyNames.any fun name => (name ++ js "@").isPrefixOf (address.map asciiLower)

/-- Whether a header's value has one of the words, in any case. -/
def mentions (words : List JsString) : Option JsString → Bool
  | none => false
  | some value => words.any (includes · (value.map asciiLower))

/-- The group of `/<([^>]+)>/`. -/
def bracketed : JsString → Option JsString
  | [] => none
  | c :: s =>
    if c ≠ unit '<' then bracketed s
    else
      match cutAt (unit '>') s with
      | some (d :: address, _) => some (d :: address)
      | _ => bracketed s

section
variable (m : CaseMapping)

def extractAddr (s : JsString) : JsString := trim (m.toLowerCase ((bracketed s).getD s))

/-- The headers under their names in lower case; of two that agree, the last. -/
def loweredHeaders (headers : OrderedMap JsString JsString) : OrderedMap JsString JsString :=
  headers.entries.foldl (fun lowered e => lowered.set (m.toLowerCase e.1) e.2) .empty

def isAutomatedSender (fromAddress : JsString) (headers : OrderedMap JsString JsString) : Bool :=
  let lowered := loweredHeaders m headers
  isNoreply fromAddress ||
    mentions [js "auto-generated", js "auto-replied"] (lowered.get (js "auto-submitted")) ||
    mentions [js "bulk", js "list"] (lowered.get (js "precedence")) ||
    mentions [js "all"] (lowered.get (js "x-auto-response-suppress"))

/-- Without an allowlist everyone is allowed; an empty one allows nobody. -/
def isAllowedSender (fromAddress : JsString) : (allowedSenders : Option (List JsString)) → Bool
  | none => true
  | some allowedSenders => allowedSenders.any fun s => extractAddr m s = extractAddr m fromAddress

end

example : extractAddr asciiCase (js "\"Alice\" <> <Alice@X.org>") = js "alice@x.org" := by
  decide +kernel
example : isNoreply (js "No-Reply@x.org") = true ∧ isNoreply (js "a.noreply@x.org") = false := by
  decide +kernel

end TheokitGateways.Email
