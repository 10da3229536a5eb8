import TheokitGateways.Email.Threads
import TheokitGateways.Gateway.Outbound

/-!
# Email: `sendMessage`

A mail carries its text, and for markdown or HTML an HTML part beside it; when the
server refuses that one, it is offered again without the part. A reply to a mail that
is still held lands in its thread: what a reader makes of its headers is the chain of
the mail it answers, and that mail last (`email_replies_in_thread`).
-/

namespace TheokitGateways.Email
open Js Gateway Async Prog Transition

/-- What SMTP rejects with. -/
inductive SmtpError where
  | nothing
  | text (s : JsString)
  /-- An error or another object, with what `String` makes of it. -/
  | object (code : Option JsString) (responseCode : Option Nat) (message name : Option JsString)
    (text : JsString)

/-- What is written of an error. -/
def smtpMessage (message : Option JsString) (text : JsString) : JsString :=
  (message.filter (· ≠ [])).getD text

/-- The words of `NETWORK_ERR_RE`. -/
def networkWords : List JsString :=
  [js "econn", js "enotfound", js "etimedout", js "ehostunreach", js "eai_again", js "fetch failed"]

def responseCodeError (code : Nat) (message : JsString) : Option SendError :=
  if code = 535 ∨ code = 530 then some ⟨js "auth_failed", message⟩
  else if code = 421 ∨ code = 451 ∨ code = 452 then some ⟨js "rate_limit", message⟩
  else if code = 550 ∨ code = 551 ∨ code = 553 then some ⟨js "invalid_request", message⟩
  else if 500 ≤ code then some ⟨js "server_error", message⟩
  else if 400 ≤ code then some ⟨js "rate_limit", message⟩
  else none

/-- The error of a code of nodemailer's. -/
def codeError (code message : JsString) : Option SendError :=
  if code = js "EAUTH" ∨ code = js "EAUTHENTICATION" then some ⟨js "auth_failed", message⟩
  else if code = js "EENVELOPE" ∧ includes (js "550") message then
    some ⟨js "invalid_request", message⟩
  else if code = js "ECONNECTION" ∨ code = js "ESOCKET" ∨ code = js "ETLS" then
    some ⟨js "server_error", message⟩
  else if code = js "ETIMEDOUT" then some ⟨js "timeout", message⟩
  else none

def mapEmailError : SmtpError → SendError
  | .nothing => ⟨js "unknown", js "Unknown error"⟩
  | .text s => ⟨js "unknown", s⟩
  | .object code responseCode message name text =>
    let message := smtpMessage message text
    match codeError (code.getD []) message with
    | some error => error
    | none =>
      match responseCode.bind (responseCodeError · message) with
      | some error => error
      | none =>
        if name = some (js "IMAP_AUTH_FAILED") ∨ mentions [js "auth"] (some message) then
          ⟨js "auth_failed", message⟩
        else if mentions networkWords (some message) then ⟨js "server_error", message⟩
        else ⟨js "unknown", message⟩

/-- What the client of `smtp-client.ts` is given. -/
structure SmtpSendOptions where
  fromName : Option JsString
  address : JsString
  recipient : JsString
  subject : JsString
  text : JsString
  html : Option JsString := none
  inReplyTo : Option JsString := none
  references : Option (List JsString) := none

/-- What it gives to nodemailer: the ids in braces. -/
structure SendMailOptions where
  fromName : Option JsString
  address : JsString
  recipient : JsString
  subject : JsString
  text : JsString
  html : Option JsString
  inReplyTo : Option JsString
  references : Option (List JsString)

inductive EmailCall where
  /-- Whether there is a connection, and a client. -/
  | connected
  | smtp
  | sendMail (mail : SendMailOptions)

/-- What a call answers: a mail, its id. -/
abbrev EmailCall.Answer : EmailCall → Type
  | .connected | .smtp => Bool
  | .sendMail _ => Option JsString

abbrev EmailEvent := Async.Event EmailCall EmailCall.Answer SmtpError JsString

abbrev EmailProg (α : Type) := Prog EmailCall EmailCall.Answer SmtpError JsString α

def braced (id : JsString) : JsString := js "<" ++ id ++ js ">"

namespace SmtpClient

def mailOf (opts : SmtpSendOptions) : SendMailOptions where
  fromName := opts.fromName
  address := opts.address
  recipient := opts.recipient
  subject := opts.subject
  text := opts.text
  html := opts.html
  inReplyTo := opts.inReplyTo.map braced
  references := (opts.references.filter (· ≠ [])).map (·.map braced)

/-- The new id without braces. -/
def idOf (messageId : Option JsString) : JsString := (stripBraces messageId).getD []

end SmtpClient

/-- `s.replace(/c/g, by)` for one unit. -/
def replaceEach (c : UInt16) (replacement s : JsString) : JsString :=
  s.flatMap fun d => if d = c then replacement else [d]

/-- The HTML part for a declared format. -/
def htmlPartFor (text : JsString) : Format → Option JsString
  | .html => some text
  | .markdown =>
    let escaped := replaceEach (unit '>') (js "&gt;")
      (replaceEach (unit '<') (js "&lt;") (replaceEach (unit '&') (js "&amp;") text))
    some (js "<pre>" ++ escaped ++ js "</pre>")
  | .plain => none

def emptyText : SendResult := .failure (js "empty_text") (js "Empty text rejected.")

def notConnected : SendResult := .failure (js "not_connected") (js "EmailAdapter not connected.")

/-- What the retry throws when `disconnect` has unset the client. -/
def clientGone : SmtpError :=
  let message := js "Cannot read properties of undefined (reading 'send')"
  .object none none (some message) (some (js "TypeError")) (js "TypeError: " ++ message)

def retryLine : JsString :=
  js "[gateway-email] the server rejected the html part; retrying with text only\n"

/-- The subject of a reply. -/
def replySubject (subject : JsString) : JsString :=
  if (js "Re:").isPrefixOf subject then subject else js "Re: " ++ subject

/-- The chain of a reply, each id once. -/
def replyReferences (context : ThreadContext) : List JsString :=
  (context.references ++ [context.lastMessageId]).eraseDups

def failed (err : SmtpError) : SendResult := { ok := false, error := some (mapEmailError err) }

/-- What a mail that is sent or refused answers. -/
def resultOf : Except SmtpError (Option JsString) → SendResult
  | .ok messageId => { ok := true, messageId := some (SmtpClient.idOf messageId) }
  | .error err => failed err

section
variable (opts : EmailAdapterOptions) (fromName : Option JsString) (threadStore : ThreadStore)

/-- The mail without an HTML part. -/
def baseOf (out : OutboundMessage) : SmtpSendOptions :=
  let base : SmtpSendOptions :=
    { fromName, address := opts.address, recipient := out.channel.id
      subject := js "Message from agent", text := out.text }
  match out.channel.topicId.bind threadStore.lookup with
  | none => base
  | some context =>
    { base with
      subject := replySubject context.subject
      inReplyTo := some context.lastMessageId
      references := some (replyReferences context) }

def sendMail (mail : SmtpSendOptions) : EmailProg SendResult :=
  .call (EmailCall.sendMail (SmtpClient.mailOf mail)) fun r => .ret (resultOf r)

/-- The retry, once the server has refused the HTML part. -/
def sendWithoutHtml (base : SmtpSendOptions) : EmailProg SendResult :=
  .emit retryLine <| .call EmailCall.smtp fun
    | .ok true => sendMail base
    | _ => .ret (failed clientGone)

/-- The mail, with its HTML part first if it has one. -/
def sendAlternatives (base : SmtpSendOptions) : Option JsString → EmailProg SendResult
  | none => sendMail base
  | some html =>
    .call (EmailCall.sendMail (SmtpClient.mailOf { base with html := some html })) fun
      | .ok messageId => .ret (resultOf (.ok messageId))
      | .error _ => sendWithoutHtml base

def sendMessage (out : OutboundMessage) : EmailProg SendResult :=
  if out.text = [] then return emptyText
  else .call EmailCall.connected fun
    | .ok true =>
      sendAlternatives (baseOf opts fromName threadStore out)
        (out.format.bind (htmlPartFor out.text))
    | _ => .ret notConnected

end

/-- The text that the server has taken with an event, and the id of its mail. -/
def posted : EmailEvent → Option (JsString × JsString)
  | .answered (.sendMail mail) (.ok messageId) => some (mail.text, SmtpClient.idOf messageId)
  | _ => none

/-- The mail that a call offers to the server. -/
def mailIn : EmailCall → Option SendMailOptions
  | .sendMail mail => some mail
  | .connected | .smtp => none

/-- The mails that have been offered. -/
def offered (t : List EmailEvent) (q : EmailProg SendResult) : List SendMailOptions :=
  (callsMade t q).filterMap mailIn

/-- The mails of a send. -/
def mailsOf (base : SmtpSendOptions) : Option JsString → List SendMailOptions
  | none => [SmtpClient.mailOf base]
  | some html => [SmtpClient.mailOf { base with html := some html }, SmtpClient.mailOf base]

/-- What has come of a send that offers one mail, and the next when that is refused. -/
structure OfferedInOrder (mails : List SendMailOptions) (t : List EmailEvent)
    (q : EmailProg SendResult) : Prop where
  first : offered t q <+: mails
  refused : ∀ mail ∈ (offered t q).dropLast, ∃ err, .answered (.sendMail mail) (.error err) ∈ t

def OffersInOrder (mails : List SendMailOptions) (p : EmailProg SendResult) : Prop :=
  ∀ t q, Runs p t q → OfferedInOrder mails t q

/-- There is a connection, and the server takes the mail, if not with an HTML part. -/
def Granted : (c : EmailCall) → Except SmtpError c.Answer → Prop
  | .connected, r | .smtp, r => r = .ok true
  | .sendMail mail, r => mail.html = none → ∃ messageId, r = .ok messageId

section
variable {opts : EmailAdapterOptions} {fromName : Option JsString} {threadStore : ThreadStore}
  {out : OutboundMessage} {base : SmtpSendOptions}

theorem sendsParts_sendMail :
    SendsParts posted List.head? [base.text] (sendMail base) := by
  refine sendsParts_once fun r => ⟨_, rfl, ?_⟩
  cases r with
  | error err => exact .inl ⟨rfl, rfl⟩
  | ok messageId => exact .inr ⟨_, rfl, rfl, rfl⟩

/-- The server takes the mail once at most, with its HTML part or without. -/
theorem sendsParts_sendAlternatives (html : Option JsString) :
    SendsParts posted List.head? [base.text] (sendAlternatives base html) := by
  have htext : [base.text] ≠ [] := by simp
  cases html with
  | none => exact sendsParts_sendMail
  | some html =>
    refine sendsParts_attempt fun r => ?_
    cases r with
    | ok messageId => exact .inr ⟨_, _, rfl, rfl, rfl, rfl⟩
    | error err =>
      refine .inl ⟨rfl, sendsParts_emit htext rfl (sendsParts_call htext fun smtp => ⟨rfl, ?_⟩)⟩
      obtain _ | _ | _ := smtp
      · exact sendsParts_refusal htext rfl
      · exact sendsParts_refusal htext rfl
      · exact sendsParts_sendMail

/-! ### The mails that are offered -/

theorem offersInOrder_ret (mails : List SendMailOptions) (r : SendResult) :
    OffersInOrder mails (.ret r) := by
  intro t q h
  obtain ⟨rfl, rfl⟩ := runs_ret.1 h
  exact ⟨List.nil_prefix, fun _ hmail => nomatch hmail⟩

theorem offersInOrder_emit {mails : List SendMailOptions} {o : JsString} {k : EmailProg SendResult}
    (hk : OffersInOrder mails k) : OffersInOrder mails (.emit o k) := by
  intro t q h
  obtain ⟨rfl, rfl⟩ | ⟨t', rfl, hrest⟩ := runs_emit.1 h
  · exact ⟨List.nil_prefix, fun _ hmail => nomatch hmail⟩
  · obtain ⟨hfirst, hrefused⟩ := hk t' q hrest
    exact ⟨hfirst, fun mail hmail => (hrefused mail hmail).imp fun _ => List.mem_cons_of_mem _⟩

/-- A call that offers no mail. -/
theorem offersInOrder_call {mails : List SendMailOptions} {c : EmailCall}
    {k : Except SmtpError c.Answer → EmailProg SendResult} (hc : mailIn c = none)
    (hk : ∀ r, OffersInOrder mails (k r)) : OffersInOrder mails (.call c k) := by
  intro t q h
  obtain ⟨rfl, rfl⟩ | ⟨r, t', rfl, hrest⟩ := runs_call.1 h
  · have hnone : offered [] (.call c k) = [] := List.filterMap_cons_none hc
    constructor
    · rw [hnone]
      exact List.nil_prefix
    · rw [hnone]
      exact fun _ hmail => nomatch hmail
  · obtain ⟨hfirst, hrefused⟩ := hk r t' q hrest
    have hoffered : offered (.answered c r :: t') q = offered t' q := List.filterMap_cons_none hc
    constructor
    · rw [hoffered]
      exact hfirst
    · rw [hoffered]
      exact fun mail hmail => (hrefused mail hmail).imp fun _ => List.mem_cons_of_mem _

/-- The first mail is offered; when it is refused the others are, and nothing is when it is
taken. -/
theorem offersInOrder_sendMail {mail : SendMailOptions} {mails : List SendMailOptions}
    {k : Except SmtpError (Option JsString) → EmailProg SendResult}
    (htaken : ∀ messageId, ∃ r, k (.ok messageId) = .ret r)
    (hrefused : ∀ err, OffersInOrder mails (k (.error err))) :
    OffersInOrder (mail :: mails) (.call (EmailCall.sendMail mail) k) := by
  intro t q h
  obtain ⟨rfl, rfl⟩ | ⟨r, t', rfl, hrest⟩ := runs_call.1 h
  · exact ⟨List.prefix_append [mail] mails, fun _ hmail => nomatch hmail⟩
  · have hoffered : offered (.answered (EmailCall.sendMail mail) r :: t') q =
        mail :: offered t' q := rfl
    cases r with
    | ok messageId =>
      obtain ⟨r, hr⟩ := htaken messageId
      rw [hr] at hrest
      obtain ⟨rfl, rfl⟩ := runs_ret.1 hrest
      exact ⟨List.prefix_append [mail] mails, fun _ hmail => nomatch hmail⟩
    | error err =>
      obtain ⟨hfirst, hbefore⟩ := hrefused err t' q hrest
      refine ⟨?_, fun mail' hmail => ?_⟩
      · rw [hoffered]
        exact List.cons_prefix_cons.2 ⟨rfl, hfirst⟩
      · rw [hoffered] at hmail
        by_cases hnone : offered t' q = []
        · rw [hnone] at hmail
          cases hmail
        · rw [List.dropLast_cons_of_ne_nil hnone] at hmail
          obtain rfl | hmail := List.mem_cons.1 hmail
          · exact ⟨err, List.mem_cons_self⟩
          · exact (hbefore mail' hmail).imp fun _ => List.mem_cons_of_mem _

/-- The mail is offered once, or with its HTML part first. -/
theorem offersInOrder_sendAlternatives (html : Option JsString) :
    OffersInOrder (mailsOf base html) (sendAlternatives base html) := by
  have hplain : OffersInOrder [SmtpClient.mailOf base] (sendMail base) :=
    offersInOrder_sendMail (fun _ => ⟨_, rfl⟩) fun err => offersInOrder_ret [] (failed err)
  cases html with
  | none => exact hplain
  | some html =>
    refine offersInOrder_sendMail (fun _ => ⟨_, rfl⟩) fun err => ?_
    refine offersInOrder_emit (offersInOrder_call rfl fun smtp => ?_)
    obtain _ | _ | _ := smtp
    · exact offersInOrder_ret _ _
    · exact offersInOrder_ret _ _
    · exact hplain

/-- The mail goes out when the server takes it, if not with its HTML part. -/
theorem returnsUnder_sendAlternatives (hbase : base.html = none) (html : Option JsString) :
    (sendAlternatives base html).ReturnsUnder Granted (·.ok = true) := by
  have hplain : (sendMail base).ReturnsUnder Granted (·.ok = true) := by
    intro r hr
    obtain ⟨messageId, rfl⟩ := hr hbase
    exact rfl
  cases html with
  | none => exact hplain
  | some html =>
    intro r _
    cases r with
    | ok messageId => exact rfl
    | error err =>
      intro smtp hsmtp
      cases hsmtp
      exact hplain

theorem baseOf_eq (out : OutboundMessage) :
    (baseOf opts fromName threadStore out).text = out.text ∧
      (baseOf opts fromName threadStore out).recipient = out.channel.id ∧
      (baseOf opts fromName threadStore out).html = none := by
  unfold baseOf
  split <;> exact ⟨rfl, rfl, rfl⟩

/-- Every mail of a send carries the text to the channel. -/
theorem mem_mailsOf {html : Option JsString} {mail : SendMailOptions}
    (h : mail ∈ mailsOf base html) :
    mail.text = base.text ∧ mail.recipient = base.recipient := by
  cases html with
  | none =>
    obtain rfl := List.mem_singleton.1 h
    exact ⟨rfl, rfl⟩
  | some html =>
    obtain rfl | h := List.mem_cons.1 h
    · exact ⟨rfl, rfl⟩
    · obtain rfl := List.mem_singleton.1 h
      exact ⟨rfl, rfl⟩

/-! ### The HTML part -/

theorem mem_replaceEach {c d : UInt16} {replacement s : JsString}
    (h : d ∈ replaceEach c replacement s) : d ∈ replacement ∨ d ∈ s ∧ d ≠ c := by
  obtain ⟨e, he, hd⟩ := List.mem_flatMap.1 h
  split at hd
  · exact .inl hd
  · cases List.mem_singleton.1 hd
    exact .inr ⟨he, ‹_›⟩

/-- The HTML part of a text in markdown has no markup but the two tags around it. -/
theorem htmlPartFor_markdown (text : JsString) : ∃ escaped,
    htmlPartFor text .markdown = some (js "<pre>" ++ escaped ++ js "</pre>") ∧
      unit '<' ∉ escaped ∧ unit '>' ∉ escaped := by
  refine ⟨_, rfl, fun hmem => ?_, fun hmem => ?_⟩
  · obtain hmem | ⟨hmem, _⟩ := mem_replaceEach hmem
    · exact absurd hmem (by decide)
    · obtain hmem | ⟨_, hne⟩ := mem_replaceEach hmem
      · exact absurd hmem (by decide)
      · exact hne rfl
  · obtain hmem | ⟨_, hne⟩ := mem_replaceEach hmem
    · exact absurd hmem (by decide)
    · exact hne rfl

/-- A mail carries the text, and for markdown or HTML an HTML part beside it, in which a text in
markdown adds no markup; when the server refuses it with the part, the same mail is offered without.
The server takes it once at most, and then the answer is `ok` under its id. -/
theorem email_sends (opts : EmailAdapterOptions) (fromName : Option JsString)
    (threadStore : ThreadStore) (out : OutboundMessage) (hne : out.text ≠ []) :
    (∃ mails, mails = mailsOf (baseOf opts fromName threadStore out)
        (out.format.bind (htmlPartFor out.text)) ∧
      (∀ mail ∈ mails, mail.text = out.text ∧ mail.recipient = out.channel.id) ∧
      OffersInOrder mails (sendMessage opts fromName threadStore out)) ∧
    Delivers Granted posted List.head? [out.text] (sendMessage opts fromName threadStore out) ∧
    ∃ escaped, htmlPartFor out.text .markdown = some (js "<pre>" ++ escaped ++ js "</pre>") ∧
      unit '<' ∉ escaped ∧ unit '>' ∉ escaped := by
  have htext : [out.text] ≠ [] := by simp
  obtain ⟨hcarried, hrecipient, hhtml⟩ := @baseOf_eq opts fromName threadStore out
  have hmails := fun mail hmail => @mem_mailsOf (baseOf opts fromName threadStore out)
    (out.format.bind (htmlPartFor out.text)) mail hmail
  rw [hcarried, hrecipient] at hmails
  rw [sendMessage, if_neg hne]
  refine ⟨⟨_, rfl, hmails, offersInOrder_call rfl fun connected => ?_⟩,
    ⟨sendsParts_call htext fun connected => ⟨rfl, ?_⟩, fun connected hconnected => ?_⟩,
    htmlPartFor_markdown out.text⟩
  · obtain _ | _ | _ := connected
    · exact offersInOrder_ret _ _
    · exact offersInOrder_ret _ _
    · exact offersInOrder_sendAlternatives _
  · obtain _ | _ | _ := connected
    · exact sendsParts_refusal htext rfl
    · exact sendsParts_refusal htext rfl
    · have hsends := @sendsParts_sendAlternatives (baseOf opts fromName threadStore out)
        (out.format.bind (htmlPartFor out.text))
      rw [hcarried] at hsends
      exact hsends
  · cases hconnected
    exact returnsUnder_sendAlternatives hhtml _

/-- An answer in markdown. -/
def hello : OutboundMessage where
  channel := { id := js "alice@x.org", type := .dm, topicId := some (js "c@x.org") }
  text := js "hello <b>"
  format := some .markdown

def helpdesk : EmailAdapterOptions where
  address := js "help@x.org"

def helloHtml : JsString := js "<pre>hello &lt;b&gt;</pre>"

/-- The server refuses the mail with its HTML part, and takes the one without. -/
def refusedHtml : List EmailEvent :=
  let base := baseOf helpdesk none .empty hello
  [.answered .connected (.ok true),
    .answered (.sendMail (SmtpClient.mailOf { base with html := some helloHtml }))
      (.error (.text (js "552"))),
    .emitted retryLine, .answered .smtp (.ok true),
    .answered (.sendMail (SmtpClient.mailOf base)) (.ok (some (js "<m@x.org>")))]

theorem email_sends_hello : hello.text ≠ [] ∧
    Delivers Granted posted List.head? [hello.text] (sendMessage helpdesk none .empty hello) ∧
    ∃ r, Runs (sendMessage helpdesk none .empty hello) refusedHtml (.ret r) ∧ r.ok = true ∧
      r.messageId = some (js "m@x.org") ∧
      (refusedHtml.filterMap posted).map Prod.fst = [hello.text] ∧
      offered refusedHtml (.ret r) = mailsOf (baseOf helpdesk none .empty hello)
        (some helloHtml) := by
  have hne : hello.text ≠ [] := by decide
  have hhtml : hello.format.bind (htmlPartFor hello.text) = some helloHtml := by decide +kernel
  obtain ⟨⟨mails, hmails, _, hoffers⟩, hdelivers, _⟩ := email_sends helpdesk none .empty hello hne
  have hrun : Runs (sendMessage helpdesk none .empty hello) refusedHtml
      (.ret { ok := true, messageId := some (js "m@x.org") }) := by
    rw [sendMessage, if_neg hne]
    refine runs_call.2 (.inr ⟨.ok true, _, rfl, ?_⟩)
    dsimp only
    rw [hhtml]
    refine runs_call.2 (.inr ⟨.error _, _, rfl, runs_emit.2 (.inr ⟨_, rfl, ?_⟩)⟩)
    refine runs_call.2 (.inr ⟨.ok true, _, rfl, ?_⟩)
    exact runs_call.2 (.inr ⟨.ok _, _, rfl, .nil _⟩)
  have hall := hoffers _ _ hrun
  have hparts := hdelivers.sends _ _ hrun
  refine ⟨hne, hdelivers, _, hrun, rfl, rfl, (hparts.complete _ rfl).1 rfl, ?_⟩
  rw [hmails, hhtml] at hall
  exact hall.first.eq_of_length rfl

end

/-! ### Replies -/

theorem stripBraces_braced (id : JsString) : stripBraces (some (braced id)) = some id := by
  have hshape : braced id = unit '<' :: (id ++ [unit '>']) := rfl
  rw [hshape, stripBraces]
  · simp
  · exact fun h => nomatch h

/-- What a reader makes of a chain of ids is the chain. -/
theorem normalizeRefs_braced {references : List JsString} (h : references ≠ []) :
    normalizeRefs (some (.inr (references.map braced))) = some references := by
  have hcleaned : (references.map braced).filterMap (fun r => stripBraces (some r)) =
    references := by
    rw [List.filterMap_map]
    have hid : ((fun r => stripBraces (some r)) ∘ braced) = some := by
      funext id
      exact stripBraces_braced id
    rw [hid, List.filterMap_some]
  unfold normalizeRefs
  simp [hcleaned, h]

theorem replyReferences_ne_nil (context : ThreadContext) : replyReferences context ≠ [] := by
  intro hnil
  have hmem : context.lastMessageId ∈ replyReferences context :=
    List.mem_eraseDups.2 (List.mem_append_right _ (List.mem_singleton_self _))
  rw [hnil] at hmem
  cases hmem


/-- A reply in a thread that is held. -/
theorem baseOf_of_lookup {opts : EmailAdapterOptions} {fromName : Option JsString}
    {threadStore : ThreadStore} {out : OutboundMessage} {t : JsString} {context : ThreadContext}
    (htopic : out.channel.topicId = some t) (hlookup : threadStore.lookup t = some context) :
    baseOf opts fromName threadStore out =
      { fromName, address := opts.address, recipient := out.channel.id
        subject := replySubject context.subject, text := out.text
        inReplyTo := some context.lastMessageId
        references := some (replyReferences context) } := by
  simp only [baseOf, htopic, Option.bind_some, hlookup]

/-- A reply in no thread that is held. -/
theorem baseOf_of_lookup_none {opts : EmailAdapterOptions} {fromName : Option JsString}
    {threadStore : ThreadStore} {out : OutboundMessage}
    (hlookup : ∀ t, threadStore.lookup t = none) :
    baseOf opts fromName threadStore out =
      { fromName, address := opts.address, recipient := out.channel.id
        subject := js "Message from agent", text := out.text } := by
  unfold baseOf
  cases out.channel.topicId with
  | none => rfl
  | some t => rw [Option.bind_some, hlookup t]

/-- In every run the store holds the threads of the mail heard last, a thousand at most, since it
was cleared. While a handler has a mail, a reply to it goes to its sender; unless a disconnect ends
meanwhile, the mail is still recorded, the reply goes under its subject, and what a reader makes of
the reply's headers is the mail's own chain and the mail, each once. Once the store is cleared, the
reply is in no thread. -/
theorem email_replies_in_thread (m : CaseMapping)
    (simpleParser : List UInt8 → Except JsAny ParsedMail) (opts : EmailAdapterOptions)
    (fromName : Option JsString) (actions : List Action) (x : Threads)
    (hrun : run (Threads.step m simpleParser opts) {} actions = some x) :
    (∀ t context, x.threadStore.lookup t = some context ↔
      (t, context) ∈ (OrderedMap.latestOf x.recorded).take ThreadStore.maxSize) ∧
    (Meets (Threads.step m simpleParser opts) Threads.Undisturbed {} actions → x.Kept) ∧
    ∀ uid handler, x.adapter.inbox.turn = some (.handling uid handler) →
      ∃ event, x.adapter.inbox.log.find? Event.isHanded = some (.handed uid handler event) ∧
        ∀ out, out.channel = event.channel →
          ∃ mail, mail = SmtpClient.mailOf (baseOf opts fromName x.threadStore out) ∧
            mail.recipient = event.email.fromAddress ∧
            (x.recorded ≠ [] →
              x.recorded.head? = some (event.email.messageId, contextOf event) ∧
              mail.subject = replySubject event.email.subject ∧
              ∀ reader parsed now, parsed.inReplyTo = mail.inReplyTo →
                parsed.references = mail.references.map Sum.inr →
                (Email.eventOf m reader parsed now).email.inReplyTo = some event.email.messageId ∧
                (Email.eventOf m reader parsed now).email.references =
                  some ((event.email.references.getD [] ++ [event.email.messageId]).eraseDups)) ∧
            (x.recorded = [] → mail.subject = js "Message from agent" ∧ mail.inReplyTo = none ∧
              mail.references = none) := by
  have hinOrder := Threads.inOrder_of_run hrun
  have hheld (t : JsString) (context : ThreadContext) :
      x.threadStore.lookup t = some context ↔
        (t, context) ∈ (OrderedMap.latestOf x.recorded).take ThreadStore.maxSize :=
    OrderedMap.mem_latestOf_of_get hinOrder.held
  refine ⟨hheld, Threads.kept_of_run hrun, fun uid handler hturn => ?_⟩
  obtain ⟨event, hhanded, hsender, hrecorded⟩ := hinOrder.handling uid handler hturn
  refine ⟨event, hhanded, fun out hchannel => ⟨_, rfl, ?_, fun hkept => ?_, fun hcleared => ?_⟩⟩
  · show (baseOf opts fromName x.threadStore out).recipient = _
    rw [(baseOf_eq out).2.1, hchannel]
    exact hsender.id
  · have hhead := hrecorded.resolve_left hkept
    have htopic : out.channel.topicId = some event.email.messageId := by
      rw [hchannel]
      exact hsender.topicId
    rw [baseOf_of_lookup htopic (hinOrder.lookup_head hhead)]
    refine ⟨hhead, rfl, fun reader parsed now hinReplyTo hreferences => ⟨?_, ?_⟩⟩
    · show stripBraces parsed.inReplyTo = _
      rw [hinReplyTo]
      exact stripBraces_braced _
    · show normalizeRefs parsed.references = _
      have hne := replyReferences_ne_nil (contextOf event)
      have hfilter : (some (replyReferences (contextOf event))).filter (· ≠ []) =
          some (replyReferences (contextOf event)) :=
        Option.filter_some_pos (decide_eq_true hne)
      rw [hreferences]
      simp only [SmtpClient.mailOf, hfilter, Option.map_some]
      exact normalizeRefs_braced hne
  · have hnone (t : JsString) : x.threadStore.lookup t = none := by
      refine Option.eq_none_iff_forall_ne_some.2 fun context hsome => ?_
      have hmem := (hheld t context).1 hsome
      rw [hcleared] at hmem
      cases hmem
    rw [baseOf_of_lookup_none hnone]
    exact ⟨rfl, rfl, rfl⟩

/-- The third mail of a thread. -/
def thirdMail : List UInt8 → Except JsAny ParsedMail := fun _ =>
  .ok { messageId := some (js "<c@x.org>")
        references := some (.inl (js "<a@x.org> <b@x.org>"))
        subject := some (js "Printer")
        fromField := some [{ value := some [{ address := some (js "alice@x.org") }] }] }

/-- A handler has it. -/
def thirdHanded : List Action :=
  [.onInbound 0, .connect, .advance 0 (.ok true), .advance 0 (.ok false),
    .fetched 0 (.ok [{ uid := 1, source := [] }]), .next, .parsed (.finite 0)]

/-- The turn is a handler's with a mail. -/
def isHandling (uid handler : Nat) : Option Turn → Bool
  | some (.handling u h) => u = uid && h = handler
  | _ => false

theorem eq_of_isHandling {uid handler : Nat} {turn : Option Turn}
    (h : isHandling uid handler turn = true) : turn = some (.handling uid handler) := by
  unfold isHandling at h
  split at h
  · obtain ⟨rfl, rfl⟩ : _ = uid ∧ _ = handler := by simpa using h
    rfl
  · cases h

/-- What was recorded of it. -/
def thirdThread : JsString × ThreadContext :=
  (js "c@x.org", ⟨js "Printer", [js "a@x.org", js "b@x.org"], js "c@x.org"⟩)

/-- A reply to the mail that a handler has goes to its sender, under a subject and in a thread. -/
def RepliesUnder (subject : JsString) (references : Option (List JsString)) (x : Threads) : Prop :=
  ∃ event, x.adapter.inbox.log.find? Event.isHanded = some (.handed 1 0 event) ∧
    ∀ out, out.channel = event.channel →
      ∃ mail, mail = SmtpClient.mailOf (baseOf helpdesk none x.threadStore out) ∧
        mail.recipient = event.email.fromAddress ∧ mail.subject = subject ∧
        ∀ reader parsed now, parsed.inReplyTo = mail.inReplyTo →
          parsed.references = mail.references.map Sum.inr →
          (Email.eventOf asciiCase reader parsed now).email.references = references

/-- The adapter is disconnected while the handler has the mail. -/
theorem email_replies_in_thread_third :
    (∃ x, run (Threads.step asciiCase thirdMail helpdesk) {} thirdHanded = some x ∧
      RepliesUnder (js "Re: Printer") (some [js "a@x.org", js "b@x.org", js "c@x.org"]) x) ∧
    ∃ x, run (Threads.step asciiCase thirdMail helpdesk) {}
        (thirdHanded ++ [.disconnect, .imapClosed, .smtpClosed]) = some x ∧
      RepliesUnder (js "Message from agent") none x := by
  constructor
  · have hsome : (run (Threads.step asciiCase thirdMail helpdesk) {} thirdHanded).any
        (fun x => isHandling 1 0 x.adapter.inbox.turn && x.recorded = [thirdThread]) = true := by
      decide +kernel
    obtain ⟨x, hrun, hx⟩ := (Option.any_eq_true _ _).1 hsome
    obtain ⟨hturn, hrecorded⟩ := Bool.and_eq_true_iff.1 hx
    have hrecorded := of_decide_eq_true hrecorded
    obtain ⟨_, _, hreplies⟩ :=
      email_replies_in_thread asciiCase thirdMail helpdesk none thirdHanded x hrun
    obtain ⟨event, hhanded, hreply⟩ := hreplies 1 0 (eq_of_isHandling hturn)
    refine ⟨x, hrun, event, hhanded, fun out hchannel => ?_⟩
    obtain ⟨mail, hmail, hrecipient, hkept, _⟩ := hreply out hchannel
    obtain ⟨hhead, hsubject, hthread⟩ := hkept (by simp [hrecorded])
    rw [hrecorded] at hhead
    obtain ⟨hid, hcontext⟩ := Prod.mk.inj (Option.some.inj hhead)
    obtain ⟨hmailSubject, hreferences, _⟩ := ThreadContext.mk.inj hcontext
    refine ⟨mail, hmail, hrecipient, ?_, fun reader parsed now hinReplyTo hreferred => ?_⟩
    · rw [hsubject, ← hmailSubject]
      decide
    · rw [(hthread reader parsed now hinReplyTo hreferred).2, ← hreferences, ← hid]
      decide
  · have hsome : (run (Threads.step asciiCase thirdMail helpdesk) {}
        (thirdHanded ++ [.disconnect, .imapClosed, .smtpClosed])).any
        (fun x => isHandling 1 0 x.adapter.inbox.turn && x.recorded = []) = true := by
      decide +kernel
    obtain ⟨x, hrun, hx⟩ := (Option.any_eq_true _ _).1 hsome
    obtain ⟨hturn, hrecorded⟩ := Bool.and_eq_true_iff.1 hx
    obtain ⟨_, _, hreplies⟩ := email_replies_in_thread asciiCase thirdMail helpdesk none _ x hrun
    obtain ⟨event, hhanded, hreply⟩ := hreplies 1 0 (eq_of_isHandling hturn)
    refine ⟨x, hrun, event, hhanded, fun out hchannel => ?_⟩
    obtain ⟨mail, hmail, hrecipient, _, hcleared⟩ := hreply out hchannel
    obtain ⟨hsubject, _, hreferences⟩ := hcleared (of_decide_eq_true hrecorded)
    refine ⟨mail, hmail, hrecipient, hsubject, fun reader parsed now _ hreferred => ?_⟩
    show normalizeRefs parsed.references = none
    rw [hreferred, hreferences]
    rfl

end TheokitGateways.Email
