import TheokitGateways.Sms.Backend

/-!
# SMS: whether a signature covers what is parsed

Twilio's check is given the parameters the message is read from, so a check that
is injective in its arguments leaves one content for a signature. Plivo's and
Vonage's are given nothing of the body: whatever they accept, they accept with
every body.
-/

namespace TheokitGateways.Sms
open Js

/-- What a recipient sees of an inbound message. -/
structure Content where
  sender : JsString
  recipient : JsString
  body : Json
  messageId : Json

def SMSInbound.content (m : SMSInbound) : Content := ⟨m.sender, m.recipient, m.body, m.messageId⟩

/-- What is parsed of a request; an error when parsing throws. -/
def parsed (lib : Libraries) (b : SMSBackend) (ctx : SignatureContext) : Except Thrown Content :=
  (b.parseInbound lib ctx 0).map (·.content)

/-- Two requests that differ only in their bodies and are both accepted read alike. -/
def SignsContent (lib : Libraries) (b : SMSBackend) (headers : List (JsString × JsString))
    (url : JsString) : Prop :=
  ∀ body₁ body₂,
    b.verifySignature lib ⟨headers, body₁, url⟩ = .ok true →
    b.verifySignature lib ⟨headers, body₂, url⟩ = .ok true →
    parsed lib b ⟨headers, body₁, url⟩ = parsed lib b ⟨headers, body₂, url⟩

/-- Twilio's check accepts one URL and one set of parameters for a signature. -/
def ValidateRequestInjective (lib : Libraries) : Prop :=
  ∀ token signature url url' params params',
    lib.validateRequest token signature url params = some true →
    lib.validateRequest token signature url' params' = some true →
    url = url' ∧ ∀ key, params.get key = params'.get key

/-- The provider's check, which sees nothing of the body, accepts what the request carries. -/
def AcceptsBodyless (lib : Libraries) (b : SMSBackend) (headers : List (JsString × JsString))
    (url : JsString) : Prop :=
  match b.kind with
  | .twilio => False
  | .plivo => ∃ validate signature nonce,
      lib.validateV3Signature = some validate ∧ b.loaded = true ∧
      headers.lookup (js "x-plivo-signature-v3") = some signature ∧
      headers.lookup (js "x-plivo-signature-v3-nonce") = some nonce ∧
      validate (js "POST") url nonce b.secret signature = some true
  | .vonage => ∃ verify token,
      lib.verifySignature = some verify ∧ b.loaded = true ∧
      (headers.lookup (js "authorization")).bind bearerRest = some token ∧
      verify token b.secret = some true

/-- Fields that read alike make the same message. -/
theorem content_inboundOf_congr {lib : Libraries} {b : SMSBackend} {params params' : Json}
    {sender recipient body messageId : JsString × JsString} {now : JsNumber}
    (h : ∀ key, readField params key = readField params' key) :
    (inboundOf lib b params sender recipient body messageId now).map (·.content) =
      (inboundOf lib b params' sender recipient body messageId now).map (·.content) := by
  have heither (first second : JsString) :
      readEither params first second = readEither params' first second := by
    simp only [readEither, h]
  simp only [inboundOf, heither]
  cases readEither params' sender.1 sender.2 with
  | error e => rfl
  | ok from_ =>
  cases hsender : normalizeE164 lib from_ b.defaultCountry with
  | error e => simp [bind, Except.bind, hsender]
  | ok e164 =>
  cases readEither params' recipient.1 recipient.2 with
  | error e => simp [bind, Except.bind, hsender]
  | ok to_ =>
  cases hrecipient : normalizeE164 lib to_ b.defaultCountry with
  | error e => simp [bind, Except.bind, hsender, hrecipient]
  | ok e164' =>
  cases readEither params' body.1 body.2 with
  | error e => simp [bind, Except.bind, hsender, hrecipient]
  | ok text =>
  cases readEither params' messageId.1 messageId.2 with
  | error e => simp [bind, Except.bind, hsender, hrecipient]
  | ok id => simp [bind, Except.bind, pure, Except.pure, hsender, hrecipient, Except.map,
      SMSInbound.content]

theorem readField_formObject (params : OrderedMap JsString JsString) (key : JsString) :
    readField (formObject params) key = .ok ((params.get key).map .string) := by
  have hlookup (es : List (JsString × JsString)) :
      (es.map fun e => (e.1, Json.string e.2)).lookup key =
        (@List.lookup _ _ instBEqOfDecidableEq key es).map .string := by
    induction es with
    | nil => rfl
    | cons e es ih =>
      obtain ⟨name, value⟩ := e
      rw [OrderedMap.lookup_cons, List.map_cons]
      by_cases h : key = name
      · simp [h]
      · simp [List.lookup_cons, h, ih, beq_eq_false_iff_ne.2 h]
  exact congrArg Except.ok (hlookup params.entries)

/-- Twilio's check is given what is parsed, so it leaves one content. -/
theorem TwilioBackend.signsContent {lib : Libraries} {b : SMSBackend}
    {headers : List (JsString × JsString)} {url : JsString} (hkind : b.kind = .twilio)
    (hinj : ValidateRequestInjective lib) : SignsContent lib b headers url := by
  intro body₁ body₂ h₁ h₂
  simp only [SMSBackend.verifySignature, hkind, TwilioBackend.verifySignature] at h₁ h₂
  split at h₁
  · simp at h₁
  rename_i hloaded
  rw [if_neg hloaded] at h₂
  cases hsig : headers.lookup (js "x-twilio-signature") with
  | none => simp [hsig] at h₁
  | some signature =>
  simp only [hsig, bind_eq_ok, pure, Except.pure, Except.ok.injEq] at h₁ h₂
  obtain ⟨params₁, hparse₁, hvalid₁⟩ := h₁
  obtain ⟨params₂, hparse₂, hvalid₂⟩ := h₂
  obtain ⟨_, hget⟩ := hinj _ _ _ _ _ _ (getD_eq_true.1 hvalid₁) (getD_eq_true.1 hvalid₂)
  have hread key : readField (formObject params₁) key = readField (formObject params₂) key := by
    rw [readField_formObject, readField_formObject, hget]
  simp only [parsed, SMSBackend.parseInbound, hkind, TwilioBackend.parseInbound, hparse₁, hparse₂]
  exact content_inboundOf_congr hread

/-- Plivo's and Vonage's checks read nothing of the body. -/
theorem verifySignature_eq_true_iff {lib : Libraries} {b : SMSBackend}
    {headers : List (JsString × JsString)} {url body : JsString} (hkind : b.kind ≠ .twilio) :
    b.verifySignature lib ⟨headers, body, url⟩ = .ok true ↔ AcceptsBodyless lib b headers url := by
  cases hk : b.kind with
  | twilio => exact absurd hk hkind
  | plivo =>
    simp only [SMSBackend.verifySignature, hk, PlivoBackend.verifySignature, AcceptsBodyless,
      Except.ok.injEq]
    constructor
    · intro h
      split at h
      · rename_i validate signature nonce hloaded hvalidate hsignature hnonce
        exact ⟨validate, signature, nonce, hvalidate, hloaded, hsignature, hnonce,
          getD_eq_true.1 h⟩
      · cases h
    · rintro ⟨validate, signature, nonce, hvalidate, hloaded, hsignature, hnonce, h⟩
      simp [hvalidate, hloaded, hsignature, hnonce, h]
  | vonage =>
    simp only [SMSBackend.verifySignature, hk, VonageBackend.verifySignature, AcceptsBodyless,
      Except.ok.injEq]
    constructor
    · intro h
      split at h
      · rename_i token verify htoken hloaded hverify
        exact ⟨verify, token, hverify, hloaded, htoken, getD_eq_true.1 h⟩
      · cases h
    · rintro ⟨verify, token, hverify, hloaded, htoken, h⟩
      simp [hverify, hloaded, htoken, h]

/-- The text of a member. -/
def textAt (params : Json) (key : JsString) : Option JsString := optString (params.get key)

theorem readEither_of_textAt {params : Json} {first second s : JsString}
    (h : textAt params first = some s) : readEither params first second = .ok (.string s) := by
  cases params with
  | object members =>
    have hget := optString_eq_some.1 h
    simp [readEither, readField, hget, Json.orElse, bind, Except.bind, pure, Except.pure]
  | _ => simp [textAt, Json.get, optString] at h

/-- A message between two valid numbers is parsed, and its body is the text posted. -/
theorem exists_content_of_textAt {lib : Libraries} {b : SMSBackend} {params : Json}
    {sender recipient body messageId : JsString × JsString} {now : JsNumber}
    {phone e164 text : JsString} (hphone : phone ≠ [])
    (hvalid : lib.parsePhoneNumber (.string phone) b.defaultCountry = .ok (some e164))
    (hsender : textAt params sender.1 = some phone)
    (hrecipient : textAt params recipient.1 = some phone)
    (hbody : textAt params body.1 = some text) :
    ∃ content, (inboundOf lib b params sender recipient body messageId now).map (·.content) =
      .ok content ∧ content.body = .string text := by
  have hnormal : normalizeE164 lib (.string phone) b.defaultCountry = .ok e164 := by
    simp [normalizeE164, lengthIsZero, hphone, hvalid]
  obtain ⟨id, hid⟩ : ∃ id, readEither params messageId.1 messageId.2 = .ok id := by
    cases params with
    | null => simp [textAt, Json.get, optString] at hsender
    | _ => exact ⟨_, rfl⟩
  refine ⟨⟨e164, e164, .string text, id⟩, ?_, rfl⟩
  simp [inboundOf, readEither_of_textAt hsender, readEither_of_textAt hrecipient,
    readEither_of_textAt hbody, hnormal, hid, bind, Except.bind, pure, Except.pure, Except.map,
    SMSInbound.content]

/-- A number that is written the same in every country. -/
def phone : JsString := js "+14155552671"

/-- A webhook of Plivo or Vonage as JSON. -/
def jsonBody (text : JsString) : JsString :=
  js "\x7b\"From\":\"+14155552671\",\"To\":\"+14155552671\",\"Text\":\"" ++ text ++
    js "\",\"msisdn\":\"+14155552671\",\"to\":\"+14155552671\",\"text\":\"" ++ text ++
    js "\"\x7d"

/-- A webhook of Plivo as a form. -/
def formBody (text : JsString) : JsString :=
  js "From=%2B14155552671&To=%2B14155552671&Text=" ++ text

/-- Two texts to tell apart. -/
def textOf (first : Bool) : JsString := if first then js "a" else js "b"

theorem textAt_jsonBody (first : Bool) :
    ∃ params, (jsonParse (jsonBody (textOf first))).getD (.object []) = params ∧
      ∀ key ∈ [(js "From", phone), (js "To", phone), (js "Text", textOf first),
          (js "msisdn", phone), (js "to", phone), (js "text", textOf first)],
        textAt params key.1 = some key.2 := by
  refine ⟨_, rfl, ?_⟩
  cases first <;> decide +kernel

theorem textAt_formBody (first : Bool) :
    ∃ params, parseFormUrlEncoded (formBody (textOf first)) = .ok params ∧
      ∀ key ∈ [(js "From", phone), (js "To", phone), (js "Text", textOf first)],
        textAt (formObject params) key.1 = some key.2 := by
  have hread : ((parseFormUrlEncoded (formBody (textOf first))).toOption.any fun params =>
      decide (∀ key ∈ [(js "From", phone), (js "To", phone), (js "Text", textOf first)],
        textAt (formObject params) key.1 = some key.2)) = true := by
    cases first <;> decide +kernel
  cases h : parseFormUrlEncoded (formBody (textOf first)) with
  | error e => simp [h, Except.toOption] at hread
  | ok params => exact ⟨params, rfl, by simpa [h, Except.toOption] using hread⟩

/-- Plivo's parameters may be posted as JSON or as a form. -/
theorem PlivoBackend.exists_readParams (headers : List (JsString × JsString)) (url : JsString)
    (first : Bool) : ∃ body params, PlivoBackend.readParams ⟨headers, body, url⟩ = .ok params ∧
      ∀ key ∈ [(js "From", phone), (js "To", phone), (js "Text", textOf first)],
        textAt params key.1 = some key.2 := by
  by_cases hcontent :
      includes (js "application/json") ((headers.lookup (js "content-type")).getD []) = true
  · obtain ⟨params, hparams, hread⟩ := textAt_jsonBody first
    refine ⟨jsonBody (textOf first), params, ?_, fun key hkey => hread key ?_⟩
    · simp only [PlivoBackend.readParams, hcontent, if_true, hparams]
    · exact List.mem_append_left _ hkey
  · obtain ⟨params, hparams, hread⟩ := textAt_formBody first
    refine ⟨formBody (textOf first), formObject params, ?_, hread⟩
    simp [PlivoBackend.readParams, hcontent, hparams, Except.map]

/-- Under any headers a body can be written for either text. -/
theorem exists_body {lib : Libraries} {b : SMSBackend} (headers : List (JsString × JsString))
    (url : JsString) {e164 : JsString} (hkind : b.kind ≠ .twilio)
    (hphone : lib.parsePhoneNumber (.string phone) b.defaultCountry = .ok (some e164))
    (first : Bool) : ∃ body content, parsed lib b ⟨headers, body, url⟩ = .ok content ∧
      content.body = .string (textOf first) := by
  have hne : phone ≠ [] := by decide
  cases hk : b.kind with
  | twilio => exact absurd hk hkind
  | plivo =>
    obtain ⟨body, params, hparams, hread⟩ := PlivoBackend.exists_readParams headers url first
    simp only [List.forall_mem_cons] at hread
    obtain ⟨hFrom, hTo, hText, _⟩ := hread
    refine ⟨body, ?_⟩
    simp only [parsed, SMSBackend.parseInbound, hk, PlivoBackend.parseInbound, hparams]
    exact exists_content_of_textAt hne hphone hFrom hTo hText
  | vonage =>
    obtain ⟨params, hparams, hread⟩ := textAt_jsonBody first
    simp only [List.forall_mem_cons] at hread
    obtain ⟨_, _, _, hmsisdn, hto, htext, _⟩ := hread
    refine ⟨jsonBody (textOf first), ?_⟩
    simp only [parsed, SMSBackend.parseInbound, hk, VonageBackend.parseInbound, hparams]
    exact exists_content_of_textAt hne hphone hmsisdn hto htext

/-- A message is read only as signed under Twilio's check, which covers the parameters, and
where nothing is accepted. -/
theorem signsContent_iff {lib : Libraries} {b : SMSBackend} {headers : List (JsString × JsString)}
    {url e164 : JsString} (hinj : ValidateRequestInjective lib)
    (hphone : lib.parsePhoneNumber (.string phone) b.defaultCountry = .ok (some e164)) :
    SignsContent lib b headers url ↔ ¬AcceptsBodyless lib b headers url := by
  by_cases hkind : b.kind = .twilio
  · simp [TwilioBackend.signsContent hkind hinj, AcceptsBodyless, hkind]
  constructor
  · intro hsigns haccept
    obtain ⟨body₁, _, hparsed₁, hbody₁⟩ := exists_body headers url hkind hphone true
    obtain ⟨body₂, _, hparsed₂, hbody₂⟩ := exists_body headers url hkind hphone false
    have hsame := hsigns body₁ body₂ ((verifySignature_eq_true_iff hkind).2 haccept)
      ((verifySignature_eq_true_iff hkind).2 haccept)
    rw [hparsed₁, hparsed₂, Except.ok.injEq] at hsame
    rw [hsame, hbody₂] at hbody₁
    exact absurd (Json.string.inj hbody₁) (by decide)
  · intro hreject body₁ _ h₁
    exact absurd ((verifySignature_eq_true_iff hkind).1 h₁) hreject

/-- The libraries on one signed request of Twilio's and one of Plivo's, whose number is a valid
one. -/
def providerLibraries : Libraries where
  validateRequest authToken signature url params :=
    some ((authToken, signature, url, params.entries) =
      (js "auth-token-1", js "sd80pCK26JjCPshau5n4hgTIHHs=", js "https://example.test/sms/twilio",
        [(js "From", phone), (js "To", phone), (js "Body", js "hi"), (js "MessageSid", js "SM1")]))
  validateV3Signature := some fun method uri nonce authToken signature =>
    some ((method, uri, nonce, authToken, signature) =
      (js "POST", js "https://example.test/sms/plivo", js "nonce-1", js "auth-token-1",
        js "1p8MhwcPCCj+MSFvrcokXsTwCCsRORKLxuY5C5QGZc4="))
  verifySignature := none
  parsePhoneNumber input _ :=
    match input with
    | .string s => .ok (if s = phone then some phone else none)
    | _ => .error (js "A text for parsing must be a string.")

def plivoBackend : SMSBackend where
  kind := .plivo
  loaded := true
  secret := js "auth-token-1"
  secret_ne_nil := by decide
  defaultCountry := none

def plivoHeaders : List (JsString × JsString) :=
  [(js "content-type", js "application/json"), (js "x-plivo-signature-v3-nonce", js "nonce-1"),
    (js "x-plivo-signature-v3", js "1p8MhwcPCCj+MSFvrcokXsTwCCsRORKLxuY5C5QGZc4=")]

def signedTwilio : SMSBackend where
  kind := .twilio
  loaded := true
  secret := js "auth-token-1"
  secret_ne_nil := by decide
  defaultCountry := none

def signedRequest : SignatureContext where
  headers := [(js "content-type", js "application/x-www-form-urlencoded"),
    (js "x-twilio-signature", js "sd80pCK26JjCPshau5n4hgTIHHs=")]
  rawBody := js "From=%2B14155552671&To=%2B14155552671&Body=hi&MessageSid=SM1"
  url := js "https://example.test/sms/twilio"

theorem validateRequestInjective_provider : ValidateRequestInjective providerLibraries := by
  intro token signature url url' params params' h h'
  have hone := of_decide_eq_true (Option.some.inj h)
  have hother := of_decide_eq_true (Option.some.inj h')
  simp only [Prod.mk.injEq] at hone hother
  obtain ⟨_, _, rfl, hparams⟩ := hone
  obtain ⟨_, _, rfl, hparams'⟩ := hother
  refine ⟨rfl, fun key => ?_⟩
  rw [OrderedMap.get, OrderedMap.get, hparams, hparams']

theorem signsContent_iff_plivo :
    (SignsContent providerLibraries plivoBackend plivoHeaders
        (js "https://example.test/sms/plivo") ↔
      ¬AcceptsBodyless providerLibraries plivoBackend plivoHeaders
        (js "https://example.test/sms/plivo")) ∧
      SignsContent providerLibraries signedTwilio signedRequest.headers signedRequest.url ∧
      (signedTwilio.verifySignature providerLibraries signedRequest).toOption = some true := by
  have hphone : providerLibraries.parsePhoneNumber (.string phone) none = .ok (some phone) := rfl
  have hinj := validateRequestInjective_provider
  refine ⟨signsContent_iff hinj hphone, (signsContent_iff hinj hphone).2 fun h => h, ?_⟩
  decide +kernel

/-- A signed request of Plivo's is accepted with another text. -/
theorem plivo_text_is_not_signed :
    ¬SignsContent providerLibraries plivoBackend plivoHeaders
      (js "https://example.test/sms/plivo") := by
  intro h
  have hsame := h (jsonBody (js "a")) (jsonBody (js "b")) (by rfl) (by rfl)
  have htext := congrArg (fun r => r.toOption.bind fun c => c.body.asString) hsame
  revert htext
  decide +kernel

end TheokitGateways.Sms
