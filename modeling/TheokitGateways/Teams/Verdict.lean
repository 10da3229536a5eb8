import TheokitGateways.Teams.ActivityVerifier

/-!
# Teams: what an accepted activity is

`Genuine` says what stands behind an accepted activity: the token's segments, the
key it was signed under, the SDK's answer and the claims. Each function of the
verifier has the lemma that says what its passing means; together they make
`genuine_of_accepted`. The verifier answers unless the SDK is asked and throws
what cannot be inspected.
-/

namespace TheokitGateways.Teams
open Js

section
variable {Key : Type}
variable (verify : List UInt8 → Key → List UInt8 → Option Bool)
variable (lookup : KeySetName → JsString → KeyLookup Key)
variable (toLowerCase : JsString → JsString)

/-- A token of three segments, with alg RS256, signed under the key that the set of its issuer
lists for its `kid`. -/
structure Signed (rawToken : JsString) (expected : Expected) (channelId : Option Json) : Prop where
  signature : ∃ header payload signature decodedHeader kid key,
    rawToken.splitOn (unit '.') = [header, payload, signature] ∧
    decodeSegment rawToken 0 = some decodedHeader ∧
    decodedHeader.get (js "alg") = some (.string (js "RS256")) ∧
    decodedHeader.get (js "kid") = some (.string kid) ∧
    lookup (if isTenantIssuedToken rawToken expected.loginEndpoint then .tenant
      else .botFramework) kid = .listed key ∧
    verify (utf8Encode (header ++ [unit '.'] ++ payload)) key.publicKey
      (base64urlDecode signature) = some true ∧
    (isTenantIssuedToken rawToken expected.loginEndpoint = false →
      keyEndorsesChannel key.endorsements channelId = true)

/-- What stands behind an accepted activity. -/
structure Genuine (expected : Expected) (loaded : Loaded) (request : Request) (activity : Json)
    (token : ResolvedToken) : Prop where
  request : ∃ header rawToken text serviceUrl claims,
    request.authorization = some header ∧ readBearerToken (some header) = some rawToken ∧
    request.body = .text text ∧ parseActivityBody text = some ⟨activity, serviceUrl⟩ ∧
    Signed verify lookup rawToken expected (activity.get (js "channelId")) ∧
    (∃ validator result, loaded = .ok validator ∧
      (validator.check header activity).outcome = .ok result ∧
      resolvedToken result = .ok (some token)) ∧
    decodeSegment rawToken 1 = some claims ∧
    ClaimsMatch toLowerCase claims expected serviceUrl (activity.get (js "channelId"))

end

theorem readRequest_eq_ok {request : Request} {read : ReadRequest}
    (h : readRequest request = .ok read) :
    request.authorization = some read.header ∧
      readBearerToken (some read.header) = some read.rawToken ∧
      ∃ text, request.body = .text text ∧ parseActivityBody text = some read.body := by
  simp only [readRequest] at h
  split at h
  · rename_i header rawToken hheader hraw
    obtain ⟨body, hbody, hread⟩ := bind_eq_ok.1 h
    cases hread
    refine ⟨hheader, by rw [← hheader]; exact hraw, ?_⟩
    simp only [readBody] at hbody
    split at hbody
    · cases hbody
    · cases hbody
    · cases hbody
    rename_i text htext
    split at hbody
    · cases hbody
    · rename_i activity hactivity
      cases hbody
      exact ⟨text, htext, hactivity⟩
  · cases h

theorem segments_of_decodeSegment {rawToken : JsString} {index : Fin 3} {decoded : Json}
    (h : decodeSegment rawToken index = some decoded) :
    ∃ header payload signature, rawToken.splitOn (unit '.') = [header, payload, signature] := by
  simp only [decodeSegment] at h
  split at h
  · cases h
  · rename_i hlength
    rcases hsplit : rawToken.splitOn (unit '.') with _ | ⟨a, _ | ⟨b, _ | ⟨c, _ | _⟩⟩⟩
    case cons.cons.cons.nil => exact ⟨a, b, c, rfl⟩
    all_goals simp [hsplit] at hlength

theorem keySetFor_eq_ok {rawToken : JsString} {expected : Expected} {accepts : Bool}
    {set : KeySetName} (h : keySetFor rawToken expected accepts = .ok set) :
    set = if isTenantIssuedToken rawToken expected.loginEndpoint then .tenant
      else .botFramework := by
  simp only [keySetFor] at h
  split at h
  · rename_i hbot
    cases h
    simp [by simpa using hbot]
  · rename_i hissued
    split at h
    · cases h
    split at h
    · cases h
      simp [by simpa using hissued]
    · cases h

section
variable {Key : Type}
variable {verify : List UInt8 → Key → List UInt8 → Option Bool}
variable {lookup : KeySetName → JsString → KeyLookup Key}
variable {toLowerCase : JsString → JsString}

theorem refuseListedKey_eq_none {rawToken : JsString} {listed : KeyLookup Key} {bot : Bool}
    {channelId : Option Json} (h : refuseListedKey verify rawToken listed bot channelId = none) :
    ∃ key, listed = .listed key ∧
      (bot = true → keyEndorsesChannel key.endorsements channelId = true) ∧
      verifiesRs256 verify rawToken key.publicKey = true := by
  cases listed with
  | unlisted => cases h
  | unavailable message => cases h
  | listed key =>
    simp only [refuseListedKey] at h
    split at h
    · cases h
    split at h
    · cases h
    rename_i hendorsed hverifies
    exact ⟨key, rfl, by simpa using hendorsed, by simpa using hverifies⟩

/-- The SDK is asked only about signed tokens. -/
theorem signed_of_admitted {rawToken : JsString} {expected : Expected} {channelId : Option Json}
    {accepts : Bool} {now : JsNumber}
    (h : admitToSdk verify lookup toLowerCase rawToken expected channelId accepts now = none) :
    Signed verify lookup rawToken expected channelId := by
  simp only [admitToSdk] at h
  split at h
  · cases h
  rename_i kid hkid
  split at h
  · cases h
  split at h
  · cases h
  rename_i set hset
  split at h
  · cases h
  rename_i halg
  split at h
  · cases h
  rename_i hkey
  obtain ⟨key, hlisted, hendorsed, hverifies⟩ := refuseListedKey_eq_none hkey
  have hset' := keySetFor_eq_ok hset
  have hkid' := optString_eq_some.1 (Option.filter_eq_some_iff.1 hkid).1
  have halg' := optString_eq_some.1 (Classical.not_not.1 halg)
  obtain ⟨decodedHeader, hheader, hgetKid⟩ := Option.bind_eq_some_iff.1 hkid'
  obtain ⟨header, payload, signature, hsplit⟩ := segments_of_decodeSegment hheader
  refine ⟨header, payload, signature, decodedHeader, kid, key, hsplit, hheader, ?_, hgetKid,
    hset' ▸ hlisted, ?_, fun hbot => hendorsed ?_⟩
  · simpa [optGet, hheader] using halg'
  · simp only [verifiesRs256, hsplit] at hverifies
    exact getD_eq_true.1 hverifies
  · simp [hset', hbot]

theorem reachSdk_eq_ok {expected : Expected} {loaded : Loaded} {now : JsNumber}
    {request : Request} {read : ReadRequest} {validator : Validator}
    (h : reachSdk verify lookup toLowerCase expected loaded now request =
      .ok (read, validator)) :
    readRequest request = .ok read ∧ loaded = .ok validator ∧
      Signed verify lookup read.rawToken expected (read.body.activity.get (js "channelId")) := by
  obtain ⟨read', hread, h⟩ := bind_eq_ok.1 h
  cases loaded with
  | error unavailable => cases h
  | ok loaded =>
    simp only at h
    split at h
    · cases h
    · rename_i hadmit
      cases h
      exact ⟨hread, rfl, signed_of_admitted hadmit⟩

theorem judgeVerifiedToken_accepts {token token' : ResolvedToken} {rawToken : JsString}
    {body : ReadableActivity} {expected : Expected} {activity : Json}
    (h : judgeVerifiedToken toLowerCase token rawToken body expected =
      .accepted activity token') :
    token' = token ∧ activity = body.activity ∧ ∃ claims, decodeSegment rawToken 1 = some claims ∧
      ClaimsMatch toLowerCase claims expected body.serviceUrl
        (body.activity.get (js "channelId")) := by
  simp only [judgeVerifiedToken] at h
  split at h
  · cases h
  rename_i claims hclaims
  split at h
  · cases h
  rename_i hpass
  cases h
  exact ⟨rfl, rfl, claims, hclaims, checkVerifiedClaims_eq_none_iff.1 hpass⟩

theorem judgeFailure_ne_resolved {e : JsAny} {token : ResolvedToken} :
    judgeFailure e ≠ .ok (.resolved token) := by
  intro h
  obtain ⟨refusal, _, h⟩ := bind_eq_ok.1 h
  split at h
  · cases h
  · obtain ⟨kind, _, h⟩ := bind_eq_ok.1 h
    cases h

/-- The SDK resolves a token only by answering with its fields. -/
theorem sdkCheck_resolves {run : CheckRun} {token : ResolvedToken}
    (h : sdkCheck run = .ok (.resolved token)) :
    ∃ result, run.outcome = .ok result ∧ resolvedToken result = .ok (some token) := by
  obtain ⟨verdict, hverdict, h⟩ := bind_eq_ok.1 h
  have hresolved : verdict = .resolved token := by
    cases verdict with
    | refused =>
      simp only at h
      split at h <;> cases h
    | resolved token' => cases h; rfl
    | failed refusal => cases h
  subst hresolved
  simp only [sdkVerdict] at hverdict
  split at hverdict
  · rename_i hanswer
    cases hverdict
    exact bind_eq_ok.1 hanswer
  · cases hverdict
  · exact absurd hverdict judgeFailure_ne_resolved

/-- An accepted activity is genuine. -/
theorem genuine_of_accepted {expected : Expected} {loaded : Loaded} {now : JsNumber}
    {request : Request} {activity : Json} {token : ResolvedToken}
    (h : verifyActivity verify lookup toLowerCase expected loaded now request =
      .ok (.accepted activity token)) :
    Genuine verify lookup toLowerCase expected loaded request activity token := by
  simp only [verifyActivity] at h
  split at h
  · cases h
  rename_i read validator hreach
  obtain ⟨hread, hloaded, hsigned⟩ := reachSdk_eq_ok hreach
  obtain ⟨hheader, hraw, text, htext, hbody⟩ := readRequest_eq_ok hread
  obtain ⟨verdict, hcheck, h⟩ := bind_eq_ok.1 h
  cases verdict with
  | failed refusal => cases h
  | refused => cases h
  | resolved resolved =>
    obtain ⟨rfl, rfl, claims, hclaims, hmatch⟩ :=
      judgeVerifiedToken_accepts (Except.ok.inj h)
    obtain ⟨result, houtcome, hresult⟩ := sdkCheck_resolves hcheck
    exact ⟨read.header, read.rawToken, text, read.body.serviceUrl, claims, hheader, hraw, htext,
      hbody, hsigned, ⟨validator, result, hloaded, houtcome, hresult⟩, hclaims, hmatch⟩

end

/-! ## What cannot be inspected -/

/-- A plain `Error`, with which the SDK refuses a token. -/
def PlainError (e : JsAny) : Prop :=
  e.instanceOfError = .ok true ∧
    ∃ c, e.read (js "constructor") = .ok c ∧ c.isErrorConstructor = true

/-- A thrown value that says whether it is an `Error` and of which class, and, unless it is a
plain one, lets its name and its code be read. -/
structure Inspectable (e : JsAny) : Prop where
  class_known : ∃ isError, e.instanceOfError = .ok isError ∧
    (isError = true → ∃ c, e.read (js "constructor") = .ok c)
  named : ¬PlainError e → e.typeOf = js "object" → e ≠ .null →
    (∃ name, e.read (js "name") = .ok name) ∧ ∃ code, e.read (js "code") = .ok code

theorem isTokenRefusal_eq_ok_iff {e : JsAny} :
    (∃ b, isTokenRefusal e = .ok b) ↔ ∃ isError, e.instanceOfError = .ok isError ∧
      (isError = true → ∃ c, e.read (js "constructor") = .ok c) := by
  constructor
  · rintro ⟨b, h⟩
    obtain ⟨isError, herror, h⟩ := bind_eq_ok.1 h
    refine ⟨isError, herror, fun htrue => ?_⟩
    rw [htrue, if_pos rfl] at h
    obtain ⟨c, hc, _⟩ := bind_eq_ok.1 h
    exact ⟨c, hc⟩
  · rintro ⟨isError, herror, hclass⟩
    cases isError with
    | false => exact ⟨false, bind_eq_ok.2 ⟨false, herror, rfl⟩⟩
    | true =>
      obtain ⟨c, hc⟩ := hclass rfl
      exact ⟨c.isErrorConstructor, bind_eq_ok.2 ⟨true, herror, bind_eq_ok.2 ⟨c, hc, rfl⟩⟩⟩

theorem isTokenRefusal_eq_true_iff {e : JsAny} :
    isTokenRefusal e = .ok true ↔ PlainError e := by
  constructor
  · intro h
    obtain ⟨isError, herror, h⟩ := bind_eq_ok.1 h
    cases isError with
    | false => cases h
    | true =>
      rw [if_pos rfl] at h
      obtain ⟨c, hc, h⟩ := bind_eq_ok.1 h
      exact ⟨herror, c, hc, Except.ok.inj h⟩
  · rintro ⟨herror, c, hc, hclass⟩
    exact bind_eq_ok.2 ⟨true, herror, bind_eq_ok.2 ⟨c, hc, congrArg Except.ok hclass⟩⟩

theorem errorKind_eq_ok_iff {e : JsAny} :
    (∃ kind, errorKind e = .ok kind) ↔ (e.typeOf = js "object" → e ≠ .null →
      (∃ name, e.read (js "name") = .ok name) ∧ ∃ code, e.read (js "code") = .ok code) := by
  simp only [errorKind]
  by_cases htype : e.typeOf = js "object"
  · simp only [htype, ne_eq, not_true_eq_false, if_false, forall_const]
    split
    · simp
    · rename_i hnull
      constructor
      · rintro ⟨kind, h⟩ _
        obtain ⟨name, hname, h⟩ := bind_eq_ok.1 h
        obtain ⟨code, hcode, _⟩ := bind_eq_ok.1 h
        exact ⟨⟨name, hname⟩, code, hcode⟩
      · intro hread
        obtain ⟨⟨name, hname⟩, code, hcode⟩ := hread hnull
        exact ⟨_, bind_eq_ok.2 ⟨name, hname, bind_eq_ok.2 ⟨code, hcode, rfl⟩⟩⟩
  · simp [htype]

/-- A failure is judged when it can be inspected. -/
theorem judgeFailure_settles_iff {e : JsAny} :
    (∃ verdict, judgeFailure e = .ok verdict) ↔ Inspectable e := by
  constructor
  · rintro ⟨verdict, h⟩
    obtain ⟨refusal, hrefusal, h⟩ := bind_eq_ok.1 h
    refine ⟨isTokenRefusal_eq_ok_iff.1 ⟨refusal, hrefusal⟩, fun hplain => ?_⟩
    cases refusal with
    | true => exact absurd (isTokenRefusal_eq_true_iff.1 hrefusal) hplain
    | false =>
      obtain ⟨kind, hkind, _⟩ := bind_eq_ok.1 h
      exact errorKind_eq_ok_iff.1 ⟨kind, hkind⟩
  · rintro ⟨hclass, hnamed⟩
    obtain ⟨refusal, hrefusal⟩ := isTokenRefusal_eq_ok_iff.2 hclass
    cases refusal with
    | true => exact ⟨.refused, bind_eq_ok.2 ⟨true, hrefusal, rfl⟩⟩
    | false =>
      have hplain : ¬PlainError e := fun h => by
        cases hrefusal.symm.trans (isTokenRefusal_eq_true_iff.2 h)
      obtain ⟨kind, hkind⟩ := errorKind_eq_ok_iff.2 (hnamed hplain)
      exact ⟨_, bind_eq_ok.2 ⟨false, hrefusal, bind_eq_ok.2 ⟨kind, hkind, rfl⟩⟩⟩

/-- What `check()` throws, or reading its answer, can be inspected. -/
def CheckRun.Inspectable (run : CheckRun) : Prop :=
  ∀ e, run.outcome >>= resolvedToken = .error e → Teams.Inspectable e

theorem sdkCheck_settles_iff {run : CheckRun} :
    (∃ verdict, sdkCheck run = .ok verdict) ↔ run.Inspectable := by
  have hverdict : (∃ verdict, sdkCheck run = .ok verdict) ↔
      ∃ verdict, sdkVerdict run.outcome = .ok verdict := by
    constructor
    · rintro ⟨_, h⟩
      obtain ⟨verdict, h, _⟩ := bind_eq_ok.1 h
      exact ⟨verdict, h⟩
    · rintro ⟨verdict, h⟩
      cases verdict with
      | refused =>
        by_cases hlog : (run.logged.any fun e => notesKeyReadFailure e.1 e.2) = true
        · exact ⟨_, bind_eq_ok.2 ⟨_, h, if_pos hlog⟩⟩
        · exact ⟨_, bind_eq_ok.2 ⟨_, h, if_neg hlog⟩⟩
      | resolved token => exact ⟨_, bind_eq_ok.2 ⟨_, h, rfl⟩⟩
      | failed refusal => exact ⟨_, bind_eq_ok.2 ⟨_, h, rfl⟩⟩
  rw [hverdict, sdkVerdict, CheckRun.Inspectable]
  cases run.outcome >>= resolvedToken with
  | ok token => cases token <;> simp
  | error e => simp [judgeFailure_settles_iff]

section
variable {Key : Type}
variable (verify : List UInt8 → Key → List UInt8 → Option Bool)
variable (lookup : KeySetName → JsString → KeyLookup Key)
variable (toLowerCase : JsString → JsString)

/-- What a request is promised: an answer, that an accepted activity is genuine, and that the
tenant check made before the SDK is asked refuses only what the claims' check refuses. -/
structure VerifiesActivity (expected : Expected) (loaded : Loaded) (now : JsNumber)
    (request : Request) : Prop where
  settles : ∃ result,
    verifyActivity verify lookup toLowerCase expected loaded now request = .ok result
  accepts_genuine : ∀ activity token,
    verifyActivity verify lookup toLowerCase expected loaded now request =
      .ok (.accepted activity token) →
    Genuine verify lookup toLowerCase expected loaded request activity token
  tenant_refusal_sound : ∀ rawToken refusal,
    tenantRefusalBeforeVerification toLowerCase rawToken expected = some refusal →
    ∃ claims, decodeVerifiedClaims rawToken = some claims ∧ ∀ serviceUrl channelId,
      checkVerifiedClaims toLowerCase claims expected serviceUrl channelId ≠ none

variable {verify lookup toLowerCase}

/-- The verifier keeps its promise unless it asks the SDK and is thrown what cannot be
inspected. -/
theorem verifiesActivity_iff {expected : Expected} {loaded : Loaded} {now : JsNumber}
    {request : Request} :
    VerifiesActivity verify lookup toLowerCase expected loaded now request ↔
      ∀ read validator,
        reachSdk verify lookup toLowerCase expected loaded now request = .ok (read, validator) →
        (validator.check read.header read.body.activity).Inspectable := by
  constructor
  · rintro ⟨⟨result, h⟩, _, _⟩ read validator hreach
    rw [verifyActivity, hreach] at h
    obtain ⟨verdict, hcheck, _⟩ := bind_eq_ok.1 h
    exact sdkCheck_settles_iff.1 ⟨verdict, hcheck⟩
  · intro hinspectable
    refine ⟨?_, fun _ _ => genuine_of_accepted, fun _ _ => tenantRefusal_sound⟩
    cases hreach : reachSdk verify lookup toLowerCase expected loaded now request with
    | error refusal => exact ⟨.refused refusal, by rw [verifyActivity, hreach]⟩
    | ok asked =>
      obtain ⟨verdict, hcheck⟩ := sdkCheck_settles_iff.2 (hinspectable asked.1 asked.2 hreach)
      rw [verifyActivity, hreach]
      exact ⟨_, bind_eq_ok.2 ⟨verdict, hcheck, rfl⟩⟩

end

/-- The header and payload of a Bot Framework token for the app `app`, under the key `k1`. -/
def botTokenSigned : JsString :=
  js "eyJhbGciOiJSUzI1NiIsImtpZCI6ImsxIn0.eyJpc3MiOiJodHRwczovL2FwaS5ib3RmcmFtZXdvcmsuY29tIiwi" ++
  js "YXVkIjoiYXBwIiwic2VydmljZXVybCI6Imh0dHBzOi8vcy50ZXN0IiwiZXhwIjoyMDAwMDAwMDAwfQ"

/-- Its signature by a key of 512 bits. -/
def botTokenSignature : JsString :=
  js "ktnLBs3BoohkJGCurf8u7t4mJtKPjkIaSLu5amh0uq_w_tW7ln5CwMvKDTEMU2x4s72jyPLWqc68gQDd24mByQ"

/-- A validator that throws a revoked proxy. -/
def revokedValidator : Validator where
  check _ _ := ⟨.error (.sealed (.error (js "TypeError")
    (js "Cannot perform 'getPrototypeOf' on a proxy that has been revoked"))), []⟩
  acceptsTenantIssued := true

/-- A validator that throws what cannot be inspected leaves the verifier without an answer. -/
theorem revoked_proxy_rejects :
    ¬VerifiesActivity
      (fun data (_ : Unit) signature =>
        some (data = utf8Encode botTokenSigned ∧ signature = base64urlDecode botTokenSignature))
      (fun set kid =>
        if set = .botFramework ∧ kid = js "k1" then .listed ⟨(), some [js "msteams"]⟩
        else .unlisted)
      (·.map asciiLower) ⟨js "app", by decide, none, defaultLoginEndpoint⟩ (.ok revokedValidator)
      1900000000
      ⟨some (js "Bearer " ++ botTokenSigned ++ js "." ++ botTokenSignature),
        .text (js "\x7b\"serviceUrl\":\"https://s.test\",\"channelId\":\"msteams\"\x7d")⟩ := by
  rintro ⟨⟨result, hresult⟩, _, _⟩
  have hsettled := congrArg Except.isOk hresult
  rw [show (Except.ok result : Except JsAny TeamsActivityVerifyResult).isOk = true from rfl]
    at hsettled
  revert hsettled
  decide +kernel

end TheokitGateways.Teams
