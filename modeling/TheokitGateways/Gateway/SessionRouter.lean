import TheokitGateways.Gateway.MessageEvent

/-!
# Routing an event to its session

`defaultStrategy` joins the platform, a tag and the ids of an event with `-`,
after writing every `-` of an id as `_`. The abstract notion is `SessionIdentity`:
whom a session belongs to. The agent id decides the sanitised identity exactly,
and so separates sessions whose ids do not differ in `-` against `_` alone.
-/

namespace TheokitGateways.Gateway
open Js

def sanitize (s : JsString) : JsString := replaceUnit (unit '-') (unit '_') s

/-- `` `${platform}-${tag}-${a}` `` and longer templates: `-` before every field. -/
def dashed (platform : JsString) (fields : List JsString) : JsString :=
  platform ++ fields.flatMap (unit '-' :: ·)

def defaultStrategy (event : BaseMessageEvent) : JsString :=
  let sid := sanitize event.sender.id
  let cid := sanitize event.channel.id
  match event.channel.type with
  | .dm => dashed event.platform [js "dm", sid]
  | .thread =>
    match event.channel.topicId with
    | none => dashed event.platform [js "grp", cid, sid]
    | some topicId => dashed event.platform [js "tpc", cid, sanitize topicId]
  | .group => dashed event.platform [js "grp", cid, sid]

/-- Whose conversation an event belongs to, on its platform. -/
inductive SessionIdentity where
  | dm (sender : JsString)
  | group (channel sender : JsString)
  | thread (channel topic : JsString)
  deriving DecidableEq

/-- A thread without a topic is its group. -/
def sessionIdentity (event : BaseMessageEvent) : SessionIdentity :=
  match event.channel.type, event.channel.topicId with
  | .dm, _ => .dm event.sender.id
  | .thread, some topicId => .thread event.channel.id topicId
  | .thread, none | .group, _ => .group event.channel.id event.sender.id

namespace SessionIdentity

def sanitized : SessionIdentity → SessionIdentity
  | .dm s => .dm (sanitize s)
  | .group c s => .group (sanitize c) (sanitize s)
  | .thread c t => .thread (sanitize c) (sanitize t)

/-- The fields of an agent id after the platform. -/
def fields : SessionIdentity → List JsString
  | .dm s => [js "dm", s]
  | .group c s => [js "grp", c, s]
  | .thread c t => [js "tpc", c, t]

theorem fields_injective : Function.Injective fields := by
  intro i j h
  cases i <;> cases j <;> simp_all [fields]
  all_goals exact absurd h.1 (by decide)

theorem sanitized_fields (i : SessionIdentity) :
    ∀ x ∈ i.sanitized.fields, unit '-' ∉ x := by
  have hs (s : JsString) : unit '-' ∉ sanitize s := not_mem_replaceUnit (by decide) s
  cases i <;> simp only [sanitized, fields, List.forall_mem_cons, hs, not_false_eq_true,
    true_and, List.not_mem_nil, false_imp_iff, implies_true] <;> decide

end SessionIdentity

theorem defaultStrategy_eq (event : BaseMessageEvent) :
    defaultStrategy event = dashed event.platform (sessionIdentity event).sanitized.fields := by
  unfold defaultStrategy sessionIdentity
  cases event.channel.type with
  | dm | group => rfl
  | thread => cases event.channel.topicId <;> rfl

theorem dashed_eq_intercalate (platform : JsString) (fields : List JsString) :
    dashed platform fields = [unit '-'].intercalate (platform :: fields) := by
  unfold dashed
  induction fields generalizing platform with
  | nil => simp
  | cons field fields ih =>
    rw [List.intercalate_cons_cons, ← ih]
    simp

/-- What follows the platform decides its fields. -/
theorem dashed_fields_inj (p : JsString) {xs ys : List JsString}
    (hx : ∀ x ∈ xs, unit '-' ∉ x) (hy : ∀ y ∈ ys, unit '-' ∉ y) :
    dashed p xs = dashed p ys ↔ xs = ys := by
  have h (zs : List JsString) : dashed p zs = p ++ [unit '-'].intercalate ([] :: zs) := by
    rw [← dashed_eq_intercalate]
    simp [dashed]
  rw [h, h, List.append_cancel_left_eq,
    intercalate_inj (by simp) (by simp) (by simpa using hx) (by simpa using hy)]
  simp

/-- Agent ids decide the platform and the fields, for platforms that agree or carry no
separator of their own. -/
theorem dashed_inj {p q : JsString} {xs ys : List JsString}
    (h : p = q ∨ (unit '-' ∉ p ∧ unit '-' ∉ q))
    (hx : ∀ x ∈ xs, unit '-' ∉ x) (hy : ∀ y ∈ ys, unit '-' ∉ y) :
    dashed p xs = dashed q ys ↔ p = q ∧ xs = ys := by
  obtain rfl | ⟨hp, hq⟩ := h
  · simpa using dashed_fields_inj p hx hy
  · rw [dashed_eq_intercalate, dashed_eq_intercalate,
      intercalate_inj (by simp) (by simp) (by simpa using ⟨hp, hx⟩) (by simpa using ⟨hq, hy⟩)]
    simp

/-- No registered platform carries the separator. -/
theorem platformNames_separator_free : ∀ p ∈ platformNames, unit '-' ∉ p := by decide

/-- Sessions are separated exactly up to `-` and `_` in the ids. -/
theorem defaultStrategy_eq_iff (e₁ e₂ : BaseMessageEvent)
    (h : e₁.platform = e₂.platform ∨ (unit '-' ∉ e₁.platform ∧ unit '-' ∉ e₂.platform)) :
    defaultStrategy e₁ = defaultStrategy e₂ ↔
      e₁.platform = e₂.platform ∧
        (sessionIdentity e₁).sanitized = (sessionIdentity e₂).sanitized := by
  rw [defaultStrategy_eq, defaultStrategy_eq,
    dashed_inj h (SessionIdentity.sanitized_fields _) (SessionIdentity.sanitized_fields _),
    SessionIdentity.fields_injective.eq_iff]

/-- A message of one sender in one channel. -/
def messageOn (platform : JsString) (channel : Channel) (sender : JsString) :
    BaseMessageEvent where
  id := js "m1"
  platform := platform
  sender := { id := sender }
  channel := channel
  text := js "hi"
  receivedAt := 0

/-- A direct message by mail: the channel is the sender. -/
def mailFrom (address : JsString) : BaseMessageEvent :=
  messageOn (js "email") { id := address, type := .dm } address

theorem defaultStrategy_eq_iff_mail :
    defaultStrategy (mailFrom (js "ann@a.org")) = defaultStrategy (mailFrom (js "bob@a.org")) ↔
      (mailFrom (js "ann@a.org")).platform = (mailFrom (js "bob@a.org")).platform ∧
        (sessionIdentity (mailFrom (js "ann@a.org"))).sanitized =
          (sessionIdentity (mailFrom (js "bob@a.org"))).sanitized :=
  defaultStrategy_eq_iff (mailFrom (js "ann@a.org")) (mailFrom (js "bob@a.org"))
    (.inl (Eq.refl (js "email")))

/-- Two senders whose ids differ in `-` against `_` share a session; so do two platforms,
when the name of one carries the separator. -/
theorem defaultStrategy_collides :
    (¬ ∀ e₁ e₂ : BaseMessageEvent, defaultStrategy e₁ = defaultStrategy e₂ ↔
        e₁.platform = e₂.platform ∧ sessionIdentity e₁ = sessionIdentity e₂) ∧
      defaultStrategy (messageOn (js "acme-grp") { id := js "c", type := .dm } (js "u")) =
        defaultStrategy (messageOn (js "acme") { id := js "dm", type := .group } (js "u")) := by
  refine ⟨fun h => ?_, by decide⟩
  have hmail := (h (mailFrom (js "a-b@a.org")) (mailFrom (js "a_b@a.org"))).1 (by decide)
  exact absurd hmail.2 (by decide)

end TheokitGateways.Gateway
