import TheokitGateways.Gateway.Adapter

/-!
# Building the configured channels

`createChannels` goes through the entries once and builds an adapter for each that
is not refused. What happens to an entry depends on the ones before it only through
the platforms that are taken, and only an entry that was built takes its platform:
so the first entry of a platform that can be built is the one that is.
-/

namespace TheokitGateways.Gateway
open Js

structure GatewayConfigurationError where
  code : JsString
  message : JsString
  detail : Option JsString
  deriving DecidableEq

/-- `new GatewayConfigurationError(package, { code, message, detail })`. -/
def gatewayConfigurationError (package code : JsString) (message detail : Option JsString) :
    GatewayConfigurationError where
  code := code
  message := message.getD (package ++ js ": " ++ code)
  detail := detail

/-- What `create` throws: a `GatewayConfigurationError`, of a subclass or not, or another value. -/
inductive CreateThrown where
  | configuration (error : GatewayConfigurationError)
  | other (err : JsAny)

structure ChannelConfigField where
  key : JsString
  required : Bool

/-- A configuration: what reading a key of it gives. -/
abbrev Values := JsString → JsAny

/-- What every object inherits. -/
def objectPrototypeKeys : List JsString :=
  [js "constructor", js "__defineGetter__", js "__defineSetter__", js "hasOwnProperty",
    js "__lookupGetter__", js "__lookupSetter__", js "isPrototypeOf", js "propertyIsEnumerable",
    js "toString", js "valueOf", js "toLocaleString", js "__proto__"]

/-- `{}`. -/
def emptyObject : Values := fun key =>
  if key ∈ objectPrototypeKeys then .ofMembers .plain false [] (js "[object Object]")
  else .undefined

structure ChannelDescriptor (A : Type) where
  platform : JsString
  config : List ChannelConfigField
  create : Values → Except CreateThrown A

structure ChannelEntry (A : Type) where
  descriptor : ChannelDescriptor A
  config : Option Values := none

structure ChannelRejection where
  platform : JsString
  error : GatewayConfigurationError
  deriving DecidableEq

def isAbsent : JsAny → Bool
  | .undefined | .null => true
  | .primitive type text => type = js "string" && text = []
  | _ => false

section

variable {A : Type}

/-- `entry.config ?? {}`. -/
def ChannelEntry.values (entry : ChannelEntry A) : Values := entry.config.getD emptyObject

def missingRequiredKeys (entry : ChannelEntry A) (values : Values) : List JsString :=
  (entry.descriptor.config.filter fun field => field.required && isAbsent (values field.key)).map
    ChannelConfigField.key

def refused (platform code reason : JsString) : ChannelRejection where
  platform := platform
  error := gatewayConfigurationError (js "gateway") code
    (some (js "channel " ++ platform ++ js ": " ++ reason)) none

def refuseBeforeCreate (entry : ChannelEntry A) (values : Values)
    (builtPlatforms : List JsString) : Option ChannelRejection :=
  if entry.descriptor.platform ∈ builtPlatforms then
    some (refused entry.descriptor.platform (js "duplicate_channel")
      (js "a channel for this platform was already built"))
  else if missingRequiredKeys entry values ≠ [] then
    some (refused entry.descriptor.platform (js "missing_required_config")
      (js "missing required config " ++
        (js ", ").intercalate (missingRequiredKeys entry values)))
  else none

variable (platformOf : A → JsString)

/-- What building an entry produced: its adapter, or the rejection that refused it. Anything else
that `create` throws is thrown on. -/
def createAdapter (entry : ChannelEntry A) (values : Values) :
    Except JsAny (Except ChannelRejection A) :=
  match entry.descriptor.create values with
  | .error (.other err) => .error err
  | .error (.configuration error) => .ok (.error ⟨entry.descriptor.platform, error⟩)
  | .ok adapter =>
    if platformOf adapter ≠ entry.descriptor.platform then
      .ok (.error (refused entry.descriptor.platform (js "platform_mismatch")
        (js "create returned an adapter reporting platform " ++ platformOf adapter)))
    else .ok (.ok adapter)

/-- What became of an entry, and whether its `create` was called. -/
structure Processed (A : Type) where
  outcome : Except ChannelRejection A
  called : Bool

def Processed.adapter? (p : Processed A) : Option A := p.outcome.toOption

def Processed.refusal? (p : Processed A) : Option ChannelRejection :=
  match p.outcome with
  | .error refusal => some refusal
  | .ok _ => none

/-- The loop's body up to its outcome. -/
def process (entry : ChannelEntry A) (builtPlatforms : List JsString) :
    Except JsAny (Processed A) :=
  match refuseBeforeCreate entry entry.values builtPlatforms with
  | some refusal => .ok ⟨.error refusal, false⟩
  | none => (createAdapter platformOf entry entry.values).map fun outcome => ⟨outcome, true⟩

/-- The loop's variables, and beside them what became of each entry so far. -/
structure Building (A : Type) where
  adapters : List A := []
  rejected : List ChannelRejection := []
  builtPlatforms : List JsString := []
  processed : List (Processed A) := []

/-- One entry of the loop. -/
def Building.add (b : Building A) (entry : ChannelEntry A) : Except JsAny (Building A) := do
  let p ← process platformOf entry b.builtPlatforms
  match p.outcome with
  | .error refusal =>
    return { b with rejected := b.rejected ++ [refusal], processed := b.processed ++ [p] }
  | .ok adapter =>
    return { adapters := b.adapters ++ [adapter]
             rejected := b.rejected
             builtPlatforms := b.builtPlatforms ++ [entry.descriptor.platform]
             processed := b.processed ++ [p] }

def createChannels (entries : List (ChannelEntry A)) : Except JsAny (Building A) :=
  entries.foldlM (Building.add platformOf) {}

/-! ## What becomes of each entry -/

/-- The entry has its required fields, and its `create` makes this adapter for its platform. -/
structure Builds (entry : ChannelEntry A) (adapter : A) : Prop where
  complete : missingRequiredKeys entry entry.values = []
  created : entry.descriptor.create entry.values = .ok adapter
  platform : platformOf adapter = entry.descriptor.platform

/-- The entry can be built. -/
def Buildable (entry : ChannelEntry A) : Prop := ∃ adapter, Builds platformOf entry adapter

/-- `create` throws nothing but configuration errors. -/
def RefusesOnly (entry : ChannelEntry A) : Prop :=
  ∀ values err, entry.descriptor.create values ≠ .error (.other err)

variable {platformOf} {entry : ChannelEntry A} {builtPlatforms : List JsString} {p : Processed A}

theorem Builds.unique {a₁ a₂ : A} (h₁ : Builds platformOf entry a₁)
    (h₂ : Builds platformOf entry a₂) : a₁ = a₂ := by
  have h := h₁.created.symm.trans h₂.created
  cases h
  rfl

theorem refuseBeforeCreate_eq_none :
    refuseBeforeCreate entry entry.values builtPlatforms = none ↔
      entry.descriptor.platform ∉ builtPlatforms ∧
        missingRequiredKeys entry entry.values = [] := by
  unfold refuseBeforeCreate
  split
  · simp_all
  · split <;> simp_all

theorem refuseBeforeCreate_platform {refusal : ChannelRejection}
    (h : refuseBeforeCreate entry entry.values builtPlatforms = some refusal) :
    refusal.platform = entry.descriptor.platform := by
  unfold refuseBeforeCreate at h
  split at h
  · cases h
    rfl
  · split at h <;> cases h
    rfl

theorem createAdapter_of_refusesOnly (hentry : RefusesOnly entry) :
    ∃ outcome, createAdapter platformOf entry entry.values = .ok outcome := by
  unfold createAdapter
  cases hcreate : entry.descriptor.create entry.values with
  | error thrown =>
    cases thrown with
    | configuration error => exact ⟨_, rfl⟩
    | other err => exact absurd hcreate (hentry _ _)
  | ok adapter =>
    by_cases hplatform : platformOf adapter = entry.descriptor.platform <;> simp [hplatform]

theorem createAdapter_eq_ok {values : Values} {adapter : A} :
    createAdapter platformOf entry values = .ok (.ok adapter) ↔
      entry.descriptor.create values = .ok adapter ∧
        platformOf adapter = entry.descriptor.platform := by
  unfold createAdapter
  cases hcreate : entry.descriptor.create values with
  | error thrown => cases thrown <;> simp
  | ok made =>
    by_cases hplatform : platformOf made = entry.descriptor.platform
    · simp only [ne_eq, hplatform, not_true_eq_false, if_false, Except.ok.injEq]
      exact ⟨fun h => ⟨h, h ▸ hplatform⟩, And.left⟩
    · simp only [ne_eq, hplatform, not_false_eq_true, if_true, Except.ok.injEq, reduceCtorEq,
        false_iff, not_and]
      exact fun h => h ▸ hplatform

/-- A refusal is in the entry's name. -/
theorem createAdapter_platform {values : Values} {refusal : ChannelRejection}
    (h : createAdapter platformOf entry values = .ok (.error refusal)) :
    refusal.platform = entry.descriptor.platform := by
  unfold createAdapter at h
  split at h
  · cases h
  · cases h
    rfl
  · split at h
    · cases h
      rfl
    · cases h

/-- What one entry comes to when these platforms are taken. -/
structure Treated (platformOf : A → JsString) (entry : ChannelEntry A)
    (builtPlatforms : List JsString) (p : Processed A) : Prop where
  built : ∀ adapter, p.outcome = .ok adapter ↔
    Builds platformOf entry adapter ∧ entry.descriptor.platform ∉ builtPlatforms
  refusal : ∀ refusal, p.outcome = .error refusal →
    refusal.platform = entry.descriptor.platform
  called : p.called = true ↔ missingRequiredKeys entry entry.values = [] ∧
    entry.descriptor.platform ∉ builtPlatforms

theorem process_spec (h : process platformOf entry builtPlatforms = .ok p) :
    Treated platformOf entry builtPlatforms p := by
  unfold process at h
  cases hbefore : refuseBeforeCreate entry entry.values builtPlatforms with
  | some refusal =>
    rw [hbefore] at h
    cases h
    have hnot : ¬(entry.descriptor.platform ∉ builtPlatforms ∧
        missingRequiredKeys entry entry.values = []) := by
      rw [← refuseBeforeCreate_eq_none, hbefore]
      nofun
    refine ⟨fun adapter => ⟨nofun, fun hb => ?_⟩, fun r hr => ?_, ⟨nofun, fun hc => ?_⟩⟩
    · exact absurd ⟨hb.2, hb.1.complete⟩ hnot
    · cases hr
      exact refuseBeforeCreate_platform hbefore
    · exact absurd hc.symm hnot
  | none =>
    rw [hbefore] at h
    obtain ⟨hfree, hcomplete⟩ := refuseBeforeCreate_eq_none.mp hbefore
    cases hmade : createAdapter platformOf entry entry.values with
    | error err =>
      rw [hmade] at h
      cases h
    | ok outcome =>
      rw [hmade] at h
      cases h
      refine ⟨fun adapter => ⟨fun houtcome => ?_, fun hb => ?_⟩, fun refusal houtcome => ?_,
        fun _ => ⟨hcomplete, hfree⟩, fun _ => rfl⟩
      · obtain rfl : outcome = .ok adapter := houtcome
        obtain ⟨hcreated, hplatform⟩ := createAdapter_eq_ok.mp hmade
        exact ⟨⟨hcomplete, hcreated, hplatform⟩, hfree⟩
      · have hok := createAdapter_eq_ok.mpr ⟨hb.1.created, hb.1.platform⟩
        exact Except.ok.inj (hmade.symm.trans hok)
      · obtain rfl : outcome = .error refusal := houtcome
        exact createAdapter_platform hmade

theorem process_of_refusesOnly (hentry : RefusesOnly entry) (builtPlatforms : List JsString) :
    ∃ p, process platformOf entry builtPlatforms = .ok p := by
  unfold process
  cases refuseBeforeCreate entry entry.values builtPlatforms with
  | some refusal => exact ⟨_, rfl⟩
  | none =>
    have hmade : ∃ outcome, createAdapter platformOf entry entry.values = .ok outcome :=
      createAdapter_of_refusesOnly hentry
    obtain ⟨outcome, houtcome⟩ := hmade
    rw [houtcome]
    exact ⟨_, rfl⟩

/-! ## The loop -/

/-- The platforms that are taken after an entry. -/
def takenAfter (entry : ChannelEntry A) (builtPlatforms : List JsString) (p : Processed A) :
    List JsString :=
  match p.outcome with
  | .error _ => builtPlatforms
  | .ok _ => builtPlatforms ++ [entry.descriptor.platform]

/-- What the entries come to, one after another, when these platforms are taken before them. -/
inductive Treats (platformOf : A → JsString) :
    List JsString → List (ChannelEntry A) → List (Processed A) → Prop where
  | nil {built : List JsString} : Treats platformOf built [] []
  | cons {built : List JsString} {first : ChannelEntry A} {rest : List (ChannelEntry A)}
    {q : Processed A} {qs : List (Processed A)} :
    process platformOf first built = .ok q → Treats platformOf (takenAfter first built q) rest qs →
    Treats platformOf built (first :: rest) (q :: qs)

/-- The platforms of the adapters that were built. -/
def platformsBuilt (platformOf : A → JsString) (ps : List (Processed A)) : List JsString :=
  (ps.filterMap Processed.adapter?).map platformOf

theorem takenAfter_eq (h : process platformOf entry builtPlatforms = .ok p) :
    takenAfter entry builtPlatforms p = builtPlatforms ++ platformsBuilt platformOf [p] := by
  unfold takenAfter platformsBuilt Processed.adapter?
  cases houtcome : p.outcome with
  | error refusal => simp [houtcome, Except.toOption]
  | ok adapter =>
    have hbuilds := (((process_spec h).built adapter).mp houtcome).1
    simp [houtcome, Except.toOption, hbuilds.platform]

theorem platformsBuilt_cons (p : Processed A) (ps : List (Processed A)) :
    platformsBuilt platformOf (p :: ps) =
      platformsBuilt platformOf [p] ++ platformsBuilt platformOf ps := by
  simp only [platformsBuilt, ← List.map_append, ← List.filterMap_append, List.singleton_append]

namespace Treats

variable {entries : List (ChannelEntry A)} {ps : List (Processed A)}

theorem length (h : Treats platformOf builtPlatforms entries ps) :
    ps.length = entries.length := by
  induction h with
  | nil => rfl
  | cons _ _ ih => simp [ih]

theorem exists_of_refusesOnly (hentries : ∀ entry ∈ entries, RefusesOnly entry)
    (builtPlatforms : List JsString) : ∃ ps, Treats platformOf builtPlatforms entries ps := by
  induction entries generalizing builtPlatforms with
  | nil => exact ⟨[], .nil⟩
  | cons entry rest ih =>
    have hp : ∃ p, process platformOf entry builtPlatforms = .ok p :=
      process_of_refusesOnly (hentries _ List.mem_cons_self) _
    obtain ⟨p, hp⟩ := hp
    obtain ⟨ps, hps⟩ := ih (fun e he => hentries e (List.mem_cons_of_mem _ he))
      (takenAfter entry builtPlatforms p)
    exact ⟨p :: ps, .cons hp hps⟩

/-- An entry meets the platforms that were taken at first and those built since. -/
theorem treated (h : Treats platformOf builtPlatforms entries ps) {i : Nat}
    (he : entries[i]? = some entry) (hp : ps[i]? = some p) :
    Treated platformOf entry (builtPlatforms ++ platformsBuilt platformOf (ps.take i)) p := by
  induction h generalizing i with
  | nil => cases he
  | @cons builtPlatforms first rest q qs hq hrest ih =>
    cases i with
    | zero =>
      cases he
      cases hp
      simpa [platformsBuilt] using process_spec hq
    | succ i =>
      have htreated := ih he hp
      rwa [takenAfter_eq hq, List.append_assoc, ← platformsBuilt_cons,
        ← List.take_succ_cons] at htreated

theorem nodup (h : Treats platformOf builtPlatforms entries ps) (hbuilt : builtPlatforms.Nodup) :
    (builtPlatforms ++ platformsBuilt platformOf ps).Nodup := by
  induction h with
  | nil => simpa [platformsBuilt] using hbuilt
  | @cons builtPlatforms first rest q qs hq hrest ih =>
    rw [platformsBuilt_cons, ← List.append_assoc, ← takenAfter_eq hq]
    refine ih ?_
    unfold takenAfter
    cases houtcome : q.outcome with
    | error refusal => exact hbuilt
    | ok adapter =>
      have hfree := (((process_spec hq).built adapter).mp houtcome).2
      refine List.nodup_append.mpr ⟨hbuilt, by simp, fun a ha b hb hab => hfree ?_⟩
      exact List.mem_singleton.mp hb ▸ hab ▸ ha

/-- A platform is taken once an entry of it could be built: the first such entry was. -/
theorem mem_platformsBuilt (h : Treats platformOf builtPlatforms entries ps)
    (platform : JsString) :
    platform ∈ builtPlatforms ++ platformsBuilt platformOf ps ↔
      platform ∈ builtPlatforms ∨
        ∃ entry ∈ entries, entry.descriptor.platform = platform ∧ Buildable platformOf entry := by
  induction h with
  | nil => simp [platformsBuilt]
  | @cons builtPlatforms first rest q qs hq hrest ih =>
    rw [platformsBuilt_cons, ← List.append_assoc, ← takenAfter_eq hq, ih]
    simp only [List.mem_cons, exists_eq_or_imp, ← or_assoc]
    refine or_congr_left ?_
    have hspec := process_spec hq
    unfold takenAfter
    cases houtcome : q.outcome with
    | error refusal =>
      refine ⟨Or.inl, fun hor => hor.elim id fun ⟨hplatform, adapter, hbuilds⟩ => ?_⟩
      refine Classical.byContradiction fun hfree => ?_
      have hok := (hspec.built adapter).mpr ⟨hbuilds, hplatform ▸ hfree⟩
      rw [houtcome] at hok
      cases hok
    | ok adapter =>
      have hbuilds := ((hspec.built adapter).mp houtcome).1
      have hbuildable : Buildable platformOf first := ⟨adapter, hbuilds⟩
      simp only [List.mem_append, List.mem_singleton, hbuildable, and_true, eq_comm]

theorem take (h : Treats platformOf builtPlatforms entries ps) (i : Nat) :
    Treats platformOf builtPlatforms (entries.take i) (ps.take i) := by
  induction h generalizing i with
  | nil => simpa using .nil
  | cons hq _ ih =>
    cases i with
    | zero => exact .nil
    | succ i => exact .cons hq (ih i)

/-- Without a refused entry, the others come to what they came to. -/
theorem eraseIdx (h : Treats platformOf builtPlatforms entries ps) {i : Nat}
    {refusal : ChannelRejection} (hp : ps[i]? = some p) (hrefusal : p.outcome = .error refusal) :
    Treats platformOf builtPlatforms (entries.eraseIdx i) (ps.eraseIdx i) := by
  induction h generalizing i with
  | nil => cases hp
  | @cons builtPlatforms first rest q qs hq hrest ih =>
    cases i with
    | zero =>
      cases hp
      simpa [takenAfter, hrefusal] using hrest
    | succ i => exact .cons hq (ih hp)

end Treats

theorem add_of_process {b : Building A} (h : process platformOf entry b.builtPlatforms = .ok p) :
    ∃ b', b.add platformOf entry = .ok b' ∧
      b'.adapters = b.adapters ++ [p].filterMap Processed.adapter? ∧
      b'.rejected = b.rejected ++ [p].filterMap Processed.refusal? ∧
      b'.builtPlatforms = takenAfter entry b.builtPlatforms p ∧
      b'.processed = b.processed ++ [p] := by
  unfold Building.add takenAfter Processed.adapter? Processed.refusal?
  rw [h]
  cases houtcome : p.outcome with
  | error refusal =>
    refine ⟨_, by simp only [bind, Except.bind, houtcome]; rfl, ?_⟩
    simp [houtcome, Except.toOption]
  | ok adapter =>
    refine ⟨_, by simp only [bind, Except.bind, houtcome]; rfl, ?_⟩
    simp [houtcome, Except.toOption]

/-- The loop builds and refuses what its entries come to. -/
theorem foldlM_add {entries : List (ChannelEntry A)} {ps : List (Processed A)} (b : Building A)
    (h : Treats platformOf b.builtPlatforms entries ps) :
    ∃ b', entries.foldlM (Building.add platformOf) b = .ok b' ∧
      b'.adapters = b.adapters ++ ps.filterMap Processed.adapter? ∧
      b'.rejected = b.rejected ++ ps.filterMap Processed.refusal? ∧
      b'.processed = b.processed ++ ps := by
  induction entries generalizing b ps with
  | nil =>
    cases h
    exact ⟨b, rfl, by simp⟩
  | cons entry rest ih =>
    cases h with
    | @cons _ _ _ p qs hq hrest =>
      obtain ⟨next, hadd, hadapters, hrejected, hbuilt, hprocessed⟩ := add_of_process hq
      rw [← hbuilt] at hrest
      obtain ⟨b', hfold, hadapters', hrejected', hprocessed'⟩ := ih next hrest
      refine ⟨b', ?_, ?_, ?_, ?_⟩
      · rw [List.foldlM_cons, hadd]
        exact hfold
      · rw [hadapters', hadapters, List.append_assoc, ← List.filterMap_append]
        rfl
      · rw [hrejected', hrejected, List.append_assoc, ← List.filterMap_append]
        rfl
      · rw [hprocessed', hprocessed, List.append_assoc]
        rfl

/-! ## What `createChannels` promises -/

/-- An entry of the platform that could be built stands among these. -/
def Taken (platformOf : A → JsString) (entries : List (ChannelEntry A)) (platform : JsString) :
    Prop :=
  ∃ entry ∈ entries, entry.descriptor.platform = platform ∧ Buildable platformOf entry

/-- What one entry came to, after these earlier ones and what they came to. -/
structure FirstWins (platformOf : A → JsString) (earlier : List (ChannelEntry A))
    (before : List (Processed A)) (entry : ChannelEntry A) (p : Processed A) : Prop where
  /-- It is built when it can be and no earlier one of its platform could. -/
  built : ∀ adapter, p.outcome = .ok adapter ↔
    Builds platformOf entry adapter ∧ ¬Taken platformOf earlier entry.descriptor.platform
  refusal : ∀ refusal, p.outcome = .error refusal → refusal.platform = entry.descriptor.platform
  /-- `create` is called with all required fields, for a platform no adapter was built for. -/
  called : p.called = true ↔ missingRequiredKeys entry entry.values = [] ∧
    entry.descriptor.platform ∉ platformsBuilt platformOf before

/-- What `createChannels` built and refused of the entries. -/
structure BuildsFirst (platformOf : A → JsString) (entries : List (ChannelEntry A))
    (result : Building A) : Prop where
  /-- Every entry came to an adapter or a rejection, and these stand in the entries' order. -/
  each : result.processed.length = entries.length
  adapters : result.adapters = result.processed.filterMap Processed.adapter?
  rejected : result.rejected = result.processed.filterMap Processed.refusal?
  distinct : (result.adapters.map platformOf).Nodup
  first : ∀ (i : Nat) (entry : ChannelEntry A) (p : Processed A),
    entries[i]? = some entry → result.processed[i]? = some p →
      FirstWins platformOf (entries.take i) (result.processed.take i) entry p
  /-- Without a rejected entry, the others come to the same. -/
  apart : ∀ (i : Nat) (p : Processed A) (refusal : ChannelRejection),
    result.processed[i]? = some p → p.outcome = .error refusal →
      ∃ without, createChannels platformOf (entries.eraseIdx i) = .ok without ∧
        without.adapters = result.adapters ∧ without.processed = result.processed.eraseIdx i

theorem createChannels_of_treats {entries : List (ChannelEntry A)} {ps : List (Processed A)}
    (h : Treats platformOf [] entries ps) :
    ∃ result, createChannels platformOf entries = .ok result ∧
      result.adapters = ps.filterMap Processed.adapter? ∧
      result.rejected = ps.filterMap Processed.refusal? ∧ result.processed = ps := by
  obtain ⟨result, hfold, hadapters, hrejected, hprocessed⟩ := foldlM_add {} h
  exact ⟨result, hfold, by simpa using hadapters, by simpa using hrejected,
    by simpa using hprocessed⟩

theorem filterMap_eraseIdx_of_none {α β : Type} {f : α → Option β} {l : List α} {i : Nat} {a : α}
    (ha : l[i]? = some a) (hf : f a = none) : (l.eraseIdx i).filterMap f = l.filterMap f := by
  induction l generalizing i with
  | nil => rfl
  | cons b l ih =>
    cases i with
    | zero =>
      cases ha
      simp [hf]
    | succ i => simp [List.filterMap_cons, ih ha]

theorem createChannels_buildsFirst (platformOf : A → JsString) (entries : List (ChannelEntry A))
    (hentries : ∀ entry ∈ entries, RefusesOnly entry) :
    ∃ result, createChannels platformOf entries = .ok result ∧
      BuildsFirst platformOf entries result := by
  have htreats : ∃ ps, Treats platformOf [] entries ps := Treats.exists_of_refusesOnly hentries []
  obtain ⟨ps, htreats⟩ := htreats
  obtain ⟨result, hresult, hadapters, hrejected, rfl⟩ := createChannels_of_treats htreats
  refine ⟨result, hresult, htreats.length, hadapters, hrejected, ?_, ?_, ?_⟩
  · simpa [platformsBuilt, ← hadapters] using htreats.nodup List.nodup_nil
  · intro i entry p he hp
    have htreated := htreats.treated he hp
    have htaken := (htreats.take i).mem_platformsBuilt entry.descriptor.platform
    simp only [List.nil_append, List.not_mem_nil, false_or] at htreated htaken
    refine ⟨fun adapter => ?_, htreated.refusal, htreated.called⟩
    rw [htreated.built adapter, htaken]
    rfl
  · intro i p refusal hp hrefusal
    obtain ⟨without, hwithout, hadapters', hrejected', hprocessed⟩ :=
      createChannels_of_treats (htreats.eraseIdx hp hrefusal)
    refine ⟨without, hwithout, ?_, hprocessed⟩
    rw [hadapters', hadapters]
    exact filterMap_eraseIdx_of_none hp (by simp [Processed.adapter?, hrefusal, Except.toOption])

end

/-- A descriptor whose channel needs a token and is built as an adapter of this platform. -/
def tokenDescriptor (platform reported : JsString) : ChannelDescriptor JsString where
  platform := platform
  config := [⟨js "token", true⟩]
  create := fun _ => .ok reported

/-- An entry without its token, one of another platform, and two that can be built. -/
def repeatedPlatform : List (ChannelEntry JsString) :=
  [{ descriptor := tokenDescriptor (js "telegram") (js "telegram") },
    { descriptor := tokenDescriptor (js "telegram") (js "discord")
      config := some fun _ => .string (js "a") },
    { descriptor := tokenDescriptor (js "telegram") (js "telegram")
      config := some fun _ => .string (js "b") },
    { descriptor := tokenDescriptor (js "telegram") (js "telegram")
      config := some fun _ => .string (js "c") }]

theorem createChannels_buildsFirst_repeated :
    ∃ result, createChannels id repeatedPlatform = .ok result ∧
      BuildsFirst id repeatedPlatform result := by
  refine createChannels_buildsFirst id repeatedPlatform fun entry hentry values err => ?_
  simp only [repeatedPlatform, List.mem_cons, List.not_mem_nil, or_false] at hentry
  rcases hentry with rfl | rfl | rfl | rfl <;> nofun

end TheokitGateways.Gateway
