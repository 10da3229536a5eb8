import TheokitGateways.Js.Convert
import TheokitGateways.Js.Unicode

/-!
# Reading a value nobody has checked

What the operations of the language throw on a JSON value whose shape is not
known: a member of null, a loop over what is no list, the text of an object that
hides its own.
-/

namespace TheokitGateways.Js

inductive TypeFault where
  /-- A member of null was read. -/
  | member (key : JsString)
  | notIterable
  | cannotConvert
  deriving DecidableEq

namespace Json

def isNull : Json → Bool
  | .null => true
  | _ => false

/-- `typeof v === "object" && v !== null`. -/
def isObjectLike : Json → Bool
  | .array _ | .object _ => true
  | _ => false

/-- Whether a condition takes `v` for true. -/
def truthy : Json → Bool
  | .null => false
  | .bool b => b
  | .number n => n ≠ .nan && n ≠ .finite 0
  | .string s => s ≠ []
  | .array _ | .object _ => true

/-- `v === undefined || v === null`. -/
def isNullish (v : Option Json) : Bool := v.all isNull

/-- `v === s` for a string. -/
def isText (v : Option Json) (s : JsString) : Bool := optString v = some s

/-- `v ?? w`. -/
def coalesce (v w : Option Json) : Option Json :=
  match v with
  | none | some .null => w
  | some v => some v

/-- `v.key` for a key other than `length`. -/
def read (v : Json) (key : JsString) : Except TypeFault (Option Json) :=
  if v.isNull then .error (.member key) else .ok (v.get key)

/-- `v.length`. -/
def readLength : Json → Except TypeFault (Option Json)
  | .null => .error (.member (js "length"))
  | .string s => .ok (some (.number (.ofInt s.length)))
  | .array items => .ok (some (.number (.ofInt items.length)))
  | v => .ok (v.get (js "length"))

/-- `v === 0`. -/
def isZero : Option Json → Bool
  | some (.number n) => n = .finite 0
  | _ => false

/-- `v > 0`. -/
def isPositive : Option Json → Except TypeFault Bool
  | none => .ok false
  | some v =>
    match v.toNumber with
    | .ok n => .ok (JsNumber.lt (.finite 0) n)
    | .error _ => .error .cannotConvert

/-- `v` between the braces of a template. -/
def interpolate (v : Json) : Except TypeFault JsString :=
  match v.toStr with
  | .ok s => .ok s
  | .error _ => .error .cannotConvert

/-- What `for (const x of v)` goes over. -/
def iterate : Json → Except TypeFault (List Json)
  | .array items => .ok items
  | .string s => .ok ((characters s).map .string)
  | _ => .error .notIterable

/-- What `v.length` is when `v` is not null. -/
def lengthOf : Json → Option Json
  | .string s => some (.number (.ofInt s.length))
  | .array items => some (.number (.ofInt items.length))
  | v => v.get (js "length")

/-- `v` has a text, and so a number. -/
def converts (v : Json) : Bool := v.toStr.isOk

/-- `v.length > 0` throws nothing. -/
def measurable (v : Json) : Bool := !v.isNull && v.lengthOf.all converts

end Json

theorem isOk_eq_true_iff {ε α : Type} {x : Except ε α} : x.isOk = true ↔ ∃ a, x = .ok a := by
  cases x <;> simp [Except.isOk, Except.toBool]

theorem isOk_mapM {ε α β : Type} {f : α → Except ε β} {l : List α} :
    (l.mapM f).isOk = true ↔ ∀ a ∈ l, (f a).isOk = true := by
  induction l with
  | nil => simp [pure, Except.pure, isOk_eq_true_iff]
  | cons a l ih =>
    rw [List.forall_mem_cons, ← ih, List.mapM_cons]
    cases f a with
    | error e => simp [bind, Except.bind, Except.isOk, Except.toBool]
    | ok b =>
      cases l.mapM f <;> simp [bind, Except.bind, pure, Except.pure, Except.isOk, Except.toBool]

theorem map_eq_of_mapM {ε α β : Type} {f : α → Except ε β} {l : List α} {l' : List β}
    (h : l.mapM f = .ok l') : l.map f = l'.map .ok := by
  induction l generalizing l' with
  | nil =>
    cases h
    rfl
  | cons a l ih =>
    rw [List.mapM_cons] at h
    obtain ⟨b, hb, h⟩ := bind_eq_ok.1 h
    obtain ⟨bs, hbs, h⟩ := bind_eq_ok.1 h
    cases h
    rw [List.map_cons, List.map_cons, hb, ih hbs]

namespace Json
variable {v : Json}

theorem read_null (h : v.isNull = true) (key : JsString) : v.read key = .error (.member key) := by
  rw [read, if_pos h]

theorem read_of_not_null (h : v.isNull = false) (key : JsString) :
    v.read key = .ok (v.get key) := by
  rw [read, h]
  rfl

theorem readLength_of_not_null (h : v.isNull = false) : v.readLength = .ok v.lengthOf := by
  cases v <;> first | rfl | cases h

/-- An object whose member `toString` hides its text, or an array that holds one. -/
inductive HidesText : Json → Prop where
  | object {members : List (JsString × Json)} (h : ∃ m ∈ members, m.1 = js "toString") :
    HidesText (.object members)
  | array {items : List Json} {item : Json} (hmem : item ∈ items) (h : HidesText item) :
    HidesText (.array items)

mutual

theorem isOk_toStr_iff : ∀ v : Json, v.toStr.isOk = true ↔ ¬HidesText v
  | .null | .bool _ | .number _ | .string _ => ⟨fun _ h => (nomatch h), fun _ => rfl⟩
  | .object members => by
    rw [toStr]
    split
    · obtain ⟨m, hm, hname⟩ := List.any_eq_true.1 ‹_›
      exact ⟨fun hok => (nomatch hok),
        fun hnot => absurd (.object ⟨m, hm, of_decide_eq_true hname⟩) hnot⟩
    · refine ⟨fun _ h => ?_, fun _ => rfl⟩
      obtain ⟨m, hm, hname⟩ | _ := h
      exact ‹¬_› (List.any_eq_true.2 ⟨m, hm, decide_eq_true hname⟩)
  | .array items => by
    have hitems := isOk_itemTexts_iff items
    have hmap : (toStr (.array items)).isOk = (itemTexts items).isOk := by
      rw [toStr]
      cases itemTexts items <;> rfl
    rw [hmap, hitems]
    constructor
    · rintro hall (_ | ⟨hmem, h⟩)
      exact hall _ hmem h
    · exact fun hnot item hmem h => hnot (.array hmem h)

theorem isOk_itemTexts_iff :
    ∀ items : List Json, (itemTexts items).isOk = true ↔ ∀ item ∈ items, ¬HidesText item
  | [] => ⟨fun _ _ h => (nomatch h), fun _ => rfl⟩
  | v :: items => by
    have hv := isOk_toStr_iff v
    have hitems := isOk_itemTexts_iff items
    have hcons : (itemTexts (v :: items)).isOk = (v.toStr.isOk && (itemTexts items).isOk) := by
      cases v with
      | null =>
        rw [itemTexts]
        cases itemTexts items <;> rfl
      | bool _ | number _ | string _ =>
        rw [itemTexts]
        · cases itemTexts items <;> rfl
        · rintro ⟨⟩
      | array _ | object _ =>
        rw [itemTexts]
        · cases toStr _ <;> cases itemTexts items <;> rfl
        · rintro ⟨⟩
    rw [hcons, Bool.and_eq_true, hv, hitems, List.forall_mem_cons]

end

theorem isOk_interpolate : v.interpolate.isOk = v.converts := by
  unfold interpolate converts
  cases v.toStr <;> rfl

theorem isOk_isPositive (v : Option Json) : (isPositive v).isOk = v.all converts := by
  cases v with
  | none => rfl
  | some v =>
    cases htext : v.toStr with
    | error e => simp [isPositive, toNumber_eq_error.2 htext, converts, htext, Except.isOk,
        Except.toBool]
    | ok s =>
      cases hnumber : v.toNumber with
      | error e => cases (toNumber_eq_error.1 hnumber).symm.trans htext
      | ok n => simp [isPositive, hnumber, converts, htext, Except.isOk, Except.toBool]

/-- Whether `v.length > 0` throws. -/
theorem isOk_measure : (v.readLength >>= isPositive).isOk = v.measurable := by
  cases hnull : v.isNull with
  | true =>
    cases v <;> first | rfl | cases hnull
  | false =>
    rw [readLength_of_not_null hnull, measurable, hnull]
    exact isOk_isPositive v.lengthOf

end Json

end TheokitGateways.Js
