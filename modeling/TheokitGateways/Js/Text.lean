/-!
# Strings as sequences of UTF-16 code units

A JavaScript string is a sequence of 16-bit code units, lone surrogates
included. `JsString` is that sequence, so a property proved here holds of every
string a platform can send. `js` writes a literal.
-/

namespace TheokitGateways.Js

/-- A JavaScript string: its UTF-16 code units. -/
abbrev JsString := List UInt16

instance : LawfulBEq JsString := List.instLawfulBEq

/-- The one or two code units of a character. -/
def codeUnits (c : Char) : JsString :=
  let n := c.val.toNat
  if n < 0x10000 then [n.toUInt16]
  else [(0xD800 + (n - 0x10000) / 0x400).toUInt16, (0xDC00 + (n - 0x10000) % 0x400).toUInt16]

/-- The code units of a literal. -/
def js (s : String) : JsString := s.toList.flatMap codeUnits

/-- The code unit of an ASCII character. -/
def unit (c : Char) : UInt16 := c.val.toUInt16

/-- `s.replace(/a/g, b)` for two single code units. -/
def replaceUnit (a b : UInt16) (s : JsString) : JsString :=
  s.map fun c => if c = a then b else c

/-- `s.includes(sub)` for `includes sub s`. -/
def includes (sub : JsString) : JsString → Bool
  | [] => sub.isPrefixOf []
  | c :: s => sub.isPrefixOf (c :: s) || includes sub s

/-- The last place up to `start` where a text stands in another, -1 when there is none. -/
def lastFrom (sub s : JsString) : Nat → Int
  | 0 => if sub.isPrefixOf s then 0 else -1
  | start + 1 => if sub.isPrefixOf (s.drop (start + 1)) then start + 1 else lastFrom sub s start

/-- `s.lastIndexOf(sub, start)`. -/
def lastIndexOf (sub s : JsString) (start : Nat) : Int := lastFrom sub s (Nat.min start s.length)

/-- What stands before the first `c` and after it, if there is one. -/
def cutAt (c : UInt16) : JsString → Option (JsString × JsString)
  | [] => none
  | d :: s => if d = c then some ([], s) else (cutAt c s).map fun (a, b) => (d :: a, b)

theorem eq_of_cutAt {c : UInt16} {s a b : JsString} (h : cutAt c s = some (a, b)) :
    s = a ++ c :: b ∧ c ∉ a := by
  induction s generalizing a with
  | nil => cases h
  | cons d s ih =>
    rw [cutAt] at h
    split at h
    · cases h
      simp [*]
    · obtain ⟨⟨a', b'⟩, hcut, heq⟩ := Option.map_eq_some_iff.1 h
      cases heq
      obtain ⟨rfl, hnot⟩ := ih hcut
      refine ⟨rfl, ?_⟩
      rw [List.mem_cons, not_or]
      exact ⟨Ne.symm ‹_›, hnot⟩

theorem cutAt_eq_none {c : UInt16} {s : JsString} (h : c ∉ s) : cutAt c s = none := by
  induction s with
  | nil => rfl
  | cons d s ih => grind [cutAt]

theorem cutAt_append {c : UInt16} {a : JsString} (h : c ∉ a) (b : JsString) :
    cutAt c (a ++ c :: b) = some (a, b) := by
  induction a with
  | nil => simp [cutAt]
  | cons d a ih => grind [cutAt]

/-- What stands before the first `sub` and after it, if there is one. -/
def cutAtText (sub : JsString) : JsString → Option (JsString × JsString)
  | [] => if sub = [] then some ([], []) else none
  | c :: s =>
    if sub.isPrefixOf (c :: s) then some ([], (c :: s).drop sub.length)
    else (cutAtText sub s).map fun (a, b) => (c :: a, b)

theorem cutAtText_singleton (c : UInt16) (s : JsString) : cutAtText [c] s = cutAt c s := by
  induction s with
  | nil => rfl
  | cons d s ih =>
    rw [cutAtText, cutAt, ih]
    by_cases h : d = c
    · simp [h]
    · have hne : ([c].isPrefixOf (d :: s)) = false := by simp [List.isPrefixOf, Ne.symm h]
      rw [if_neg (Bool.eq_false_iff.1 hne), if_neg h]

theorem eq_of_cutAtText {sub s a b : JsString} (h : cutAtText sub s = some (a, b)) :
    s = a ++ (sub ++ b) := by
  induction s generalizing a with
  | nil =>
    rw [cutAtText] at h
    split at h
    · cases h
      simp [*]
    · cases h
  | cons c s ih =>
    rw [cutAtText] at h
    split at h
    · cases h
      obtain ⟨t, ht⟩ := List.isPrefixOf_iff_prefix.1 ‹_›
      rw [← ht, List.drop_left]
      rfl
    · obtain ⟨⟨a', b'⟩, hcut, heq⟩ := Option.map_eq_some_iff.1 h
      cases heq
      rw [ih hcut]
      rfl

/-- The cut is at the first place. -/
theorem le_of_cutAtText {sub s a b : JsString} (h : cutAtText sub s = some (a, b))
    {a' b' : JsString} (hs : s = a' ++ (sub ++ b')) : a.length ≤ a'.length := by
  induction s generalizing a a' with
  | nil =>
    rw [cutAtText] at h
    split at h
    · cases h
      exact Nat.zero_le _
    · cases h
  | cons c s ih =>
    rw [cutAtText] at h
    split at h
    · cases h
      exact Nat.zero_le _
    · obtain ⟨⟨a, b⟩, hcut, heq⟩ := Option.map_eq_some_iff.1 h
      cases heq
      cases a' with
      | nil => exact absurd (List.isPrefixOf_iff_prefix.2 ⟨b', hs.symm⟩) ‹_›
      | cons d a' => exact Nat.succ_le_succ (ih hcut (List.cons.inj hs).2)

theorem isSome_cutAtText (sub a b : JsString) :
    (cutAtText sub (a ++ (sub ++ b))).isSome = true := by
  induction a with
  | nil =>
    rw [List.nil_append]
    cases hs : sub ++ b with
    | nil => simp [cutAtText, (List.append_eq_nil_iff.1 hs).1]
    | cons c s =>
      rw [cutAtText, if_pos (List.isPrefixOf_iff_prefix.2 ⟨b, hs⟩)]
      rfl
  | cons c a ih =>
    rw [List.cons_append, cutAtText]
    split
    · rfl
    · rw [Option.isSome_map]
      exact ih

/-- The lower-case form of an ASCII letter. -/
def asciiLower (c : UInt16) : UInt16 := if unit 'A' ≤ c ∧ c ≤ unit 'Z' then c + 32 else c

/-- The case forms of a string, as the runtime has them. -/
structure CaseMapping where
  toLowerCase : JsString → JsString
  toUpperCase : JsString → JsString

/-- The case forms of ASCII text. -/
def asciiCase : CaseMapping where
  toLowerCase s := s.map asciiLower
  toUpperCase s := s.map fun c => if unit 'a' ≤ c ∧ c ≤ unit 'z' then c - 32 else c

theorem not_mem_replaceUnit {a b : UInt16} (h : a ≠ b) (s : JsString) :
    a ∉ replaceUnit a b s := by
  simp only [replaceUnit, List.mem_map, not_exists, not_and]
  intro c _ hc
  split at hc
  · exact h hc.symm
  · contradiction

/-- Joining fields free of the separator loses nothing. -/
theorem intercalate_inj {sep : UInt16} {xs ys : List JsString} (hx : xs ≠ []) (hy : ys ≠ [])
    (sx : ∀ x ∈ xs, sep ∉ x) (sy : ∀ y ∈ ys, sep ∉ y) :
    [sep].intercalate xs = [sep].intercalate ys ↔ xs = ys := by
  constructor
  · intro h
    have hsplit := congrArg (List.splitOn sep) h
    rwa [List.splitOn_intercalate sep sx hx, List.splitOn_intercalate sep sy hy] at hsplit
  · rintro rfl
    rfl

theorem intercalate_cons_cons (sep x y : JsString) (xs : List JsString) :
    sep.intercalate (x :: y :: xs) = x ++ (sep ++ sep.intercalate (y :: xs)) := by
  simp [List.intercalate]

theorem notMem_intercalate {c : UInt16} {sep : JsString} {xs : List JsString} (hsep : c ∉ sep)
    (hxs : ∀ x ∈ xs, c ∉ x) : c ∉ sep.intercalate xs := by
  induction xs with
  | nil => simp [List.intercalate]
  | cons x xs ih =>
    obtain ⟨hx, hxs⟩ := List.forall_mem_cons.1 hxs
    cases xs with
    | nil => simpa [List.intercalate] using hx
    | cons y ys =>
      rw [intercalate_cons_cons, List.mem_append, List.mem_append, not_or, not_or]
      exact ⟨hx, hsep, ih hxs⟩

theorem lastFrom_le (sub s : JsString) (start : Nat) : lastFrom sub s start ≤ start := by
  induction start with
  | zero =>
    rw [lastFrom]
    split <;> omega
  | succ start ih =>
    rw [lastFrom]
    split <;> omega

theorem lastIndexOf_le (sub s : JsString) (start : Nat) : lastIndexOf sub s start ≤ start := by
  have h := lastFrom_le sub s (Nat.min start s.length)
  have hmin : Nat.min start s.length ≤ start := Nat.min_le_left _ _
  unfold lastIndexOf
  omega

theorem prefix_drop_lastFrom {sub s : JsString} {start k : Nat} (h : lastFrom sub s start = k) :
    sub <+: s.drop k := by
  induction start with
  | zero =>
    rw [lastFrom] at h
    split at h
    · have hk : k = 0 := by omega
      rw [hk]
      exact List.isPrefixOf_iff_prefix.1 ‹_›
    · omega
  | succ start ih =>
    rw [lastFrom] at h
    split at h
    · have hk : k = start + 1 := by omega
      rw [hk]
      exact List.isPrefixOf_iff_prefix.1 ‹_›
    · exact ih h

theorem lastIndexOf_of_notMem {c : UInt16} {s : JsString} (h : c ∉ s) (t : JsString)
    (start : Nat) : lastIndexOf (c :: t) s start = -1 := by
  have hno (k : Nat) : (c :: t).isPrefixOf (s.drop k) = false := by
    refine Bool.eq_false_iff.2 fun hprefix => h ?_
    have hmem : c ∈ s.drop k :=
      (List.isPrefixOf_iff_prefix.1 hprefix).subset List.mem_cons_self
    exact List.mem_of_mem_drop hmem
  unfold lastIndexOf
  induction Nat.min start s.length with
  | zero => rw [lastFrom, ← List.drop_zero (l := s), hno, if_neg Bool.false_ne_true]
  | succ k ih => rw [lastFrom, hno, if_neg Bool.false_ne_true, ih]

theorem append_eq_append_cons {α : Type} {x y a b : List α} {p : α}
    (h : x ++ y = a ++ p :: b) :
    (∃ b', x = a ++ p :: b') ∨ ∃ a', a = x ++ a' ∧ y = a' ++ p :: b := by
  obtain ⟨t, rfl, rfl⟩ | ⟨t, rfl, ht⟩ := List.append_eq_append_iff.1 h
  · exact .inr ⟨t, rfl, rfl⟩
  · cases t with
    | nil => exact .inr ⟨[], by simp, ht.symm⟩
    | cons q t =>
      obtain ⟨rfl, _⟩ := List.cons.inj ht
      exact .inl ⟨t, rfl⟩

section FlatMap

variable {α β : Type} {f : α → List β} {mk : β → α} {gs : List α} {A W B : List β}

/-- What begins a flattened list, of elements that each come from an item of their own, begins the
list of the items. -/
theorem prefix_of_flatMap (hne : ∀ g ∈ gs, f g ≠ [])
    (hW : ∀ u ∈ W, ∀ g, u ∈ f g → g = mk u ∧ f g = [u]) (h : gs.flatMap f = W ++ B) :
    ∃ Y, gs = W.map mk ++ Y ∧ Y.flatMap f = B := by
  induction W generalizing gs with
  | nil => exact ⟨gs, rfl, h⟩
  | cons u W ih =>
    obtain ⟨hu, hmore⟩ := List.forall_mem_cons.1 hW
    cases gs with
    | nil => cases h
    | cons g gs =>
      obtain ⟨hg, hgs⟩ := List.forall_mem_cons.1 hne
      obtain ⟨v, tail, hitem⟩ := List.exists_cons_of_ne_nil hg
      rw [List.flatMap_cons, hitem, List.cons_append, List.cons_append] at h
      obtain ⟨rfl, hrest⟩ := List.cons.inj h
      obtain ⟨rfl, hown⟩ := hu g (hitem ▸ List.mem_cons_self)
      obtain ⟨_, rfl⟩ := List.cons.inj (hitem.symm.trans hown)
      obtain ⟨Y, rfl, hY⟩ := ih hgs hmore hrest
      exact ⟨Y, rfl, hY⟩

/-- The same of what stands anywhere in the flattened list. -/
theorem infix_of_flatMap (hne : ∀ g ∈ gs, f g ≠ [])
    (hW : ∀ u ∈ W, ∀ g, u ∈ f g → g = mk u ∧ f g = [u]) (hWne : W ≠ [])
    (h : gs.flatMap f = A ++ (W ++ B)) :
    ∃ X Y, gs = X ++ (W.map mk ++ Y) ∧ X.flatMap f = A ∧ Y.flatMap f = B := by
  induction gs generalizing A with
  | nil => simp [hWne] at h
  | cons g gs ih =>
    obtain ⟨hg, hgs⟩ := List.forall_mem_cons.1 hne
    have hall := h
    rw [List.flatMap_cons] at h
    obtain ⟨A', rfl, hrest⟩ | ⟨C, hitem, hrest⟩ := List.append_eq_append_iff.1 h
    · obtain ⟨X, Y, rfl, rfl, hY⟩ := ih hgs hrest
      exact ⟨g :: X, Y, rfl, rfl, hY⟩
    · cases A with
      | nil =>
        rw [List.nil_append] at hall
        obtain ⟨Y, heq, hY⟩ := prefix_of_flatMap hne hW hall
        exact ⟨[], Y, heq, rfl, hY⟩
      | cons a A =>
        cases C with
        | nil =>
          obtain ⟨X, Y, rfl, hX, hY⟩ := @ih [] hgs hrest.symm
          refine ⟨g :: X, Y, rfl, ?_, hY⟩
          rw [List.flatMap_cons, hX, hitem, List.append_nil, List.append_nil]
        | cons u C =>
          -- the item of the first element of `W` has an element before it
          obtain ⟨w, W, rfl⟩ := List.exists_cons_of_ne_nil hWne
          obtain ⟨rfl, _⟩ := List.cons.inj hrest
          obtain ⟨_, hown⟩ := hW w List.mem_cons_self g (by simp [hitem])
          rw [hown] at hitem
          simp at hitem

end FlatMap

/-- A text that parts give, each with one of `p` after it, and a part more in front. -/
theorem followed_cons {p : JsString → Prop} {text part s : JsString} {parts : List JsString}
    (hs : p s) (h : ∃ stripped : List JsString, stripped.length = parts.length ∧
      (∀ s ∈ stripped, p s) ∧ text = (List.zipWith (· ++ ·) parts stripped).flatten) :
    ∃ stripped : List JsString, stripped.length = (part :: parts).length ∧
      (∀ s ∈ stripped, p s) ∧
      part ++ (s ++ text) = (List.zipWith (· ++ ·) (part :: parts) stripped).flatten := by
  obtain ⟨stripped, hlen, hall, rfl⟩ := h
  exact ⟨s :: stripped, congrArg (· + 1) hlen, List.forall_mem_cons.2 ⟨hs, hall⟩, by simp⟩

/-- A property of every unit of a text, checked unit by unit. -/
theorem forall_mem_of_all {p : UInt16 → Prop} [DecidablePred p] {s : JsString}
    (h : s.all (fun c => decide (p c)) = true) : ∀ c ∈ s, p c := by
  simpa using h

end TheokitGateways.Js
