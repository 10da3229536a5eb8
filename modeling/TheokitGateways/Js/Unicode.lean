import TheokitGateways.Js.Bytes
import TheokitGateways.Js.Convert

/-!
# Characters of a string

Two units of a surrogate pair are one character; a surrogate outside a pair is
one by itself, and a text with such a one is not well formed. A well-formed text
stays so on both sides of a cut exactly where the cut does not fall before a low
surrogate (`wellFormed_left_iff`).
-/

namespace TheokitGateways.Js

def isSurrogate (u : UInt16) : Bool := isHighSurrogate u || isLowSurrogate u

/-- `Array.from(s)`: the characters of a string. -/
def characters : JsString → List JsString
  | [] => []
  | [u] => [[u]]
  | u :: v :: rest =>
    if isHighSurrogate u && isLowSurrogate v then [u, v] :: characters rest
    else [u] :: characters (v :: rest)

/-- `s.isWellFormed()`: no surrogate stands outside a pair. -/
def wellFormed : JsString → Bool
  | [] => true
  | [u] => !isSurrogate u
  | u :: v :: rest =>
    if isHighSurrogate u && isLowSurrogate v then wellFormed rest
    else !isSurrogate u && wellFormed (v :: rest)

theorem characters_flatten (s : JsString) : (characters s).flatten = s := by
  fun_induction characters s <;> simp_all

theorem ne_nil_of_mem_characters {s ch : JsString} (h : ch ∈ characters s) : ch ≠ [] := by
  fun_induction characters s with
  | case1 => cases h
  | case2 u =>
    cases List.mem_singleton.1 h
    simp
  | case3 u v rest hpair ih =>
    obtain rfl | h := List.mem_cons.1 h
    · simp
    · exact ih h
  | case4 u v rest hpair ih =>
    obtain rfl | h := List.mem_cons.1 h
    · simp
    · exact ih h

theorem wellFormed_of_mem_characters {s ch : JsString} (hs : wellFormed s = true)
    (h : ch ∈ characters s) : wellFormed ch = true := by
  fun_induction characters s with
  | case1 => cases h
  | case2 u =>
    cases List.mem_singleton.1 h
    exact hs
  | case3 u v rest hpair ih =>
    rw [wellFormed, if_pos hpair] at hs
    obtain rfl | h := List.mem_cons.1 h
    · simp [wellFormed, hpair]
    · exact ih hs h
  | case4 u v rest hpair ih =>
    rw [wellFormed, if_neg hpair, Bool.and_eq_true] at hs
    obtain rfl | h := List.mem_cons.1 h
    · exact hs.1
    · exact ih hs.2 h

theorem wellFormed_append {a : JsString} (ha : wellFormed a = true) (b : JsString) :
    wellFormed (a ++ b) = wellFormed b := by
  fun_induction wellFormed a with
  | case1 => rfl
  | case2 u =>
    cases b with
    | nil => exact ha
    | cons v b =>
      have hhigh : isHighSurrogate u = false := by
        simp only [isSurrogate, Bool.not_or, Bool.and_eq_true, Bool.not_eq_true'] at ha
        exact ha.1
      simp [wellFormed, hhigh, ha]
  | case3 u v rest hpair ih =>
    rw [List.cons_append, List.cons_append, wellFormed, if_pos hpair]
    exact ih ha
  | case4 u v rest hpair ih =>
    rw [Bool.and_eq_true] at ha
    rw [List.cons_append, List.cons_append, wellFormed, if_neg hpair, ha.1, Bool.true_and]
    exact ih ha.2

theorem wellFormed_flatten {parts : List JsString} (h : ∀ part ∈ parts, wellFormed part = true) :
    wellFormed parts.flatten = true := by
  induction parts with
  | nil => rfl
  | cons part parts ih =>
    rw [List.flatten_cons, wellFormed_append (h part List.mem_cons_self)]
    exact ih fun q hq => h q (List.mem_cons_of_mem _ hq)

theorem isLowSurrogate_of_isHighSurrogate {u : UInt16} (h : isHighSurrogate u = true) :
    isLowSurrogate u = false := by
  simp only [isHighSurrogate, isLowSurrogate, Bool.and_eq_true, decide_eq_true_eq,
    UInt16.le_iff_toNat_le, Bool.and_eq_false_iff, decide_eq_false_iff_not] at h ⊢
  simp only [UInt16.reduceToNat] at h ⊢
  omega

/-- A well-formed text does not begin with a low surrogate. -/
theorem head?_of_wellFormed {s : JsString} (hs : wellFormed s = true) :
    s.head?.any isLowSurrogate = false := by
  fun_cases wellFormed s with
  | case1 => rfl
  | case2 u => simp_all [wellFormed, isSurrogate]
  | case3 u v rest hpair =>
    simp only [Bool.and_eq_true] at hpair
    exact isLowSurrogate_of_isHighSurrogate hpair.1
  | case4 u v rest hpair =>
    rw [wellFormed, if_neg hpair, Bool.and_eq_true] at hs
    simp only [isSurrogate, Bool.not_or, Bool.and_eq_true, Bool.not_eq_true'] at hs
    exact hs.1.2

/-- What is before a cut of a well-formed text is well formed exactly where the cut does not fall
before a low surrogate. -/
theorem wellFormed_left_iff {a b : JsString} (h : wellFormed (a ++ b) = true) :
    wellFormed a = true ↔ b.head?.any isLowSurrogate = false := by
  constructor
  · intro ha
    rw [wellFormed_append ha] at h
    exact head?_of_wellFormed h
  · intro hb
    fun_induction wellFormed a with
    | case1 => rfl
    | case2 u =>
      cases b with
      | nil => exact h
      | cons v b =>
        have hlow : isLowSurrogate v = false := hb
        simp only [List.cons_append, List.nil_append, wellFormed, hlow, Bool.and_false,
          Bool.false_eq_true, if_false, Bool.and_eq_true] at h
        exact h.1
    | case3 u v rest hpair ih =>
      rw [List.cons_append, List.cons_append, wellFormed, if_pos hpair] at h
      exact ih h
    | case4 u v rest hpair ih =>
      rw [List.cons_append, List.cons_append, wellFormed, if_neg hpair, Bool.and_eq_true] at h
      rw [Bool.and_eq_true]
      exact ⟨h.1, ih h.2⟩

/-- Before a low surrogate of a well-formed text stands a high one. -/
theorem isHighSurrogate_before {a b : JsString} {x y : UInt16}
    (h : wellFormed (a ++ x :: y :: b) = true) (hy : isLowSurrogate y = true) :
    isHighSurrogate x = true := by
  have hnot {t : JsString} : wellFormed (y :: t) ≠ true := fun ht => by
    have := head?_of_wellFormed ht
    simp [hy] at this
  have hfront (h : wellFormed (x :: y :: b) = true) : isHighSurrogate x = true := by
    rw [wellFormed] at h
    split at h
    · simp_all
    · exact absurd (Bool.and_eq_true_iff.1 h).2 hnot
  fun_induction wellFormed a with
  | case1 => exact hfront h
  | case2 u =>
    rw [List.singleton_append, wellFormed] at h
    split at h
    · exact absurd h hnot
    · exact hfront (Bool.and_eq_true_iff.1 h).2
  | case3 u v rest hpair ih =>
    rw [List.cons_append, List.cons_append, wellFormed, if_pos hpair] at h
    exact ih h
  | case4 u v rest hpair ih =>
    rw [List.cons_append, List.cons_append, wellFormed, if_neg hpair, Bool.and_eq_true] at h
    exact ih h.2

theorem isSurrogate_of_isSpace {c : UInt16} (h : isSpace c = true) : isSurrogate c = false := by
  rw [Bool.eq_false_iff]
  intro hsurrogate
  simp only [isSpace, isSurrogate, isHighSurrogate, isLowSurrogate, Bool.or_eq_true,
    Bool.and_eq_true, decide_eq_true_eq, UInt16.le_iff_toNat_le, ← UInt16.toNat_inj,
    UInt16.reduceToNat] at h hsurrogate
  omega

theorem wellFormed_of_plain {w : JsString} (h : ∀ c ∈ w, isSurrogate c = false) :
    wellFormed w = true := by
  induction w with
  | nil => rfl
  | cons c w ih =>
    rw [List.forall_mem_cons] at h
    have hc : wellFormed [c] = true := by simp [wellFormed, h.1]
    rw [← List.singleton_append, wellFormed_append hc]
    exact ih h.2

theorem wellFormed_of_isSpace {w : JsString} (h : w.all isSpace = true) : wellFormed w = true :=
  wellFormed_of_plain fun c hc => isSurrogate_of_isSpace (List.all_eq_true.1 h c hc)

/-- A well-formed text is well formed without white space around it. -/
theorem wellFormed_trim {s : JsString} (hs : wellFormed s = true) : wellFormed (trim s) = true := by
  have hleft : wellFormed (s.dropWhile isSpace) = true := by
    rw [← List.takeWhile_append_dropWhile (p := isSpace) (l := s),
      wellFormed_append (wellFormed_of_isSpace List.all_takeWhile)] at hs
    exact hs
  have hsplit := congrArg List.reverse
    (List.takeWhile_append_dropWhile (p := isSpace) (l := (s.dropWhile isSpace).reverse))
  rw [List.reverse_append, List.reverse_reverse] at hsplit
  rw [← hsplit] at hleft
  refine (wellFormed_left_iff hleft).2 ?_
  cases hhead : ((s.dropWhile isSpace).reverse.takeWhile isSpace).reverse.head? with
  | none => rfl
  | some c =>
    have hmem := List.mem_reverse.1 (List.mem_of_head? hhead)
    have hspace : isSpace c = true := List.all_eq_true.1 List.all_takeWhile c hmem
    have hsurrogate := isSurrogate_of_isSpace hspace
    rw [isSurrogate, Bool.or_eq_false_iff] at hsurrogate
    exact hsurrogate.2

/-- `Buffer.byteLength(s)`. -/
def byteLength (s : JsString) : Nat := (utf8Encode s).length

theorem pointBytes_length (n : Nat) : 0 < (pointBytes n).length ∧ (pointBytes n).length ≤ 4 := by
  unfold pointBytes
  split
  · simp
  · split
    · simp
    · split <;> simp

/-- A character is encoded in one to four bytes. -/
theorem byteLength_of_mem_characters {s ch : JsString} (h : ch ∈ characters s) :
    0 < byteLength ch ∧ byteLength ch ≤ 4 := by
  fun_induction characters s with
  | case1 => cases h
  | case2 u =>
    cases List.mem_singleton.1 h
    simp only [byteLength, utf8Encode, codePoints, List.flatMap_cons, List.flatMap_nil,
      List.append_nil]
    exact pointBytes_length _
  | case3 u v rest hpair ih =>
    obtain rfl | h := List.mem_cons.1 h
    · simp only [byteLength, utf8Encode, codePoints, hpair, if_true, List.flatMap_cons,
        List.flatMap_nil, List.append_nil]
      exact pointBytes_length _
    · exact ih h
  | case4 u v rest hpair ih =>
    obtain rfl | h := List.mem_cons.1 h
    · simp only [byteLength, utf8Encode, codePoints, List.flatMap_cons, List.flatMap_nil,
        List.append_nil]
      exact pointBytes_length _
    · exact ih h

theorem utf8Encode_eq_flatMap (s : JsString) :
    utf8Encode s = (characters s).flatMap utf8Encode := by
  fun_induction characters s with
  | case1 => rfl
  | case2 u => simp
  | case3 u v rest hpair ih =>
    rw [List.flatMap_cons, ← ih]
    simp [utf8Encode, codePoints, hpair]
  | case4 u v rest hpair ih =>
    rw [List.flatMap_cons, ← ih]
    simp [utf8Encode, codePoints, hpair]

/-- The bytes that characters are encoded in, one after another. -/
def totalBytes (chs : List JsString) : Nat := (chs.flatMap utf8Encode).length

@[simp] theorem totalBytes_nil : totalBytes [] = 0 := rfl

theorem totalBytes_append (a b : List JsString) :
    totalBytes (a ++ b) = totalBytes a + totalBytes b := by
  simp [totalBytes]

theorem totalBytes_singleton (ch : JsString) : totalBytes [ch] = byteLength ch := by
  simp [totalBytes, byteLength]

theorem byteLength_eq_totalBytes (s : JsString) : byteLength s = totalBytes (characters s) := by
  unfold byteLength totalBytes
  rw [← utf8Encode_eq_flatMap]

theorem characters_append {a b : JsString}
    (h : (a.getLast?.any isHighSurrogate && b.head?.any isLowSurrogate) = false) :
    characters (a ++ b) = characters a ++ characters b := by
  fun_induction characters a with
  | case1 => rfl
  | case2 u =>
    cases b with
    | nil => rfl
    | cons v b =>
      have hpair : (isHighSurrogate u && isLowSurrogate v) = false := by simpa using h
      simp [characters, hpair]
  | case3 u v rest hpair ih =>
    rw [List.cons_append, List.cons_append, characters, if_pos hpair, List.cons_append]
    congr 1
    cases rest with
    | nil => rfl
    | cons w rest => exact ih (by simpa using h)
  | case4 u v rest hpair ih =>
    rw [List.cons_append, List.cons_append, characters, if_neg hpair, List.cons_append]
    congr 1
    exact ih (by simpa using h)

theorem byteLength_append {a b : JsString}
    (h : (a.getLast?.any isHighSurrogate && b.head?.any isLowSurrogate) = false) :
    byteLength (a ++ b) = byteLength a + byteLength b := by
  rw [byteLength_eq_totalBytes, characters_append h, totalBytes_append,
    ← byteLength_eq_totalBytes, ← byteLength_eq_totalBytes]

/-- Characters of a text joined again are the characters they were. -/
theorem characters_of_split {s : JsString} {a b : List JsString} (h : characters s = a ++ b) :
    characters a.flatten = a ∧ characters b.flatten = b := by
  cases a with
  | nil =>
    rw [List.nil_append] at h
    rw [← h, characters_flatten]
    exact ⟨rfl, rfl⟩
  | cons ch a =>
    fun_induction characters s generalizing ch a with
    | case1 => cases h
    | case2 u =>
      obtain ⟨rfl, hrest⟩ := List.cons.inj h
      obtain ⟨rfl, rfl⟩ := List.append_eq_nil_iff.1 hrest.symm
      exact ⟨rfl, rfl⟩
    | case3 u v rest hpair ih =>
      obtain ⟨rfl, hrest⟩ := List.cons.inj h
      cases a with
      | nil =>
        have hb : characters rest = b := hrest
        rw [← hb, characters_flatten]
        exact ⟨by simp [characters, hpair], rfl⟩
      | cons ch a =>
        obtain ⟨ha, hb⟩ := ih ch a hrest
        refine ⟨?_, hb⟩
        rw [List.flatten_cons, List.cons_append, List.cons_append, List.nil_append, characters,
          if_pos hpair, ha]
    | case4 u v rest hpair ih =>
      obtain ⟨rfl, hrest⟩ := List.cons.inj h
      cases a with
      | nil =>
        have hb : characters (v :: rest) = b := hrest
        rw [← hb, characters_flatten]
        exact ⟨by simp [characters], rfl⟩
      | cons ch a =>
        have hsplit : characters (v :: rest) = ch :: a ++ b := hrest
        obtain ⟨ha, hb⟩ := ih ch a hsplit
        refine ⟨?_, hb⟩
        have hflat : (ch :: a).flatten ++ b.flatten = v :: rest := by
          rw [← List.flatten_append, ← hsplit, characters_flatten]
        have hmem : ch ∈ characters (v :: rest) := by
          rw [hsplit]
          exact List.mem_cons_self
        have hne : ch ≠ [] := ne_nil_of_mem_characters hmem
        obtain ⟨c, t, hct⟩ : ∃ c t, (ch :: a).flatten = c :: t := by
          obtain ⟨c, t, rfl⟩ := List.exists_cons_of_ne_nil hne
          exact ⟨c, _, rfl⟩
        rw [hct] at hflat
        obtain ⟨rfl, _⟩ := List.cons.inj hflat
        rw [List.flatten_cons, hct, List.cons_append, List.nil_append, characters, if_neg hpair,
          ← hct, ha]

theorem not_high_and_low {u : UInt16} (hhigh : isHighSurrogate u = true)
    (hlow : isLowSurrogate u = true) : False := by
  simp only [isHighSurrogate, isLowSurrogate, Bool.and_eq_true, decide_eq_true_eq,
    UInt16.le_iff_toNat_le, UInt16.reduceToNat] at hhigh hlow
  omega

/-- A surrogate by itself takes three bytes. -/
theorem byteLength_surrogate {u : UInt16} (h : isSurrogate u = true) : byteLength [u] = 3 := by
  unfold isSurrogate at h
  simp only [byteLength, utf8Encode, codePoints, h, if_true, List.flatMap_cons, List.flatMap_nil,
    List.append_nil]
  rfl

/-- Joining texts makes no bytes more: two surrogates take fewer as a pair. -/
theorem byteLength_append_le (a b : JsString) :
    byteLength (a ++ b) ≤ byteLength a + byteLength b := by
  by_cases h : (a.getLast?.any isHighSurrogate && b.head?.any isLowSurrogate) = true
  · obtain ⟨hlast, hhead⟩ := Bool.and_eq_true_iff.1 h
    obtain ⟨u, hu, hhigh⟩ := (Option.any_eq_true _ _).1 hlast
    obtain ⟨v, hv, hlow⟩ := (Option.any_eq_true _ _).1 hhead
    obtain ⟨a, rfl⟩ := List.getLast?_eq_some_iff.1 hu
    obtain ⟨b, rfl⟩ := List.head?_eq_some_iff.1 hv
    have hnotlow : isLowSurrogate u = false := Bool.eq_false_iff.2 (not_high_and_low hhigh)
    have hnothigh : isHighSurrogate v = false :=
      Bool.eq_false_iff.2 fun hv => not_high_and_low hv hlow
    have hpair : byteLength [u, v] ≤ 4 := by
      refine (byteLength_of_mem_characters (s := [u, v]) ?_).2
      simp [characters, hhigh, hlow]
    have hleft : byteLength (a ++ [u]) = byteLength a + 3 := by
      rw [byteLength_append (by simp [hnotlow]),
        byteLength_surrogate (by simp [isSurrogate, hhigh])]
    have hright : byteLength (v :: b) = 3 + byteLength b := by
      rw [← List.singleton_append, byteLength_append (by simp [hnothigh]),
        byteLength_surrogate (by simp [isSurrogate, hlow])]
    have hwhole : byteLength (a ++ [u] ++ v :: b) =
        byteLength a + (byteLength [u, v] + byteLength b) := by
      rw [show a ++ [u] ++ v :: b = a ++ ([u, v] ++ b) by simp,
        byteLength_append (by simp [hnotlow]), byteLength_append (by simp [hnothigh])]
    omega
  · exact Nat.le_of_eq (byteLength_append (Bool.eq_false_iff.2 h))

end TheokitGateways.Js
