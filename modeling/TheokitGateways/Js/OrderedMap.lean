/-!
# Maps that keep the order of insertion

`OrderedMap` is a JavaScript `Map`: one entry for each key, a new key goes last,
setting a key that is there leaves its place. The structure carries that no key
is repeated.
-/

namespace TheokitGateways.Js

structure OrderedMap (κ ν : Type) where
  entries : List (κ × ν)
  nodup : (entries.map Prod.fst).Nodup

namespace OrderedMap

variable {κ ν : Type}

def empty : OrderedMap κ ν := ⟨[], List.nodup_nil⟩

def size (m : OrderedMap κ ν) : Nat := m.entries.length

/-- `map.keys().next().value`. -/
def firstKey (m : OrderedMap κ ν) : Option κ := m.entries.head?.map Prod.fst

theorem firstKey_eq_none {m : OrderedMap κ ν} : m.firstKey = none ↔ m.size = 0 := by
  rw [firstKey, Option.map_eq_none_iff, List.head?_eq_none_iff, size, List.length_eq_zero_iff]

variable [DecidableEq κ]

def get (m : OrderedMap κ ν) (k : κ) : Option ν := m.entries.lookup k

def delete (m : OrderedMap κ ν) (k : κ) : OrderedMap κ ν where
  entries := m.entries.filter fun e => e.1 ≠ k
  nodup := m.nodup.sublist (List.filter_sublist.map _)

/-- The entries after setting a key. -/
def setEntries (k : κ) (v : ν) : List (κ × ν) → List (κ × ν)
  | [] => [(k, v)]
  | e :: es => if e.1 = k then (k, v) :: es else e :: setEntries k v es

theorem mem_map_fst_setEntries {k x : κ} {v : ν} {es : List (κ × ν)} :
    x ∈ (setEntries k v es).map Prod.fst ↔ x = k ∨ x ∈ es.map Prod.fst := by
  induction es with
  | nil => simp [setEntries]
  | cons e es ih =>
    by_cases h : e.1 = k
    · simp [setEntries, h]
    · simp only [setEntries, h, if_false, List.map_cons, List.mem_cons, ih]
      grind

theorem nodup_setEntries {k : κ} {v : ν} {es : List (κ × ν)} (h : (es.map Prod.fst).Nodup) :
    ((setEntries k v es).map Prod.fst).Nodup := by
  induction es with
  | nil => simp [setEntries]
  | cons e es ih =>
    obtain ⟨hmem, hes⟩ := List.nodup_cons.1 h
    by_cases hk : e.1 = k
    · rw [setEntries, if_pos hk]
      exact List.nodup_cons.2 ⟨hk ▸ hmem, hes⟩
    · rw [setEntries, if_neg hk, List.map_cons, List.nodup_cons, mem_map_fst_setEntries]
      exact ⟨not_or.2 ⟨hk, hmem⟩, ih hes⟩

def set (m : OrderedMap κ ν) (k : κ) (v : ν) : OrderedMap κ ν where
  entries := setEntries k v m.entries
  nodup := nodup_setEntries m.nodup

@[simp] theorem get_empty (k : κ) : (empty : OrderedMap κ ν).get k = none := rfl

theorem lookup_cons (e : κ × ν) (x : κ) (es : List (κ × ν)) :
    (e :: es).lookup x = if x = e.1 then some e.2 else es.lookup x := by
  obtain ⟨k, v⟩ := e
  by_cases h : x = k
  · simp [h]
  · have hb : (x == k) = false := by simpa using h
    simp [List.lookup_cons, h, hb]

theorem lookup_setEntries (k x : κ) (v : ν) (es : List (κ × ν)) :
    (setEntries k v es).lookup x = if x = k then some v else es.lookup x := by
  induction es with
  | nil => simp [setEntries, lookup_cons]
  | cons e es ih => grind [setEntries, lookup_cons]

@[simp] theorem get_set (m : OrderedMap κ ν) (k x : κ) (v : ν) :
    (m.set k v).get x = if x = k then some v else m.get x :=
  lookup_setEntries k x v m.entries

/-- Setting keys in turn leaves the others. -/
theorem get_foldl_set_of_notMem {k : κ} {es : List (κ × ν)} (h : k ∉ es.map Prod.fst)
    (m : OrderedMap κ ν) : (es.foldl (fun m e => m.set e.1 e.2) m).get k = m.get k := by
  induction es generalizing m with
  | nil => rfl
  | cons e es ih =>
    obtain ⟨hne, hes⟩ := not_or.1 (mt List.mem_cons.2 h)
    rw [List.foldl_cons, ih hes, get_set, if_neg hne]

/-- Setting keys in turn, the last one of a key stays. -/
theorem get_foldl_set_last {ε : Type} (key : ε → κ) (value : ε → ν) (es : List ε)
    (m : OrderedMap κ ν) (k : κ) :
    (es.foldl (fun m e => m.set (key e) (value e)) m).get k =
      ((es.reverse.find? fun e => key e = k).map value).or (m.get k) := by
  induction es generalizing m with
  | nil => rfl
  | cons e es ih =>
    rw [List.foldl_cons, ih, List.reverse_cons, List.find?_append, get_set]
    cases es.reverse.find? fun e => key e = k with
    | some last => rfl
    | none =>
      by_cases hk : key e = k
      · simp [hk]
      · simp [hk, Ne.symm hk]

/-- Setting distinct keys in turn sets each. -/
theorem get_foldl_set {k : κ} {v : ν} {es : List (κ × ν)} (hes : (es.map Prod.fst).Nodup)
    (h : (k, v) ∈ es) (m : OrderedMap κ ν) :
    (es.foldl (fun m e => m.set e.1 e.2) m).get k = some v := by
  induction es generalizing m with
  | nil => cases h
  | cons e es ih =>
    obtain ⟨hmem, hes⟩ := List.nodup_cons.1 hes
    obtain rfl | h := List.mem_cons.1 h
    · rw [List.foldl_cons, get_foldl_set_of_notMem hmem, get_set, if_pos rfl]
    · rw [List.foldl_cons, ih hes h]

theorem mem_entries_of_get {m : OrderedMap κ ν} {k : κ} {v : ν} (h : m.get k = some v) :
    (k, v) ∈ m.entries := by
  obtain ⟨l₁, l₂, heq, _⟩ := List.lookup_eq_some_iff.1 h
  rw [heq]
  exact List.mem_append_right _ List.mem_cons_self

theorem get_of_mem_entries {m : OrderedMap κ ν} {e : κ × ν} (h : e ∈ m.entries) :
    m.get e.1 = some e.2 := by
  have hlookup (es : List (κ × ν)) (hes : (es.map Prod.fst).Nodup) (he : e ∈ es) :
      es.lookup e.1 = some e.2 := by
    induction es with
    | nil => cases he
    | cons x es ih =>
      obtain ⟨hx, hes⟩ := List.nodup_cons.1 hes
      rw [lookup_cons]
      rcases List.mem_cons.1 he with rfl | he
      · exact if_pos rfl
      · have hne : e.1 ≠ x.1 := fun heq => hx (heq ▸ List.mem_map_of_mem he)
        rw [if_neg hne, ih hes he]
  exact hlookup m.entries m.nodup h

theorem lookup_filter (k x : κ) (es : List (κ × ν)) :
    (es.filter fun e => e.1 ≠ k).lookup x = if x = k then none else es.lookup x := by
  induction es with
  | nil => simp
  | cons e es ih => grind [lookup_cons]

@[simp] theorem get_delete (m : OrderedMap κ ν) (k x : κ) :
    (m.delete k).get x = if x = k then none else m.get x :=
  lookup_filter k x m.entries

/-- A key that is there is one of the entries; deleting it leaves the others. -/
theorem entries_perm_delete {m : OrderedMap κ ν} {k : κ} {v : ν} (h : m.get k = some v) :
    m.entries.Perm ((k, v) :: (m.delete k).entries) := by
  obtain ⟨l₁, l₂, heq, _⟩ := List.lookup_eq_some_iff.1 h
  have hnodup := m.nodup
  rw [heq, List.map_append, List.map_cons, List.nodup_append] at hnodup
  obtain ⟨_, hnodup, hdisjoint⟩ := hnodup
  obtain ⟨hk, _⟩ := List.nodup_cons.1 hnodup
  have hkeep (l : List (κ × ν)) (hl : k ∉ l.map Prod.fst) : (l.filter fun e => e.1 ≠ k) = l := by
    rw [List.filter_eq_self]
    intro e he
    have hne : e.1 ≠ k := fun heq => hl (List.mem_map.2 ⟨e, he, heq⟩)
    simpa using hne
  have hfront : k ∉ l₁.map Prod.fst := fun hmem => hdisjoint k hmem k List.mem_cons_self rfl
  simp only [delete, heq, List.filter_append, hkeep l₁ hfront]
  rw [List.filter_cons_of_neg (by simp), hkeep l₂ hk]
  exact List.perm_middle

theorem size_delete {m : OrderedMap κ ν} {k : κ} {v : ν} (h : m.get k = some v) :
    (m.delete k).size + 1 = m.size := (entries_perm_delete h).length_eq.symm

theorem size_delete_le (m : OrderedMap κ ν) (k : κ) : (m.delete k).size ≤ m.size :=
  List.length_filter_le _ _

theorem size_set_le (m : OrderedMap κ ν) (k : κ) (v : ν) : (m.set k v).size ≤ m.size + 1 := by
  have hlength (es : List (κ × ν)) : (setEntries k v es).length ≤ es.length + 1 := by
    induction es with
    | nil => exact Nat.le_refl _
    | cons e es ih =>
      rw [setEntries]
      split
      · exact Nat.le_succ _
      · exact Nat.succ_le_succ ih
  exact hlength m.entries

theorem get_of_firstKey {m : OrderedMap κ ν} {k : κ} (h : m.firstKey = some k) :
    ∃ v, m.get k = some v := by
  obtain ⟨e, he, rfl⟩ := Option.map_eq_some_iff.1 h
  exact ⟨e.2, get_of_mem_entries (List.mem_of_head? he)⟩

theorem delete_of_get_none {m : OrderedMap κ ν} {k : κ} (h : m.get k = none) :
    (m.delete k).entries = m.entries := by
  rw [delete, List.filter_eq_self]
  intro e he
  have hne : k ≠ e.1 := by simpa using List.lookup_eq_none_iff.1 h e he
  simpa using Ne.symm hne

/-- A new key goes last. -/
theorem entries_set_of_notMem {m : OrderedMap κ ν} {k : κ} (h : k ∉ m.entries.map Prod.fst)
    (v : ν) : (m.set k v).entries = m.entries ++ [(k, v)] := by
  have hset (es : List (κ × ν)) (hes : k ∉ es.map Prod.fst) :
      setEntries k v es = es ++ [(k, v)] := by
    induction es with
    | nil => rfl
    | cons e es ih =>
      obtain ⟨hne, hes⟩ := not_or.1 (mt List.mem_cons.2 hes)
      rw [setEntries, if_neg (Ne.symm hne), ih hes, List.cons_append]
  exact hset m.entries h

end OrderedMap

end TheokitGateways.Js
