/-!
# Lists of records named by their place

A system that starts calls, sessions or sockets keeps a record of each for good,
and names it by its place: a new one goes last, and an old one is changed where
it stands. These rules say what such a list holds at a place after either.
-/

namespace TheokitGateways.Records

variable {α β : Type} {xs : List α} {x y : α} {k j : Nat} {f : α → α}

theorem getElem?_modify_eq_some :
    (xs.modify k f)[j]? = some y ↔ ∃ x, xs[j]? = some x ∧ y = if k = j then f x else x := by
  rw [List.getElem?_modify]
  cases xs[j]? with
  | none => simp
  | some s => simp [eq_comm]

/-- A change that replaces a record. -/
theorem getElem?_modify_const (h : (xs.modify k fun _ => x)[j]? = some y) :
    (j = k ∧ y = x) ∨ (j ≠ k ∧ xs[j]? = some y) := by
  obtain ⟨z, hz, rfl⟩ := getElem?_modify_eq_some.1 h
  split
  · exact .inl ⟨Eq.symm ‹_›, rfl⟩
  · exact .inr ⟨Ne.symm ‹_›, hz⟩

theorem getElem?_append_singleton :
    (xs ++ [x])[j]? = some y ↔ xs[j]? = some y ∨ j = xs.length ∧ y = x := by
  rcases Nat.lt_trichotomy j xs.length with h | rfl | h
  · simp [List.getElem?_append_left h, Nat.ne_of_lt h]
  · simp [eq_comm]
  · have hle : xs.length ≤ j := Nat.le_of_lt h
    have hne : j ≠ xs.length := Nat.ne_of_gt h
    have hover : (xs ++ [x])[j]? = none := List.getElem?_eq_none (by simp; omega)
    simp [hover, hne, List.getElem?_eq_none hle]

theorem getElem?_map_eq_some {g : α → β} {z : β} :
    (xs.map g)[j]? = some z ↔ ∃ x, xs[j]? = some x ∧ g x = z := by
  rw [List.getElem?_map, Option.map_eq_some_iff]

theorem getElem?_set_eq_some (h : (xs.set k x)[j]? = some y) :
    (j = k ∧ y = x) ∨ (j ≠ k ∧ xs[j]? = some y) := by
  rw [List.getElem?_set] at h
  split at h
  · subst k
    split at h
    · exact .inl ⟨rfl, (Option.some.inj h).symm⟩
    · cases h
  · exact .inr ⟨Ne.symm ‹_›, h⟩

/-- Records that look the same to `g` stand at the same places. -/
theorem exists_of_map_eq {g : α → β} {ys : List α} (h : xs.map g = ys.map g)
    (hx : xs[k]? = some x) : ∃ y, ys[k]? = some y ∧ g y = g x := by
  have hgx : (xs.map g)[k]? = some (g x) := getElem?_map_eq_some.2 ⟨x, hx, rfl⟩
  rw [h] at hgx
  exact getElem?_map_eq_some.1 hgx

/-- The last record after a change is the changed one, or was last before. -/
theorem getLast?_set_eq_some (h : (xs.set k x).getLast? = some y) :
    y = x ∨ xs.getLast? = some y := by
  rw [List.getLast?_eq_getElem?, List.length_set] at h
  obtain ⟨_, hy⟩ | ⟨_, hy⟩ := getElem?_set_eq_some h
  · exact .inl hy
  · exact .inr (List.getLast?_eq_getElem? ▸ hy)

/-- A change at a place leaves the records at the other ones. -/
theorem mem_set_of_mem_eraseIdx (h : y ∈ xs.eraseIdx k) : y ∈ xs.set k x := by
  obtain ⟨j, hne, hj⟩ := List.mem_eraseIdx_iff_getElem?.1 h
  exact List.mem_of_getElem? (by rw [List.getElem?_set_ne (Ne.symm hne), hj])

theorem forall_set {P : α → Prop} (k : Nat) (h : ∀ y ∈ xs, P y) (hx : P x) :
    ∀ y ∈ xs.set k x, P y := by
  intro y hy
  obtain hy | rfl := List.mem_or_eq_of_mem_set hy
  · exact h y hy
  · exact hx

/-- A change that keeps what `g` looks at. -/
theorem map_modify_eq {g : α → β} (hf : ∀ x, g (f x) = g x) :
    (xs.modify k f).map g = xs.map g := by
  apply List.ext_getElem?
  intro j
  rw [List.getElem?_map, List.getElem?_map, List.getElem?_modify]
  cases xs[j]? with
  | none => rfl
  | some x =>
    by_cases hkj : k = j
    · simp [hkj, hf]
    · simp [hkj]

theorem pairwise_modify {r : β → β → Prop} {g : α → β} (hf : ∀ x, g (f x) = g x)
    (h : (xs.map g).Pairwise r) : ((xs.modify k f).map g).Pairwise r := by
  rwa [map_modify_eq hf]

/-- Records in order that agree stand at one place. -/
theorem eq_of_pairwise_lt {g : α → Nat} (h : (xs.map g).Pairwise (· < ·)) (hx : xs[j]? = some x)
    (hy : xs[k]? = some y) (heq : g x = g y) : j = k := by
  have hgx : (xs.map g)[j]? = some (g x) := by rw [List.getElem?_map, hx]; rfl
  have hgy : (xs.map g)[k]? = some (g y) := by rw [List.getElem?_map, hy]; rfl
  rw [List.pairwise_iff_getElem] at h
  obtain ⟨hj, hgx⟩ := List.getElem?_eq_some_iff.1 hgx
  obtain ⟨hk, hgy⟩ := List.getElem?_eq_some_iff.1 hgy
  rcases Nat.lt_trichotomy j k with hlt | heq' | hlt
  · have := h j k hj hk hlt
    omega
  · exact heq'
  · have := h k j hk hj hlt
    omega

/-- Records that give one name are one record, when no name is given twice. -/
theorem eq_of_nodup_filterMap {f : α → Option β} (h : (xs.filterMap f).Nodup) (hx : x ∈ xs)
    (hy : y ∈ xs) {z : β} (hfx : f x = some z) (hfy : f y = some z) : x = y := by
  induction xs with
  | nil => cases hx
  | cons w xs ih =>
    have hmem {v : α} (hv : v ∈ xs) (hfv : f v = some z) : z ∈ xs.filterMap f :=
      List.mem_filterMap.2 ⟨v, hv, hfv⟩
    obtain rfl | hx' := List.mem_cons.1 hx
    · obtain rfl | hy' := List.mem_cons.1 hy
      · rfl
      · rw [List.filterMap_cons_some hfx] at h
        exact ((List.nodup_cons.1 h).1 (hmem hy' hfy)).elim
    · obtain rfl | hy' := List.mem_cons.1 hy
      · rw [List.filterMap_cons_some hfy] at h
        exact ((List.nodup_cons.1 h).1 (hmem hx' hfx)).elim
      · refine ih ?_ hx' hy'
        exact h.sublist ((List.sublist_cons_self _ _).filterMap f)

/-- When one record at most has something to say. -/
theorem length_flatMap_le {f : α → List β} {n : Nat}
    (hone : ∀ (j : Nat) (y : α), xs[j]? = some y → f y ≠ [] → j = k)
    (hle : ∀ y ∈ xs, (f y).length ≤ n) : (xs.flatMap f).length ≤ n := by
  induction xs generalizing k with
  | nil => exact Nat.zero_le n
  | cons y xs ih =>
    have htail : ∀ y ∈ xs, (f y).length ≤ n := fun y hy => hle y (List.mem_cons_of_mem _ hy)
    rw [List.flatMap_cons, List.length_append]
    cases hy : f y with
    | nil =>
      rw [List.length_nil, Nat.zero_add]
      refine ih (k := k - 1) (fun j z hj hz => ?_) htail
      have hjk := hone (j + 1) z hj hz
      omega
    | cons b bs =>
      have hk : 0 = k := hone 0 y rfl (by simp [hy])
      have hsilent : xs.flatMap f = [] := by
        rw [List.flatMap_eq_nil_iff]
        intro z hz
        obtain ⟨j, hj⟩ := List.mem_iff_getElem?.1 hz
        apply Decidable.byContradiction
        intro hne
        have hjk := hone (j + 1) z hj hne
        omega
      rw [hsilent, ← hy]
      exact hle y List.mem_cons_self

end TheokitGateways.Records
