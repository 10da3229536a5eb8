import TheokitGateways.Js.OrderedMap

/-!
# A map of what was put last

A map that deletes a key before it sets it keeps its keys in the order they were last
put in, and one that drops its first entry when it is full holds what was put last:
the latest entries of the keys, as many as there is room for
(`reverse_entries_pushRecent`).
-/

namespace TheokitGateways.Js.OrderedMap

variable {κ ν : Type} [DecidableEq κ]

/-- Drops the first entry, if there is one. -/
def dropFirst (m : OrderedMap κ ν) : OrderedMap κ ν :=
  match m.firstKey with
  | some key => m.delete key
  | none => m

/-- Puts an entry last, in a map that holds no more than a number of them. -/
def pushRecent (capacity : Nat) (m : OrderedMap κ ν) (k : κ) (v : ν) : OrderedMap κ ν :=
  let m := if capacity ≤ m.size ∧ (m.get k).isNone then m.dropFirst else m
  (m.delete k).set k v

/-- The latest entry of each key of a history, which is newest first. -/
def latestOf : List (κ × ν) → List (κ × ν)
  | [] => []
  | e :: past => e :: (latestOf past).filter (·.1 ≠ e.1)

variable {capacity : Nat} {m : OrderedMap κ ν} {k : κ} {v : ν} {past es : List (κ × ν)}

theorem nodup_latestOf (past : List (κ × ν)) : ((latestOf past).map Prod.fst).Nodup := by
  induction past with
  | nil => exact List.nodup_nil
  | cons e past ih =>
    refine List.nodup_cons.2 ⟨fun hmem => ?_, ih.sublist (List.filter_sublist.map _)⟩
    obtain ⟨e', he', heq⟩ := List.mem_map.1 hmem
    exact absurd heq (of_decide_eq_true (List.mem_filter.1 he').2)

theorem filter_eq_self_of_notMem (h : k ∉ es.map Prod.fst) : es.filter (·.1 ≠ k) = es := by
  refine List.filter_eq_self.2 fun e he => decide_eq_true fun heq => h ?_
  exact List.mem_map.2 ⟨e, he, heq⟩

theorem filter_cons_same {e : κ × ν} (he : e.1 = k) :
    (e :: es).filter (·.1 ≠ k) = es.filter (·.1 ≠ k) :=
  List.filter_cons_of_neg (by simpa using he)

theorem filter_cons_other {e : κ × ν} (he : e.1 ≠ k) :
    (e :: es).filter (·.1 ≠ k) = e :: es.filter (·.1 ≠ k) :=
  List.filter_cons_of_pos (by simpa using he)

/-- The first entries stay when a key goes that is none of theirs. -/
theorem take_filter_of_notMem {n : Nat} (h : k ∉ (es.take n).map Prod.fst) :
    (es.filter (·.1 ≠ k)).take n = es.take n := by
  induction es generalizing n with
  | nil => rfl
  | cons e es ih =>
    cases n with
    | zero => rfl
    | succ n =>
      obtain ⟨hne, hes⟩ := not_or.1 (mt List.mem_cons.2 h)
      rw [filter_cons_other (Ne.symm hne), List.take_succ_cons, List.take_succ_cons, ih hes]

/-- Without one of the first entries, there is one fewer of them. -/
theorem take_filter_of_mem {n : Nat} (hes : (es.map Prod.fst).Nodup)
    (h : k ∈ (es.take (n + 1)).map Prod.fst) :
    (es.filter (·.1 ≠ k)).take n = (es.take (n + 1)).filter (·.1 ≠ k) := by
  induction es generalizing n with
  | nil => simp
  | cons e es ih =>
    obtain ⟨hmem, hnodup⟩ := List.nodup_cons.1 hes
    rw [List.take_succ_cons]
    by_cases he : e.1 = k
    · have hnot : k ∉ es.map Prod.fst := he ▸ hmem
      have hnotTake : k ∉ (es.take n).map Prod.fst :=
        fun hk => hnot (((List.take_sublist n es).map Prod.fst).subset hk)
      rw [filter_cons_same he, filter_cons_same he, filter_eq_self_of_notMem hnot,
        filter_eq_self_of_notMem hnotTake]
    · rw [List.take_succ_cons, List.map_cons, List.mem_cons] at h
      have hlater := h.resolve_left (Ne.symm he)
      rw [filter_cons_other he, filter_cons_other he]
      cases n with
      | zero => simp at hlater
      | succ n => rw [List.take_succ_cons, ih hnodup hlater]

theorem entries_dropFirst (m : OrderedMap κ ν) : m.dropFirst.entries = m.entries.tail := by
  unfold dropFirst firstKey
  have hnodup := m.nodup
  cases hentries : m.entries with
  | nil => exact hentries
  | cons e es =>
    rw [hentries] at hnodup
    show m.entries.filter (·.1 ≠ e.1) = es
    rw [hentries, filter_cons_same rfl]
    exact filter_eq_self_of_notMem (List.nodup_cons.1 hnodup).1

theorem entries_delete_set (m : OrderedMap κ ν) (k : κ) (v : ν) :
    ((m.delete k).set k v).entries = m.entries.filter (·.1 ≠ k) ++ [(k, v)] := by
  refine entries_set_of_notMem (fun hmem => ?_) v
  obtain ⟨e, he, heq⟩ := List.mem_map.1 hmem
  exact absurd heq (of_decide_eq_true (List.mem_filter.1 he).2)

/-- A bounded map holds what was put last, the newest last. -/
theorem reverse_entries_pushRecent (hcapacity : 0 < capacity)
    (h : m.entries.reverse = (latestOf past).take capacity) :
    (m.pushRecent capacity k v).entries.reverse = (latestOf ((k, v) :: past)).take capacity := by
  obtain ⟨n, rfl⟩ : ∃ n, capacity = n + 1 := ⟨capacity - 1, by omega⟩
  have hkeys : k ∈ m.entries.map Prod.fst ↔ k ∈ ((latestOf past).take (n + 1)).map Prod.fst := by
    rw [← h, List.map_reverse, List.mem_reverse]
  have hsize : m.size = ((latestOf past).take (n + 1)).length := by
    rw [← h, List.length_reverse, size]
  have hnone : (m.get k).isNone = true ↔ k ∉ m.entries.map Prod.fst := by
    rw [Option.isNone_iff_eq_none, get, List.lookup_eq_none_iff]
    refine ⟨fun hall hmem => ?_, fun hnot e he => ?_⟩
    · obtain ⟨e, he, rfl⟩ := List.mem_map.1 hmem
      simpa using hall e he
    · simpa using fun heq : k = e.1 => hnot (heq ▸ List.mem_map_of_mem he)
  rw [latestOf, List.take_succ_cons]
  unfold pushRecent
  dsimp only
  split
  · -- The first entry, the oldest, goes.
    rename_i hfull
    have hnot := mt hkeys.2 (hnone.1 hfull.2)
    rw [entries_delete_set, List.reverse_append, ← List.filter_reverse, entries_dropFirst,
      ← List.dropLast_reverse, h]
    have hlength : ((latestOf past).take (n + 1)).length = n + 1 := by
      have := List.length_take_le (n + 1) (latestOf past)
      omega
    have hrest : ((latestOf past).take (n + 1)).dropLast = (latestOf past).take n := by
      rw [List.dropLast_eq_take, hlength, List.take_take]
      simp
    have hnotTake : k ∉ ((latestOf past).take n).map Prod.fst := fun hk =>
      hnot (((List.take_prefix_take_left (Nat.le_succ n)).sublist.map Prod.fst).subset hk)
    rw [hrest, filter_eq_self_of_notMem hnotTake, take_filter_of_notMem hnotTake]
    rfl
  · rename_i hroom
    rw [entries_delete_set, List.reverse_append, ← List.filter_reverse, h]
    by_cases hmem : k ∈ m.entries.map Prod.fst
    · rw [take_filter_of_mem (nodup_latestOf past) (hkeys.1 hmem)]
      rfl
    · have hnot := mt hkeys.2 hmem
      have hshort : (latestOf past).length ≤ n := by
        have hlt : ¬n + 1 ≤ m.size := fun hle => hroom ⟨hle, hnone.2 hmem⟩
        rw [hsize, List.length_take] at hlt
        omega
      rw [List.take_of_length_le (Nat.le_succ_of_le hshort),
        List.take_of_length_le (Nat.le_trans (List.length_filter_le ..) hshort)]
      rfl

theorem mem_latestOf_of_get (h : m.entries.reverse = (latestOf past).take capacity) :
    m.get k = some v ↔ (k, v) ∈ (latestOf past).take capacity := by
  rw [← h, List.mem_reverse]
  exact ⟨mem_entries_of_get, get_of_mem_entries⟩

end TheokitGateways.Js.OrderedMap
