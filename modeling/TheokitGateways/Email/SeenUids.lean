/-!
# The UIDs that were dispatched

`SeenUidSet` remembers UIDs in the order they were added and no more than
`maxSize` of them: at that size, adding one first drops the oldest down to
`trimTo`. The structure carries both that no UID is repeated and the bound.
-/

namespace TheokitGateways.Email

/-- `set.add(uid)` on a set that keeps the order of insertion. -/
def addUid (uids : List Nat) (uid : Nat) : List Nat := if uid ∈ uids then uids else uids ++ [uid]

theorem mem_addUid {uids : List Nat} {uid x : Nat} : x ∈ addUid uids uid ↔ x ∈ uids ∨ x = uid := by
  unfold addUid
  split
  · refine ⟨.inl, ?_⟩
    rintro (h | rfl)
    · exact h
    · assumption
  · simp

theorem nodup_addUid {uids : List Nat} (h : uids.Nodup) (uid : Nat) : (addUid uids uid).Nodup := by
  unfold addUid
  split
  · exact h
  · rename_i hnew
    rw [List.nodup_append]
    refine ⟨h, by simp, ?_⟩
    rintro x hx y hy rfl
    exact hnew (List.mem_singleton.1 hy ▸ hx)

theorem length_addUid_le (uids : List Nat) (uid : Nat) :
    (addUid uids uid).length ≤ uids.length + 1 := by
  unfold addUid
  split <;> simp

def maxSize : Nat := 5000
def trimTo : Nat := 4000

structure SeenUidSet where
  /-- Oldest first. -/
  uids : List Nat
  nodup : uids.Nodup
  bounded : uids.length ≤ maxSize

namespace SeenUidSet

def empty : SeenUidSet := ⟨[], List.nodup_nil, Nat.zero_le _⟩

def has (s : SeenUidSet) (uid : Nat) : Bool := uid ∈ s.uids

/-- The UIDs that stay when the oldest are dropped down to `trimTo`. -/
def trimmed (s : SeenUidSet) : List Nat := s.uids.drop (s.uids.length - trimTo)

/-- The UIDs that `add` adds to. -/
def room (s : SeenUidSet) : List Nat := if maxSize ≤ s.uids.length then s.trimmed else s.uids

theorem room_sublist (s : SeenUidSet) : s.room.Sublist s.uids := by
  unfold room trimmed
  split
  · exact List.drop_sublist _ _
  · exact List.Sublist.refl _

theorem room_length (s : SeenUidSet) : s.room.length < maxSize := by
  have h := s.bounded
  unfold room trimmed
  split
  · rw [List.length_drop]
    simp only [maxSize, trimTo] at *
    omega
  · omega

def add (s : SeenUidSet) (uid : Nat) : SeenUidSet where
  uids := addUid s.room uid
  nodup := nodup_addUid (s.nodup.sublist s.room_sublist) uid
  bounded := by
    have hadd := length_addUid_le s.room uid
    have hroom := s.room_length
    omega

@[simp] theorem has_empty (uid : Nat) : empty.has uid = false := rfl

/-- Adding a UID adds no other. -/
theorem has_of_add {s : SeenUidSet} {uid x : Nat} (hne : x ≠ uid) (h : (s.add uid).has x = true) :
    s.has x = true := by
  simp only [has, add, mem_addUid, decide_eq_true_eq] at h ⊢
  rcases h with h | h
  · exact s.room_sublist.subset h
  · exact absurd h hne

end SeenUidSet

end TheokitGateways.Email
