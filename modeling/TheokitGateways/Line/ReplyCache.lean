import TheokitGateways.Js.OrderedMap
import TheokitGateways.Js.Text

/-!
# LINE: the cache of reply tokens

A token is put under a key with the time it expires at and is taken once. A full
cache drops its oldest entry before it stores another.
-/

namespace TheokitGateways.Line
open Js

structure Entry where
  token : JsString
  expiresAt : Nat

structure ReplyTokenCache where
  cache : OrderedMap JsString Entry
  ttlMs : Nat
  capacity : Nat

namespace ReplyTokenCache

def defaultTtlMs : Nat := 60000
def defaultCapacity : Nat := 1000

def new (ttlMs : Nat := defaultTtlMs) (capacity : Nat := defaultCapacity) : ReplyTokenCache :=
  ⟨.empty, ttlMs, capacity⟩

def size (c : ReplyTokenCache) : Nat := c.cache.size

def clear (c : ReplyTokenCache) : ReplyTokenCache := { c with cache := .empty }

def evictOldest (c : ReplyTokenCache) : ReplyTokenCache :=
  match c.cache.firstKey with
  | some key => { c with cache := c.cache.delete key }
  | none => c

def put (c : ReplyTokenCache) (userId token : JsString) (now : Nat) : ReplyTokenCache :=
  let c := if c.capacity ≤ c.size then c.evictOldest else c
  { c with cache := c.cache.set userId ⟨token, now + c.ttlMs⟩ }

/-- What is left after taking a key, and its token unless it has expired. -/
def take (c : ReplyTokenCache) (userId : JsString) (now : Nat) :
    ReplyTokenCache × Option JsString :=
  match c.cache.get userId with
  | none => (c, none)
  | some entry =>
    ({ c with cache := c.cache.delete userId },
      if entry.expiresAt ≤ now then none else some entry.token)

/-- The token a key holds at a time. -/
def held (c : ReplyTokenCache) (userId : JsString) (now : Nat) : Option JsString :=
  (c.cache.get userId).bind fun entry =>
    if entry.expiresAt ≤ now then none else some entry.token

theorem take_snd (c : ReplyTokenCache) (userId : JsString) (now : Nat) :
    (c.take userId now).2 = c.held userId now := by
  unfold take held
  cases c.cache.get userId <;> rfl

theorem get_of_held {c : ReplyTokenCache} {userId token : JsString} {now : Nat}
    (h : c.held userId now = some token) :
    ∃ entry, c.cache.get userId = some entry ∧ entry.token = token := by
  simp only [held, Option.bind_eq_some_iff, Option.ite_none_left_eq_some, Option.some.injEq] at h
  obtain ⟨entry, hget, _, htoken⟩ := h
  exact ⟨entry, hget, htoken⟩

/-- Taking a key only removes it. -/
theorem get_take (c : ReplyTokenCache) (userId x : JsString) (now : Nat) (entry : Entry)
    (h : (c.take userId now).1.cache.get x = some entry) : c.cache.get x = some entry := by
  unfold take at h
  split at h
  · exact h
  · simp only [OrderedMap.get_delete, Option.ite_none_left_eq_some] at h
    exact h.2

theorem get_evictOldest (c : ReplyTokenCache) (x : JsString) (entry : Entry)
    (h : c.evictOldest.cache.get x = some entry) : c.cache.get x = some entry := by
  unfold evictOldest at h
  split at h
  · simp only [OrderedMap.get_delete, Option.ite_none_left_eq_some] at h
    exact h.2
  · exact h

/-- Putting stores the token under its key and may drop other entries. -/
theorem get_put (c : ReplyTokenCache) (userId token x : JsString) (now : Nat) (entry : Entry)
    (h : (c.put userId token now).cache.get x = some entry) :
    (x = userId ∧ entry.token = token) ∨ (x ≠ userId ∧ c.cache.get x = some entry) := by
  simp only [put, OrderedMap.get_set] at h
  split at h
  · rename_i hx
    obtain ⟨⟩ := h
    exact .inl ⟨hx, rfl⟩
  · rename_i hx
    refine .inr ⟨hx, ?_⟩
    split at h
    · exact get_evictOldest c x entry h
    · exact h

end ReplyTokenCache

end TheokitGateways.Line
