/-!
# Programs that await calls

An async function as the tree of what it does next: return, throw, await a call
to code that is not its own, or write something out. A call may answer anything
of its type or throw anything. `Runs p t q` says that `p` became `q` with the
events `t`; what a sequence of two programs does is what its parts do, one after
the other. `SafeUnder H` is the programs that throw nothing as long as their
calls answer as `H` says.
-/

namespace TheokitGateways.Async

/-- A program over calls, their answers, thrown values `ε`, output `ω` and result `α`. -/
inductive Prog (Call : Type) (Answer : Call → Type) (ε ω α : Type) : Type where
  | ret (a : α)
  | throw (e : ε)
  | call (c : Call) (k : Except ε (Answer c) → Prog Call Answer ε ω α)
  | emit (o : ω) (k : Prog Call Answer ε ω α)

inductive Event (Call : Type) (Answer : Call → Type) (ε ω : Type) : Type where
  | answered (c : Call) (r : Except ε (Answer c))
  | emitted (o : ω)

namespace Prog

variable {Call : Type} {Answer : Call → Type} {ε ω α β : Type}

def bind (p : Prog Call Answer ε ω α) (f : α → Prog Call Answer ε ω β) :
    Prog Call Answer ε ω β :=
  match p with
  | .ret a => f a
  | .throw e => .throw e
  | .call c k => .call c fun r => (k r).bind f
  | .emit o k => .emit o (k.bind f)

instance : Monad (Prog Call Answer ε ω) where
  pure := .ret
  bind := bind

/-- `await call` inside a `try`: how the call settled. -/
def settle (c : Call) : Prog Call Answer ε ω (Except ε (Answer c)) := .call c .ret

def ofExcept : Except ε α → Prog Call Answer ε ω α
  | .ok a => .ret a
  | .error e => .throw e

/-- `await call` outside any `try`. -/
def await (c : Call) : Prog Call Answer ε ω (Answer c) := .call c ofExcept

def write (o : ω) : Prog Call Answer ε ω Unit := .emit o (.ret ())

/-- The call a program waits for. -/
def pending : Prog Call Answer ε ω α → Option Call
  | .call c _ => some c
  | _ => none

/-- How a program that has settled did. -/
def result : Prog Call Answer ε ω α → Option (Except ε α)
  | .ret a => some (.ok a)
  | .throw e => some (.error e)
  | _ => none

def finished : Prog Call Answer ε ω α → Bool
  | .ret _ | .throw _ => true
  | _ => false

/-- The calls that were answered. -/
def answeredCalls (t : List (Event Call Answer ε ω)) : List Call :=
  t.filterMap fun | .answered c _ => some c | .emitted _ => none

/-- The calls a program made: the answered ones, and the one it waits for. -/
def callsMade (t : List (Event Call Answer ε ω)) (p : Prog Call Answer ε ω α) : List Call :=
  answeredCalls t ++ p.pending.toList

/-- One step in an environment that settles every call in some way. -/
def step (env : ∀ c, Except ε (Answer c)) :
    Prog Call Answer ε ω α → Option (Event Call Answer ε ω × Prog Call Answer ε ω α)
  | .call c k => some (.answered c (env c), k (env c))
  | .emit o k => some (.emitted o, k)
  | _ => none

inductive Runs : Prog Call Answer ε ω α → List (Event Call Answer ε ω) →
    Prog Call Answer ε ω α → Prop where
  | nil (p) : Runs p [] p
  | answered {c k t q} (r) : Runs (k r) t q → Runs (.call c k) (.answered c r :: t) q
  | emitted {o k t q} : Runs k t q → Runs (.emit o k) (.emitted o :: t) q

/-- A run goes on by a step. -/
theorem Runs.snoc {p q q' : Prog Call Answer ε ω α} {t : List (Event Call Answer ε ω)}
    {env : ∀ c, Except ε (Answer c)} {e : Event Call Answer ε ω} (h : Runs p t q)
    (hstep : q.step env = some (e, q')) : Runs p (t ++ [e]) q' := by
  induction h with
  | nil q =>
    cases q with
    | ret a => cases hstep
    | throw a => cases hstep
    | call c k =>
      cases hstep
      exact .answered _ (.nil _)
    | emit o k =>
      cases hstep
      exact .emitted (.nil _)
  | answered r _ ih => exact .answered r (ih hstep)
  | emitted _ ih => exact .emitted (ih hstep)

theorem runs_ret {a : α} {t : List (Event Call Answer ε ω)} {q : Prog Call Answer ε ω α} :
    Runs (.ret a) t q ↔ t = [] ∧ q = .ret a := by
  constructor
  · intro h
    cases h
    exact ⟨rfl, rfl⟩
  · rintro ⟨rfl, rfl⟩
    exact .nil _

theorem runs_throw {e : ε} {t : List (Event Call Answer ε ω)} {q : Prog Call Answer ε ω α} :
    Runs (.throw e) t q ↔ t = [] ∧ q = .throw e := by
  constructor
  · intro h
    cases h
    exact ⟨rfl, rfl⟩
  · rintro ⟨rfl, rfl⟩
    exact .nil _

theorem runs_call {c : Call} {k : Except ε (Answer c) → Prog Call Answer ε ω α}
    {t : List (Event Call Answer ε ω)} {q : Prog Call Answer ε ω α} :
    Runs (.call c k) t q ↔ (t = [] ∧ q = .call c k) ∨
      ∃ r t', t = .answered c r :: t' ∧ Runs (k r) t' q := by
  constructor
  · intro h
    cases h with
    | nil => exact .inl ⟨rfl, rfl⟩
    | answered r h => exact .inr ⟨r, _, rfl, h⟩
  · rintro (⟨rfl, rfl⟩ | ⟨r, t', rfl, h⟩)
    · exact .nil _
    · exact .answered r h

theorem runs_emit {o : ω} {k : Prog Call Answer ε ω α} {t : List (Event Call Answer ε ω)}
    {q : Prog Call Answer ε ω α} :
    Runs (.emit o k) t q ↔ (t = [] ∧ q = .emit o k) ∨
      ∃ t', t = .emitted o :: t' ∧ Runs k t' q := by
  constructor
  · intro h
    cases h with
    | nil => exact .inl ⟨rfl, rfl⟩
    | emitted h => exact .inr ⟨_, rfl, h⟩
  · rintro (⟨rfl, rfl⟩ | ⟨t', rfl, h⟩)
    · exact .nil _
    · exact .emitted h

/-- A sequence is in its first part, has thrown in it, or has returned from it into its
second. -/
theorem Runs.of_bind {p : Prog Call Answer ε ω α} {f : α → Prog Call Answer ε ω β}
    {t : List (Event Call Answer ε ω)} {q : Prog Call Answer ε ω β} (h : Runs (p >>= f) t q) :
    (∃ p', Runs p t p' ∧ p'.finished = false ∧ q = p' >>= f) ∨
      (∃ e, Runs p t (.throw e) ∧ q = .throw e) ∨
      ∃ t₁ t₂ a, t = t₁ ++ t₂ ∧ Runs p t₁ (.ret a) ∧ Runs (f a) t₂ q := by
  induction p generalizing t with
  | ret a => exact .inr (.inr ⟨[], t, a, rfl, .nil _, h⟩)
  | throw e =>
    obtain ⟨rfl, rfl⟩ := runs_throw.1 h
    exact .inr (.inl ⟨e, .nil _, rfl⟩)
  | call c k ih =>
    obtain ⟨rfl, rfl⟩ | ⟨r, t', rfl, hk⟩ := runs_call.1 h
    · exact .inl ⟨.call c k, .nil _, rfl, rfl⟩
    · obtain ⟨p', hp, hlive, rfl⟩ | ⟨e, hp, rfl⟩ | ⟨t₁, t₂, a, rfl, hp, hf⟩ := ih r hk
      · exact .inl ⟨p', .answered r hp, hlive, rfl⟩
      · exact .inr (.inl ⟨e, .answered r hp, rfl⟩)
      · exact .inr (.inr ⟨_, t₂, a, rfl, .answered r hp, hf⟩)
  | emit o k ih =>
    obtain ⟨rfl, rfl⟩ | ⟨t', rfl, hk⟩ := runs_emit.1 h
    · exact .inl ⟨.emit o k, .nil _, rfl, rfl⟩
    · obtain ⟨p', hp, hlive, rfl⟩ | ⟨e, hp, rfl⟩ | ⟨t₁, t₂, a, rfl, hp, hf⟩ := ih hk
      · exact .inl ⟨p', .emitted hp, hlive, rfl⟩
      · exact .inr (.inl ⟨e, .emitted hp, rfl⟩)
      · exact .inr (.inr ⟨_, t₂, a, rfl, .emitted hp, hf⟩)

theorem pending_bind {p : Prog Call Answer ε ω α} {f : α → Prog Call Answer ε ω β}
    (h : p.finished = false) : (p >>= f).pending = p.pending := by
  cases p with
  | ret a => cases h
  | throw e => cases h
  | call c k => rfl
  | emit o k => rfl

@[simp] theorem callsMade_nil (p : Prog Call Answer ε ω α) :
    callsMade [] p = p.pending.toList := rfl

@[simp] theorem callsMade_answered (c : Call) (r : Except ε (Answer c))
    (t : List (Event Call Answer ε ω)) (p : Prog Call Answer ε ω α) :
    callsMade (.answered c r :: t) p = c :: callsMade t p := rfl

@[simp] theorem callsMade_emitted (o : ω) (t : List (Event Call Answer ε ω))
    (p : Prog Call Answer ε ω α) : callsMade (.emitted o :: t) p = callsMade t p := rfl

theorem mem_callsMade {c : Call} {r : Except ε (Answer c)} {t : List (Event Call Answer ε ω)}
    (h : .answered c r ∈ t) (p : Prog Call Answer ε ω α) : c ∈ callsMade t p :=
  List.mem_append_left _ (List.mem_filterMap.2 ⟨_, h, rfl⟩)

theorem callsMade_append (t₁ t₂ : List (Event Call Answer ε ω)) (p : Prog Call Answer ε ω α) :
    callsMade (t₁ ++ t₂) p = answeredCalls t₁ ++ callsMade t₂ p := by
  simp [callsMade, answeredCalls, List.filterMap_append]

theorem callsMade_bind {p : Prog Call Answer ε ω α} {f : α → Prog Call Answer ε ω β}
    (h : p.finished = false) (t : List (Event Call Answer ε ω)) :
    callsMade t (p >>= f) = callsMade t p := by
  rw [callsMade, callsMade, pending_bind h]

theorem finished_bind {p : Prog Call Answer ε ω α} {f : α → Prog Call Answer ε ω β}
    (h : p.finished = false) : (p >>= f).finished = false := by
  cases p with
  | ret a => cases h
  | throw e => cases h
  | call c k => rfl
  | emit o k => rfl

/-! ## Programs that make only certain calls -/

/-- Every call of the program is one of `P`, whatever its calls answer. -/
def CallsIn (P : Call → Prop) : Prog Call Answer ε ω α → Prop
  | .ret _ | .throw _ => True
  | .call c k => P c ∧ ∀ r, CallsIn P (k r)
  | .emit _ k => CallsIn P k

theorem CallsIn.bind {P : Call → Prop} {p : Prog Call Answer ε ω α}
    {f : α → Prog Call Answer ε ω β} (hp : p.CallsIn P) (hf : ∀ a, (f a).CallsIn P) :
    (p >>= f).CallsIn P := by
  induction p with
  | ret a => exact hf a
  | throw e => trivial
  | call c k ih => exact ⟨hp.1, fun r => ih r (hp.2 r)⟩
  | emit o k ih => exact ih hp

theorem CallsIn.callsMade {P : Call → Prop} {p q : Prog Call Answer ε ω α}
    {t : List (Event Call Answer ε ω)} (hp : p.CallsIn P) (h : Runs p t q) :
    ∀ c ∈ callsMade t q, P c := by
  induction h with
  | nil q =>
    intro c hc
    cases q with
    | call c' k =>
      cases List.mem_singleton.1 hc
      exact hp.1
    | ret a => cases hc
    | throw e => cases hc
    | emit o k => cases hc
  | answered r _ ih =>
    intro c hc
    obtain hhead | htail := List.mem_cons.1 hc
    · rw [hhead]
      exact hp.1
    · exact ih (hp.2 r) c htail
  | emitted _ ih => exact ih hp

theorem callsIn_ofExcept {P : Call → Prop} (r : Except ε α) :
    (Prog.ofExcept r : Prog Call Answer ε ω α).CallsIn P := by
  cases r <;> trivial

/-! ## Programs that do not throw -/

/-- No answers that `H` allows make the program throw. -/
def SafeUnder (H : ∀ c, Except ε (Answer c) → Prop) : Prog Call Answer ε ω α → Prop
  | .ret _ => True
  | .throw _ => False
  | .call c k => ∀ r, H c r → SafeUnder H (k r)
  | .emit _ k => SafeUnder H k

variable {H : ∀ c, Except ε (Answer c) → Prop}

theorem SafeUnder.bind {p : Prog Call Answer ε ω α} {f : α → Prog Call Answer ε ω β}
    (hp : p.SafeUnder H) (hf : ∀ a, (f a).SafeUnder H) : (p >>= f).SafeUnder H := by
  induction p with
  | ret a => exact hf a
  | throw e => exact hp.elim
  | call c k ih => exact fun r hr => ih r (hp r hr)
  | emit o k ih => exact ih hp

theorem SafeUnder.step {p q : Prog Call Answer ε ω α} {env : ∀ c, Except ε (Answer c)}
    {e : Event Call Answer ε ω} (hp : p.SafeUnder H) (hstep : p.step env = some (e, q))
    (henv : ∀ c, p.pending = some c → H c (env c)) : q.SafeUnder H := by
  cases p with
  | ret a => cases hstep
  | throw a => cases hstep
  | call c k =>
    cases hstep
    exact hp _ (henv c rfl)
  | emit o k =>
    cases hstep
    exact hp

end Prog

end TheokitGateways.Async
