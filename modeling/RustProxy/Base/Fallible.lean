import Mathlib.Init

/-!
# Computations that may fail

A computation over a state returns a value or raises an error, and the state it
has reached by then stays in either case. `Returns` and `Raises` are its total
contracts: from every state with the precondition it ends so, in a state with
the postcondition.
-/

/-- A computation over the state `σ` that may raise an `ε`. -/
def Fallible (σ ε α : Type) : Type := σ → Except ε α × σ

namespace Fallible

variable {σ τ ε α β : Type}

def pure (a : α) : Fallible σ ε α := fun s => (.ok a, s)

def bind (x : Fallible σ ε α) (f : α → Fallible σ ε β) : Fallible σ ε β := fun s =>
  match x s with
  | (.ok a, t) => f a t
  | (.error e, t) => (.error e, t)

instance : Monad (Fallible σ ε) where
  pure := pure
  bind := bind

/-- A result that does not depend on the state. -/
def ofExcept (result : Except ε α) : Fallible σ ε α := fun s => (result, s)

/-- Look at the state. -/
def gets (f : σ → α) : Fallible σ ε α := fun s => (.ok (f s), s)

/-- Change the state. -/
def modify (f : σ → σ) : Fallible σ ε Unit := fun s => (.ok (), f s)

/-- From every state with `P` the computation returns `a` in a state with `Q`. -/
def Returns (x : Fallible σ ε α) (P : σ → Prop) (a : α) (Q : σ → Prop) : Prop :=
  ∀ s, P s → ∃ t, x s = (.ok a, t) ∧ Q t

/-- From every state with `P` the computation raises `e` in a state with `Q`. -/
def Raises (x : Fallible σ ε α) (P : σ → Prop) (e : ε) (Q : σ → Prop) : Prop :=
  ∀ s, P s → ∃ t, x s = (.error e, t) ∧ Q t

variable {P P' Q Q' R : σ → Prop} {x : Fallible σ ε α} {f : α → Fallible σ ε β} {a : α} {b : β}
  {e : ε} {s t : σ}

theorem bind_of_ok (ran : x s = (.ok a, t)) : (x >>= f) s = f a t := by
  show Fallible.bind x f s = _
  rw [Fallible.bind, ran]

@[simp] theorem ofExcept_bind (a : α) (s : σ) :
    ((ofExcept (.ok a) : Fallible σ ε α) >>= f) s = f a s := rfl

theorem bind_of_error (ran : x s = (.error e, t)) : (x >>= f) s = (.error e, t) := by
  show Fallible.bind x f s = _
  rw [Fallible.bind, ran]

/-- What returned has run both parts. -/
theorem of_bind_ok (ran : (x >>= f) s = (.ok b, t)) :
    ∃ a m, x s = (.ok a, m) ∧ f a m = (.ok b, t) := by
  generalize first : x s = result
  obtain ⟨answer, m⟩ := result
  cases answer with
  | ok a => exact ⟨a, m, rfl, (bind_of_ok first).symm.trans ran⟩
  | error e =>
      rw [bind_of_error first] at ran
      cases ran

theorem returns_pure (a : α) (P : σ → Prop) :
    Returns (Pure.pure a : Fallible σ ε α) P a P := by
  intro s holds
  exact ⟨s, rfl, holds⟩

theorem returns_modify {f : σ → σ} (h : ∀ s, P s → Q (f s)) :
    Returns (modify f : Fallible σ ε Unit) P () Q := by
  intro s holds
  exact ⟨f s, rfl, h s holds⟩

theorem Returns.consequence (h : Returns x P a Q) (pre : ∀ s, P' s → P s)
    (post : ∀ t, Q t → Q' t) : Returns x P' a Q' := by
  intro s holds
  obtain ⟨t, ran, reached⟩ := h s (pre s holds)
  exact ⟨t, ran, post t reached⟩

theorem Returns.bind (first : Returns x P a R) (second : Returns (f a) R b Q) :
    Returns (x >>= f) P b Q := by
  intro s holds
  obtain ⟨m, ran, between⟩ := first s holds
  obtain ⟨t, rest, reached⟩ := second m between
  exact ⟨t, (bind_of_ok ran).trans rest, reached⟩

theorem Raises.bind (first : Raises x P e Q) : Raises (x >>= f) P e Q := by
  intro s holds
  obtain ⟨t, ran, reached⟩ := first s holds
  exact ⟨t, bind_of_error ran, reached⟩

theorem Returns.bind_raises (first : Returns x P a R) (second : Raises (f a) R e Q) :
    Raises (x >>= f) P e Q := by
  intro s holds
  obtain ⟨m, ran, between⟩ := first s holds
  obtain ⟨t, rest, reached⟩ := second m between
  exact ⟨t, (bind_of_ok ran).trans rest, reached⟩

end Fallible
