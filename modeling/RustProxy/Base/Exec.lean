import Mathlib.Data.List.Basic

/-!
# Polled computations and their contracts

A poll answers `pending` or `ready`. The code of a poll is a computation over a
state that may also panic, and whose loops need not end: `Exec.loop` runs a
body on fuel, and a computation out of fuel is `running`, with the state it has
reached by then.

`Meets` is the contract of a computation from one state: it does not panic, a
value it returns satisfies `post`, and a state in which it is still running
satisfies `safe`. A contract proved for all amounts of fuel therefore speaks
about every moment of a poll, whether the poll ends or not.
-/

/-- The answer of a poll. -/
inductive Poll (α : Type*) where
  | pending
  | ready (value : α)
  deriving DecidableEq, Repr

/-- How far a computation has come. -/
inductive Outcome (α : Type*) where
  | returned (value : α)
  | running
  | panicked
  deriving DecidableEq, Repr

/-- A computation over the state `σ`. -/
def Exec (σ α : Type*) : Type _ := σ → Outcome α × σ

namespace Exec

universe u v

variable {σ τ : Type u} {α β : Type v}

def pure (a : α) : Exec σ α := fun s => (.returned a, s)

def bind (x : Exec σ α) (f : α → Exec σ β) : Exec σ β := fun s =>
  match x s with
  | (.returned a, t) => f a t
  | (.running, t) => (.running, t)
  | (.panicked, t) => (.panicked, t)

instance : Monad (Exec σ) where
  pure := pure
  bind := bind

/-- Change the state. -/
def modify (f : σ → σ) : Exec σ PUnit := fun s => (.returned ⟨⟩, f s)

/-- Run `body` until it gives a value. -/
def loop (body : Exec σ (Option α)) : Nat → Exec σ α
  | 0 => fun s => (.running, s)
  | fuel + 1 => bind body fun
      | some a => pure a
      | none => loop body fuel

/-- Run a computation on a part of the state. -/
def zoom (get : σ → τ) (set : τ → σ → σ) (x : Exec τ α) : Exec σ α := fun s =>
  ((x (get s)).1, set (x (get s)).2 s)

/-- The contract of `x` from `s`. -/
def Meets (x : Exec σ α) (s : σ) (safe : σ → Prop) (post : α → σ → Prop) : Prop :=
  match x s with
  | (.returned a, t) => post a t
  | (.running, t) => safe t
  | (.panicked, _) => False

variable {s : σ} {safe safe' : σ → Prop} {post post' : α → σ → Prop}

theorem meets_pure {a : α} (h : post a s) : Meets (Pure.pure a) s safe post := h

/-- A computation that returns meets what holds of its value and final state. -/
theorem Meets.of_returned {x : Exec σ α} {a : α} {t : σ} (ran : x s = (.returned a, t))
    (h : post a t) : x.Meets s safe post := by
  simpa only [Meets, ran] using h

theorem bind_of_returned {x : Exec σ α} {f : α → Exec σ β} {a : α} {t : σ}
    (ran : x s = (.returned a, t)) : (x >>= f) s = f a t := by
  show Exec.bind x f s = _
  simp only [Exec.bind, ran]

@[simp] theorem modify_bind (f : σ → σ) (g : PUnit → Exec σ β) (s : σ) :
    (modify f >>= g) s = g ⟨⟩ (f s) := rfl

theorem loop_of_none {body : Exec σ (Option α)} {t : σ} (ran : body s = (.returned none, t))
    (fuel : Nat) : loop body (fuel + 1) s = loop body fuel t := bind_of_returned ran

theorem loop_of_some {body : Exec σ (Option α)} {a : α} {t : σ}
    (ran : body s = (.returned (some a), t)) (fuel : Nat) :
    loop body (fuel + 1) s = (.returned a, t) := bind_of_returned ran

theorem Meets.mono {x : Exec σ α} (h : x.Meets s safe post) (weakerSafe : ∀ t, safe t → safe' t)
    (weaker : ∀ a t, post a t → post' a t) : x.Meets s safe' post' := by
  unfold Meets at h ⊢
  split at h
  · exact weaker _ _ h
  · exact weakerSafe _ h
  · exact h

theorem Meets.returned {x : Exec σ α} {a : α} (h : x.Meets s safe post)
    (ran : (x s).1 = .returned a) : post a (x s).2 := by
  unfold Meets at h
  split at h
  case h_1 done =>
    rw [done] at ran ⊢
    obtain rfl := Outcome.returned.inj ran
    exact h
  case h_2 done => simp [done] at ran
  case h_3 done => simp [done] at ran

/-- A computation that may not be found running returns. -/
theorem Meets.total {x : Exec σ α} (h : x.Meets s (fun _ => False) post) :
    ∃ a t, x s = (.returned a, t) ∧ post a t := by
  unfold Meets at h
  split at h
  case h_1 a t ran => exact ⟨a, t, ran, h⟩
  case h_2 => exact h.elim
  case h_3 => exact h.elim

/-- The value and the final state of a computation that returns. -/
def settled (x : Exec σ α) (s : σ) (returns : x.Meets s (fun _ => False) post) :
    { r : α × σ // x s = (.returned r.1, r.2) ∧ post r.1 r.2 } :=
  match ran : x s with
  | (.returned a, t) => ⟨(a, t), rfl, by simpa only [Meets, ran] using returns⟩
  | (.running, _) => absurd returns (by simp only [Meets, ran]; exact id)
  | (.panicked, _) => absurd returns (by simp only [Meets, ran]; exact id)

/-- A property of the state at every moment of a computation. -/
theorem Meets.always {x : Exec σ α} (h : x.Meets s safe fun _ => safe) :
    (x s).1 ≠ .panicked ∧ safe (x s).2 := by
  unfold Meets at h
  split at h
  case h_1 ran => exact ⟨by simp [ran], by simpa only [ran] using h⟩
  case h_2 ran => exact ⟨by simp [ran], by simpa only [ran] using h⟩
  case h_3 => exact h.elim

theorem Meets.bind {x : Exec σ α} {f : α → Exec σ β} {M : α → σ → Prop}
    {post : β → σ → Prop} (first : x.Meets s safe M)
    (second : ∀ a t, M a t → (f a).Meets t safe post) :
    Meets (x >>= f) s safe post := by
  show Meets (Exec.bind x f) s safe post
  unfold Meets at first
  split at first
  case h_1 ran => simpa only [Meets, Exec.bind, ran] using second _ _ first
  case h_2 ran => simpa only [Meets, Exec.bind, ran] using first
  case h_3 => exact first.elim

/-- The loop rule: the body keeps `invariant` when it goes on, and establishes
`post` when it ends. -/
theorem Meets.loop {body : Exec σ (Option α)} (invariant : σ → Prop)
    (round : ∀ s, invariant s → body.Meets s safe fun
      | some a => post a
      | none => invariant)
    (running : ∀ s, invariant s → safe s) (start : invariant s) (fuel : Nat) :
    (loop body fuel).Meets s safe post := by
  induction fuel generalizing s with
  | zero => exact running s start
  | succ fuel ih =>
      apply Meets.bind (round s start)
      intro ended t reached
      cases ended with
      | none => exact ih reached
      | some a => exact reached

/-- The loop rule for a body whose rounds make `variant` smaller as long as there
is progress: a loop with enough fuel returns, and need not be safe on the way. -/
theorem Meets.loop_variant {body : Exec σ (Option α)} (invariant : σ → Prop) (variant : σ → Nat)
    (progress : Prop)
    (round : ∀ s, invariant s → body.Meets s safe fun
      | some a => post a
      | none => fun t => invariant t ∧ (progress → variant t < variant s))
    (start : invariant s) {fuel : Nat}
    (enough : (∀ t, invariant t → safe t) ∨ progress ∧ variant s < fuel) :
    (Exec.loop body fuel).Meets s safe post := by
  induction fuel generalizing s with
  | zero =>
      rcases enough with safe | ⟨-, less⟩
      · exact safe s start
      · exact absurd less (Nat.not_lt_zero _)
  | succ fuel ih =>
      apply Meets.bind (round s start)
      intro ended t reached
      cases ended with
      | some a => exact reached
      | none =>
          refine ih reached.1 ?_
          rcases enough with safe | ⟨progress, less⟩
          · exact .inl safe
          · have smaller := reached.2 progress
            exact .inr ⟨progress, by omega⟩

theorem Meets.zoom {get : σ → τ} {set : τ → σ → σ} {x : Exec τ α}
    (h : x.Meets (get s) (fun t => safe (set t s)) fun a t => post a (set t s)) :
    (zoom get set x).Meets s safe post := by
  unfold Meets at h ⊢
  unfold Exec.zoom
  split at h
  case h_1 ran => simpa only [ran] using h
  case h_2 ran => simpa only [ran] using h
  case h_3 => exact h.elim

/-- However far `x` comes, it leaves a part of the state as it is. -/
def Leaves {γ : Type*} (x : Exec σ α) (part : σ → γ) : Prop := ∀ s, part (x s).2 = part s

section Leaves

variable {γ : Type*} {part : σ → γ}

theorem leaves_pure (a : α) : Leaves (Pure.pure a : Exec σ α) part := fun _ => rfl

theorem Leaves.bind {x : Exec σ α} {f : α → Exec σ β} (first : x.Leaves part)
    (second : ∀ a, (f a).Leaves part) : Leaves (x >>= f) part := by
  intro s
  show part (Exec.bind x f s).2 = part s
  have kept := first s
  unfold Exec.bind
  split
  case h_1 a t ran =>
    rw [ran] at kept
    exact (second a t).trans kept
  case h_2 ran =>
    rw [ran] at kept
    exact kept
  case h_3 ran =>
    rw [ran] at kept
    exact kept

theorem Leaves.loop {body : Exec σ (Option α)} (round : body.Leaves part) (fuel : Nat) :
    (loop body fuel).Leaves part := by
  induction fuel with
  | zero => exact fun _ => rfl
  | succ fuel ih =>
      refine Leaves.bind round fun ended => ?_
      cases ended with
      | none => exact ih
      | some a => exact leaves_pure a

end Leaves

end Exec
