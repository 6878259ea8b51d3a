import Mathlib.Data.List.Basic

/-!
# Permits of a counting semaphore

A semaphore starts with a number of permits; who acquires one holds it until it
is released. Where there is no semaphore nobody is ever kept waiting. `Balanced`
ties what is left to what is held: permits are neither lost nor made, so as many
are held at once as there were at most, and someone who is kept waiting waits
for all of them to be held.
-/

namespace Permits

/-- Take one of the permits that are left, unless there is no limit. `none` is
to wait. -/
def acquire : Option Nat → Option (Option Nat)
  | none => some none
  | some 0 => none
  | some (left + 1) => some (some left)

def release (left : Option Nat) : Option Nat := left.map (· + 1)

/-- What is left and what is held are all there ever were. -/
def Balanced (limit left : Option Nat) (held : Nat) : Prop := limit = left.map (· + held)

variable {limit left left' : Option Nat} {held : Nat}

theorem balanced_new (limit : Option Nat) : Balanced limit limit 0 := by
  cases limit <;> rfl

theorem Balanced.acquire (h : Balanced limit left held) (got : acquire left = some left') :
    Balanced limit left' (held + 1) := by
  cases left with
  | none =>
      cases got
      exact h
  | some n =>
      cases n with
      | zero => cases got
      | succ n =>
          cases got
          have sum : limit = some (n + 1 + held) := h
          show limit = some (n + (held + 1))
          rw [sum]
          congr 1
          omega

theorem Balanced.release (h : Balanced limit left (held + 1)) :
    Balanced limit (release left) held := by
  cases left with
  | none => exact h
  | some n =>
      have sum : limit = some (n + (held + 1)) := h
      show limit = some (n + 1 + held)
      rw [sum]
      congr 1
      omega

theorem Balanced.held_le (h : Balanced limit left held) {n : Nat} (limited : limit = some n) :
    held ≤ n := by
  rw [Balanced, limited] at h
  cases left with
  | none => cases h
  | some m =>
      have sum : n = m + held := Option.some.inj h
      omega

/-- Who waits, waits for all the permits to be held. -/
theorem Balanced.acquire_eq_none_iff (h : Balanced limit left held) :
    Permits.acquire left = none ↔ limit = some held := by
  rw [Balanced] at h
  rw [h]
  cases left with
  | none => simp [Permits.acquire]
  | some n => cases n <;> simp [Permits.acquire]

/-- When nobody holds a permit, all of them are back. -/
theorem Balanced.eq_of_none_held (h : Balanced limit left 0) : left = limit := by
  rw [Balanced] at h
  rw [h]
  cases left <;> rfl

section Holders

variable {σ : Type*} {holds : σ → Bool} {holders : List σ} {i : Nat} {x y : σ}

/-- A holder goes on without giving its permit away. -/
theorem countP_set_of_eq (found : holders[i]? = some x) (same : holds y = holds x) :
    (holders.set i y).countP holds = holders.countP holds := by
  obtain ⟨inside, rfl⟩ := List.getElem?_eq_some_iff.mp found
  rw [List.countP_set inside, same]
  have most := List.countP_pos_iff (p := holds) (l := holders)
  split
  · rename_i holding
    have := most.mpr ⟨_, List.getElem_mem inside, holding⟩
    omega
  · omega

/-- A holder gives its permit away. -/
theorem countP_set_of_holds (found : holders[i]? = some x) (holding : holds x = true)
    (gone : holds y = false) :
    (holders.set i y).countP holds + 1 = holders.countP holds := by
  obtain ⟨inside, rfl⟩ := List.getElem?_eq_some_iff.mp found
  have some_ := (List.countP_pos_iff (p := holds)).mpr ⟨_, List.getElem_mem inside, holding⟩
  rw [List.countP_set inside, if_pos holding, gone]
  simp only [Bool.false_eq_true, if_false]
  omega

end Holders

end Permits
