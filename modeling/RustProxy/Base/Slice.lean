import RustProxy.Base.Ring

/-!
# Slices with their bounds checked

A slice from `start` to `stop` exists when the two are in order and within the
list. Code that takes slices is a computation in `Option`: out of range it does
not go on, which is a panic.
-/

namespace List

variable {α : Type*}

/-- The elements from `start` up to `stop`. -/
def slice (xs : List α) (start stop : Nat) : Option (List α) :=
  if start ≤ stop ∧ stop ≤ xs.length then some ((xs.drop start).take (stop - start)) else none

/-- The list with `ys` in the place of its elements from `start` up to `stop`. -/
def copyFromSlice (xs : List α) (start stop : Nat) (ys : List α) : Option (List α) :=
  if start ≤ stop ∧ stop ≤ xs.length ∧ stop = start + ys.length then
    some (Ring.overwrite xs start ys)
  else none

variable {xs ys done before middle after : List α} {start stop : Nat}

theorem slice_eq (order : start ≤ stop) (inside : stop ≤ xs.length) :
    xs.slice start stop = some ((xs.drop start).take (stop - start)) := if_pos ⟨order, inside⟩

/-- The part of a list between two others. -/
theorem slice_append (from_ : start = before.length) (till : stop = start + middle.length) :
    (before ++ (middle ++ after)).slice start stop = some middle := by
  subst from_ till
  rw [slice_eq (Nat.le_add_right _ _) (by simp), List.drop_left, Nat.add_sub_cancel_left,
    List.take_left]

/-- A slice that begins the list. -/
theorem slice_zero (inside : stop ≤ xs.length) : xs.slice 0 stop = some (xs.take stop) := by
  rw [slice_eq (Nat.zero_le _) inside, List.drop_zero, Nat.sub_zero]

/-- The slice that ends the list. -/
theorem slice_length (inside : start ≤ xs.length) :
    xs.slice start xs.length = some (xs.drop start) := by
  rw [slice_eq inside (Nat.le_refl _), ← List.length_drop, List.take_length]

/-- A list that is written from the front on. -/
theorem copyFromSlice_concat (begins : done <+: xs) (till : stop = start + ys.length)
    (from_ : start = done.length) (inside : stop ≤ xs.length) :
    ∃ zs, xs.copyFromSlice start stop ys = some zs ∧ zs.length = xs.length ∧ done ++ ys <+: zs := by
  subst from_ till
  refine ⟨Ring.overwrite xs done.length ys, ?_, Ring.length_overwrite inside, ?_⟩
  · exact if_pos ⟨Nat.le_add_right _ _, inside, rfl⟩
  · refine ⟨xs.drop (done.length + ys.length), ?_⟩
    rw [Ring.overwrite, List.prefix_iff_eq_take.mp begins, List.length_take,
      Nat.min_eq_left begins.length_le]

end List
