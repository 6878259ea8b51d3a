import Mathlib.Data.List.Rotate

/-!
# Circular buffers

A circular buffer is an array read from `start` on, `n` entries long, wrapping
round at its end. Entries are taken from the front in runs that end at the end
of the array, and added behind the last one in runs that end at `start` or at
the end of the array; both are what `contents` needs to lose its first entries
or to gain new last ones.
-/

namespace Ring

variable {α : Type*}

/-- The `n` entries from `start` on. -/
def contents (buf : List α) (start n : Nat) : List α := (buf.rotate start).take n

/-- Write `entries` into the array from `at_` on. -/
def overwrite (buf : List α) (at_ : Nat) (entries : List α) : List α :=
  buf.take at_ ++ entries ++ buf.drop (at_ + entries.length)

/-- The end of the free run that starts at `unused`. -/
def freeEnd (start unused size : Nat) : Nat := if unused < start then start else size

variable {buf entries : List α} {start n k size : Nat}

theorem contents_eq (h : start < buf.length) :
    contents buf start n = (buf.drop start ++ buf.take start).take n := by
  rw [contents, List.rotate_eq_drop_append_take h.le]

@[simp] theorem contents_zero : contents buf start 0 = [] := by simp [contents]

theorem length_overwrite (h : k + entries.length ≤ buf.length) :
    (overwrite buf k entries).length = buf.length := by
  simp [overwrite]
  omega

/-- Dropping entries from the front moves `start` round. -/
theorem contents_advance (hn : n ≤ buf.length) (hk : k ≤ n) :
    contents buf ((start + k) % buf.length) (n - k) = (contents buf start n).drop k := by
  have turned : (buf.rotate start).length = buf.length := List.length_rotate ..
  rw [contents, List.rotate_mod, ← List.rotate_rotate,
    List.rotate_eq_drop_append_take (by omega), contents, List.drop_take,
    List.take_append_of_le_length (by rw [List.length_drop]; omega)]

/-- A run that does not pass the end of the array reads the first entries. -/
theorem take_drop_eq_take_contents (h : start < buf.length) (hk : k ≤ n)
    (run : start + k ≤ buf.length) :
    (buf.drop start).take k = (contents buf start n).take k := by
  rw [contents_eq h, List.take_take, Nat.min_eq_left hk,
    List.take_append_of_le_length (by rw [List.length_drop]; omega)]

theorem take_overwrite (h : k ≤ buf.length) :
    (overwrite buf k entries).take (k + entries.length) = buf.take k ++ entries := by
  have written : (buf.take k ++ entries).length = k + entries.length := by
    simp [h]
  rw [overwrite, List.take_append_of_le_length written.ge, ← written, List.take_length]

theorem drop_overwrite {j : Nat} (h : k + entries.length ≤ j) (fits : k ≤ buf.length) :
    (overwrite buf k entries).drop j = buf.drop j := by
  have written : (buf.take k ++ entries).length = k + entries.length := by
    simp [fits]
  rw [overwrite, List.drop_append, List.drop_eq_nil_of_le (by omega), written, List.drop_drop,
    List.nil_append]
  congr 1
  omega

/-- Entries that do not reach the end of the array end before the free run. -/
theorem contents_overwrite_before (h : start < buf.length)
    (fits : start + n + entries.length ≤ buf.length) :
    contents (overwrite buf (start + n) entries) start (n + entries.length) =
      contents buf start n ++ entries := by
  have size : (overwrite buf (start + n) entries).length = buf.length := length_overwrite fits
  rw [contents_eq (by omega), contents_eq h,
    List.take_append_of_le_length (by rw [List.length_drop]; omega),
    List.take_append_of_le_length (by rw [List.length_drop]; omega), List.take_drop,
    ← Nat.add_assoc, take_overwrite (by omega),
    List.drop_append_of_le_length (by rw [List.length_take]; omega), List.take_drop]

/-- Entries that wrap round end in front of `start`, and so does the free run. -/
theorem contents_overwrite_wrapped (h : start < buf.length) (wraps : buf.length ≤ start + n)
    (fits : start + n - buf.length + entries.length ≤ start) :
    contents (overwrite buf (start + n - buf.length) entries) start (n + entries.length) =
      contents buf start n ++ entries := by
  have size : (overwrite buf (start + n - buf.length) entries).length = buf.length :=
    length_overwrite (by omega)
  have whole (m : Nat) (l : List α) (hm : buf.length - start ≤ m) :
      (buf.drop start ++ l).take m = buf.drop start ++ l.take (m - (buf.length - start)) := by
    rw [List.take_append, List.take_of_length_le (by rw [List.length_drop]; omega),
      List.length_drop]
  rw [contents_eq (by omega), contents_eq h, drop_overwrite fits (by omega),
    whole _ _ (by omega), whole _ _ (by omega), List.take_take, List.take_take,
    show n + entries.length - (buf.length - start) =
      start + n - buf.length + entries.length by omega,
    show n - (buf.length - start) = start + n - buf.length by omega, Nat.min_eq_left fits,
    Nat.min_eq_left (by omega), take_overwrite (by omega), List.append_assoc]

/-- Writing into the free run behind the last entry appends to the contents. -/
theorem contents_overwrite (h : start < buf.length) (hn : n < buf.length)
    (fits : (start + n) % buf.length + entries.length ≤
      freeEnd start ((start + n) % buf.length) buf.length) :
    contents (overwrite buf ((start + n) % buf.length) entries) start (n + entries.length) =
      contents buf start n ++ entries := by
  by_cases wraps : start + n < buf.length
  · rw [Nat.mod_eq_of_lt wraps] at fits ⊢
    rw [freeEnd, if_neg (by omega)] at fits
    exact contents_overwrite_before h fits
  · have round : (start + n) % buf.length = start + n - buf.length := by
      rw [Nat.mod_eq_sub_mod (by omega), Nat.mod_eq_of_lt (by omega)]
    rw [round] at fits ⊢
    rw [freeEnd, if_pos (by omega)] at fits
    exact contents_overwrite_wrapped h (by omega) fits

/-- The free run has room. -/
theorem lt_freeEnd (h : 0 < size) :
    (start + n) % size < freeEnd start ((start + n) % size) size := by
  have inside : (start + n) % size < size := Nat.mod_lt _ h
  unfold freeEnd
  split <;> omega

theorem freeEnd_le (h : start ≤ size) : freeEnd start k size ≤ size := by
  unfold freeEnd
  split <;> omega

/-- The free run lies outside the entries. -/
theorem add_freeEnd_le (h : start < size) (hn : n < size) :
    n + (freeEnd start ((start + n) % size) size - (start + n) % size) ≤ size := by
  by_cases wraps : start + n < size
  · rw [Nat.mod_eq_of_lt wraps, freeEnd, if_neg (by omega)]
    omega
  · have round : (start + n) % size = start + n - size := by
      rw [Nat.mod_eq_sub_mod (by omega), Nat.mod_eq_of_lt (by omega)]
    rw [round, freeEnd, if_pos (by omega)]
    omega

end Ring
