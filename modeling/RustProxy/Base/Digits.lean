import Mathlib.Data.Nat.Digits.Defs

/-!
# Reading a printed number back

`Nat.toDigits` prints a number in a base. A reader that gives every digit its
value gets the number back, whatever else it accepts; the digits hold no zero
in front, and there are as many of them as the size of the number asks for.
-/

namespace Digits

variable {base n : Nat}

/-- Printed digits are the characters of digits below the base. -/
theorem exists_digit (large : 1 < base) {c : Char} (mem : c ∈ Nat.toDigits base n) :
    ∃ d < base, c = Nat.digitChar d := by
  induction n using Nat.strongRecOn with
  | ind n ih =>
      rw [Nat.toDigits_eq_if large] at mem
      split at mem
      · rename_i small
        exact ⟨n, small, List.mem_singleton.mp mem⟩
      · rename_i long
        rcases List.mem_append.mp mem with front | last
        · exact ih (n / base) (Nat.div_lt_self (by omega) large) front
        · exact ⟨n % base, Nat.mod_lt _ (by omega), List.mem_singleton.mp last⟩

/-- The value of the digits, by any reader that knows each of them. -/
theorem foldl_toDigits (large : 1 < base) {value : Char → Nat}
    (reads : ∀ d < base, value (Nat.digitChar d) = d) :
    (Nat.toDigits base n).foldl (fun m c => m * base + value c) 0 = n := by
  induction n using Nat.strongRecOn with
  | ind n ih =>
      rw [Nat.toDigits_eq_if large]
      split
      · rename_i small
        simp [reads n small]
      · rename_i long
        have shorter : n / base < n := Nat.div_lt_self (by omega) large
        rw [List.foldl_append, ih _ shorter, List.foldl_cons, List.foldl_nil,
          reads _ (Nat.mod_lt _ (by omega)), Nat.mul_comm]
        exact Nat.div_add_mod n base

/-- Only zero is printed with a zero in front. -/
theorem eq_zero_of_head (large : 1 < base)
    (zero : (Nat.toDigits base n).head? = some '0') : n = 0 := by
  induction n using Nat.strongRecOn with
  | ind n ih =>
      rw [Nat.toDigits_eq_if large] at zero
      split at zero
      · rename_i small
        exact Nat.digitChar_eq_zero.mp (Option.some.inj zero)
      · rename_i long
        have shorter : n / base < n := Nat.div_lt_self (by omega) large
        have front : (Nat.toDigits base (n / base)).head? = some '0' := by
          obtain ⟨c, rest, printed⟩ :=
            List.exists_cons_of_ne_nil (Nat.toDigits_ne_nil (n := n / base) (b := base))
          rw [printed] at zero ⊢
          exact zero
        have := (Nat.div_eq_zero_iff_lt (by omega)).mp (ih _ shorter front)
        omega

end Digits
