import Mathlib.Algebra.Group.Nat.Defs
import Mathlib.Data.List.Induction

/-!
# Numbers as big-endian bytes

`toBe w n` writes the last `w` bytes of a number, `ofBe` reads any byte string
as a number. Reading what was written gives the number modulo the width.
-/

namespace BigEndian

/-- The last `w` bytes of `n`, the most significant one first. -/
def toBe : Nat → Nat → List UInt8
  | 0, _ => []
  | w + 1, n => toBe w (n / 256) ++ [UInt8.ofNat n]

/-- The number that a byte string denotes. -/
def ofBe (bytes : List UInt8) : Nat := bytes.foldl (fun n byte => n * 256 + byte.toNat) 0

@[simp, grind =] theorem length_toBe (w n : Nat) : (toBe w n).length = w := by
  induction w generalizing n with
  | zero => rfl
  | succ w ih => simp [toBe, ih]

/-- The most significant byte stands first. -/
theorem toBe_succ_cons (w n : Nat) :
    toBe (w + 1) n = UInt8.ofNat (n / 256 ^ w) :: toBe w n := by
  induction w generalizing n with
  | zero => simp [toBe]
  | succ w ih =>
      rw [toBe, ih (n / 256), toBe, Nat.div_div_eq_div_mul, List.cons_append, Nat.pow_succ,
        Nat.mul_comm (256 ^ w) 256]

@[simp] theorem ofBe_concat (bytes : List UInt8) (byte : UInt8) :
    ofBe (bytes ++ [byte]) = ofBe bytes * 256 + byte.toNat := by
  simp [ofBe]

/-- Reading on from a number that was read before. -/
theorem foldl_ofBe (bytes : List UInt8) (start : Nat) :
    bytes.foldl (fun n byte => n * 256 + byte.toNat) start =
      start * 256 ^ bytes.length + ofBe bytes := by
  induction bytes using List.reverseRecOn with
  | nil => simp [ofBe]
  | append_singleton bytes byte ih =>
      rw [List.foldl_append, ih, ofBe_concat, List.length_append, List.length_singleton,
        Nat.pow_succ]
      show (start * 256 ^ bytes.length + ofBe bytes) * 256 + byte.toNat = _
      rw [Nat.add_mul, Nat.mul_assoc, Nat.add_assoc]

theorem ofBe_lt (bytes : List UInt8) : ofBe bytes < 256 ^ bytes.length := by
  induction bytes using List.reverseRecOn with
  | nil => simp [ofBe]
  | append_singleton bytes byte ih =>
      have small := byte.toNat_lt
      rw [ofBe_concat, List.length_append, List.length_singleton, Nat.pow_succ]
      omega

/-- Only the last bytes of a number are written. -/
theorem toBe_add_mul (w n high : Nat) : toBe w (high * 256 ^ w + n) = toBe w n := by
  induction w generalizing n with
  | zero => rfl
  | succ w ih =>
      have shifted : (high * 256 ^ (w + 1) + n) / 256 = high * 256 ^ w + n / 256 := by
        rw [Nat.pow_succ, ← Nat.mul_assoc, Nat.add_comm, Nat.add_mul_div_right _ _ (by decide),
          Nat.add_comm]
      have last : UInt8.ofNat (high * 256 ^ (w + 1) + n) = UInt8.ofNat n := by
        apply UInt8.toNat_inj.mp
        rw [UInt8.toNat_ofNat', UInt8.toNat_ofNat', Nat.pow_succ, ← Nat.mul_assoc, Nat.add_comm]
        exact Nat.add_mul_mod_self_right _ _ _
      rw [toBe, toBe, shifted, ih, last]

/-- A number that was read is written with the same bytes. -/
@[simp, grind =] theorem toBe_ofBe (bytes : List UInt8) :
    toBe bytes.length (ofBe bytes) = bytes := by
  induction bytes using List.reverseRecOn with
  | nil => rfl
  | append_singleton bytes byte ih =>
      have small := byte.toNat_lt
      have front : (ofBe bytes * 256 + byte.toNat) / 256 = ofBe bytes := by omega
      have last : UInt8.ofNat (ofBe bytes * 256 + byte.toNat) = byte := by
        apply UInt8.toNat_inj.mp
        rw [UInt8.toNat_ofNat']
        omega
      rw [List.length_append, List.length_singleton, toBe, ofBe_concat, front, ih, last]

/-- What was written is read back, as far as the width goes. -/
@[simp, grind =] theorem ofBe_toBe (w n : Nat) : ofBe (toBe w n) = n % 256 ^ w := by
  induction w generalizing n with
  | zero => simp [toBe, ofBe, Nat.mod_one]
  | succ w ih =>
      have last : (UInt8.ofNat n).toNat = n % 256 := UInt8.toNat_ofNat'
      rw [toBe, ofBe_concat, ih, last, Nat.pow_succ, Nat.mul_comm (256 ^ w) 256, Nat.mod_mul]
      omega

theorem ofBe_toBe_of_lt {w n : Nat} (fits : n < 256 ^ w) : ofBe (toBe w n) = n := by
  rw [ofBe_toBe, Nat.mod_eq_of_lt fits]

end BigEndian
