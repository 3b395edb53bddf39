import Mathlib.Data.Nat.Bitwise

/-!
# Sizes in a machine word

Byte counts and offsets as a program computes them: natural numbers below `2 ^ w` for a word of `w`
bits, with the checked and the saturating operations, and rounding up to a power of two with a bit
mask. Where the exact result fits into the word, every operation gives it.
-/

namespace EasyNetDaemon.Library.MachineSizes

/-- `checked_add`. -/
def checkedAdd (w a b : Nat) : Option Nat := if a + b < 2 ^ w then some (a + b) else none

/-- `checked_mul`. -/
def checkedMul (w a b : Nat) : Option Nat := if a * b < 2 ^ w then some (a * b) else none

/-- `saturating_mul`. -/
def saturatingMul (w a b : Nat) : Nat := min (a * b) (2 ^ w - 1)

/-- The complement of a word. -/
def complement (w x : Nat) : Nat := 2 ^ w - 1 - x

/-- Rounding up to a multiple of a power of two: add `alignment - 1` and clear the low bits. -/
def alignUp (w value alignment : Nat) : Option Nat :=
  (checkedAdd w value (alignment - 1)).map fun sum => sum &&& complement w (alignment - 1)

theorem checkedAdd_eq {w a b : Nat} (h : a + b < 2 ^ w) :
    checkedAdd w a b = some (a + b) := if_pos h

theorem checkedMul_eq {w a b : Nat} (h : a * b < 2 ^ w) :
    checkedMul w a b = some (a * b) := if_pos h

theorem saturatingMul_eq {w a b : Nat} (h : a * b < 2 ^ w) : saturatingMul w a b = a * b :=
  Nat.min_eq_left (Nat.le_sub_one_of_lt h)

/-- Clearing the low `k` bits rounds down to a multiple of `2 ^ k`. -/
theorem land_complement {w k x : Nat} (hk : k ≤ w) (hx : x < 2 ^ w) :
    x &&& complement w (2 ^ k - 1) = x / 2 ^ k * 2 ^ k := by
  apply Nat.eq_of_testBit_eq
  intro i
  have hmask : complement w (2 ^ k - 1) = 2 ^ w - (2 ^ k - 1 + 1) := by
    rw [complement, Nat.sub_sub, Nat.add_comm 1]
  have hlow : 2 ^ k - 1 < 2 ^ w :=
    Nat.lt_of_lt_of_le (Nat.sub_lt (Nat.two_pow_pos k) Nat.one_pos)
      (Nat.pow_le_pow_right Nat.two_pos hk)
  rw [Nat.testBit_and, hmask, Nat.testBit_two_pow_sub_succ hlow, Nat.testBit_two_pow_sub_one,
    ← Nat.shiftRight_eq_div_pow, ← Nat.shiftLeft_eq, Nat.testBit_shiftLeft, Nat.testBit_shiftRight]
  by_cases hi : k ≤ i
  · -- a bit of the result: the same as in `x`, which has no bit beyond the word
    have hback : k + (i - k) = i := Nat.add_sub_cancel' hi
    by_cases hw : i < w
    · simp [hi, hw, hback, Nat.not_lt.2 hi]
    · have hzero : x.testBit i = false :=
        Nat.testBit_lt_two_pow (Nat.lt_of_lt_of_le hx
          (Nat.pow_le_pow_right Nat.two_pos (Nat.le_of_not_lt hw)))
      simp [hback, hzero]
  · simp [hi, Nat.lt_of_not_le hi]

theorem alignUp_eq {w k value : Nat} (hk : k ≤ w) (h : value + (2 ^ k - 1) < 2 ^ w) :
    alignUp w value (2 ^ k) = some ((value + (2 ^ k - 1)) / 2 ^ k * 2 ^ k) := by
  rw [alignUp, checkedAdd_eq h, Option.map_some, land_complement hk h]

/-- The rounded value is the next multiple. -/
theorem rounded_bounds (value : Nat) {alignment : Nat} (h : 0 < alignment) :
    value ≤ (value + (alignment - 1)) / alignment * alignment ∧
      (value + (alignment - 1)) / alignment * alignment ≤ value + (alignment - 1) := by
  have hdiv := Nat.div_add_mod (value + (alignment - 1)) alignment
  have hmod := Nat.mod_lt (value + (alignment - 1)) h
  rw [Nat.mul_comm alignment] at hdiv
  omega

end EasyNetDaemon.Library.MachineSizes
