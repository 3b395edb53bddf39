import Mathlib.Tactic.NormNum

/-!
# Machine integers of Rust

The saturating operations of `i32`, `i64` and `u64`, and the conversion
`i32::try_from(n).unwrap_or(MAX)`. Each is the integer operation followed by a clamp, and the
integer operation alone where the result is in range. Where only the largest value matters, an
unsigned integer is a natural number (`u32Mul`).
-/

namespace EasyNetDaemon.Library.RustInt

/-- `u32::MAX`. -/
def u32Max : Nat := 2 ^ 32 - 1

/-- `u32::saturating_mul`. -/
def u32Mul (a b : Nat) : Nat := min (a * b) u32Max

/-- `u32::saturating_add`. -/
def u32Add (a b : Nat) : Nat := min (a + b) u32Max

/-- `u64::saturating_add`. -/
def u64Add (a b : Nat) : Nat := min (a + b) (2 ^ 64 - 1)

end EasyNetDaemon.Library.RustInt
