import Mathlib.Data.List.GetD
import Mathlib.Data.List.Induction
import Mathlib.Tactic.Ring

/-!
# Big-endian bytes

`beBytes w n` writes a number into `w` bytes, the most significant one first, and `ofBeBytes` reads
any byte string as a number. Between the numbers below `256 ^ w` and the strings of `w` bytes the
two are inverse to each other. `u16Bytes`, `u32Bytes` and `u64Bytes` are `to_be_bytes` at three
machine widths. `slice bytes i j` is the range `bytes[i..j]` of a fixed layout.
-/

namespace EasyNetDaemon.Library

/-- What is checked for the 256 bytes holds of every byte. -/
@[elab_as_elim]
theorem forall_byte {motive : UInt8 → Prop} (h : ∀ n : Fin 256, motive (UInt8.ofNat n))
    (b : UInt8) : motive b := by
  have hb := h ⟨b.toNat, b.toNat_lt⟩
  rwa [UInt8.ofNat_toNat] at hb

/-- The last `w` bytes of a number, the most significant one first. -/
def beBytes : Nat → Nat → List UInt8
  | 0, _ => []
  | w + 1, n => beBytes w (n / 256) ++ [UInt8.ofNat n]

/-- The number a byte string stands for. -/
def ofBeBytes (bytes : List UInt8) : Nat :=
  bytes.foldl (fun n b => 256 * n + b.toNat) 0

@[simp] theorem length_beBytes (w n : Nat) : (beBytes w n).length = w := by
  induction w generalizing n with
  | zero => rfl
  | succ w ih => simp [beBytes, ih]

theorem ofBeBytes_concat (bytes : List UInt8) (b : UInt8) :
    ofBeBytes (bytes ++ [b]) = 256 * ofBeBytes bytes + b.toNat := by
  simp [ofBeBytes]

theorem ofBeBytes_beBytes {w n : Nat} (h : n < 256 ^ w) : ofBeBytes (beBytes w n) = n := by
  induction w generalizing n with
  | zero =>
    have hn : n = 0 := by simpa using h
    subst hn
    rfl
  | succ w ih =>
    have hdiv : n / 256 < 256 ^ w := by
      rw [Nat.div_lt_iff_lt_mul (by decide), ← pow_succ]
      exact h
    rw [beBytes, ofBeBytes_concat, ih hdiv, UInt8.toNat_ofNat']
    exact Nat.div_add_mod n 256

theorem ofBeBytes_lt (bytes : List UInt8) : ofBeBytes bytes < 256 ^ bytes.length := by
  induction bytes using List.reverseRecOn with
  | nil => decide
  | append_singleton bytes b ih =>
    have hb : b.toNat < 256 := b.toNat_lt
    rw [ofBeBytes_concat, List.length_append, List.length_singleton, pow_succ]
    omega

theorem beBytes_ofBeBytes (bytes : List UInt8) :
    beBytes bytes.length (ofBeBytes bytes) = bytes := by
  induction bytes using List.reverseRecOn with
  | nil => rfl
  | append_singleton bytes b ih =>
    have hb : b.toNat < 256 := b.toNat_lt
    have hdiv : (256 * ofBeBytes bytes + b.toNat) / 256 = ofBeBytes bytes := by omega
    have hmod : UInt8.ofNat (256 * ofBeBytes bytes + b.toNat) = b := by
      apply UInt8.toNat_inj.1
      rw [UInt8.toNat_ofNat']
      omega
    rw [ofBeBytes_concat, List.length_append, List.length_singleton, beBytes, hdiv, hmod, ih]

/-! ## Machine widths -/

/-- `u16::to_be_bytes`. -/
def u16Bytes (n : UInt16) : List UInt8 := beBytes 2 n.toNat

/-- `u16::from_be_bytes`. -/
def u16OfBytes (bytes : List UInt8) : UInt16 := .ofNat (ofBeBytes bytes)

/-- `u32::to_be_bytes`. -/
def u32Bytes (n : UInt32) : List UInt8 := beBytes 4 n.toNat

/-- `u32::from_be_bytes`. -/
def u32OfBytes (bytes : List UInt8) : UInt32 := .ofNat (ofBeBytes bytes)

/-- `u64::to_be_bytes`. -/
def u64Bytes (n : UInt64) : List UInt8 := beBytes 8 n.toNat

/-- `u64::from_be_bytes`. -/
def u64OfBytes (bytes : List UInt8) : UInt64 := .ofNat (ofBeBytes bytes)

@[simp] theorem length_u16Bytes (n : UInt16) : (u16Bytes n).length = 2 := length_beBytes 2 _

@[simp] theorem length_u32Bytes (n : UInt32) : (u32Bytes n).length = 4 := length_beBytes 4 _

@[simp] theorem length_u64Bytes (n : UInt64) : (u64Bytes n).length = 8 := length_beBytes 8 _

theorem u16Bytes_eq_cons (n : UInt16) : ∃ a b, u16Bytes n = [a, b] :=
  ⟨_, _, rfl⟩

theorem u32Bytes_eq_cons (n : UInt32) : ∃ a b c d, u32Bytes n = [a, b, c, d] :=
  ⟨_, _, _, _, rfl⟩

theorem u64Bytes_eq_cons (n : UInt64) : ∃ a b c d e f g h, u64Bytes n = [a, b, c, d, e, f, g, h] :=
  ⟨_, _, _, _, _, _, _, _, rfl⟩

@[simp] theorem u16OfBytes_u16Bytes (n : UInt16) : u16OfBytes (u16Bytes n) = n := by
  rw [u16OfBytes, u16Bytes, ofBeBytes_beBytes n.toNat_lt, UInt16.ofNat_toNat]

@[simp] theorem u32OfBytes_u32Bytes (n : UInt32) : u32OfBytes (u32Bytes n) = n := by
  rw [u32OfBytes, u32Bytes, ofBeBytes_beBytes n.toNat_lt, UInt32.ofNat_toNat]

@[simp] theorem u64OfBytes_u64Bytes (n : UInt64) : u64OfBytes (u64Bytes n) = n := by
  rw [u64OfBytes, u64Bytes, ofBeBytes_beBytes n.toNat_lt, UInt64.ofNat_toNat]

theorem u16Bytes_u16OfBytes {bytes : List UInt8} (h : bytes.length = 2) :
    u16Bytes (u16OfBytes bytes) = bytes := by
  have hlt : ofBeBytes bytes < 2 ^ 16 := by
    simpa [h] using ofBeBytes_lt bytes
  rw [u16Bytes, u16OfBytes, UInt16.toNat_ofNat_of_lt' hlt, ← h]
  exact beBytes_ofBeBytes bytes

theorem u32Bytes_u32OfBytes {bytes : List UInt8} (h : bytes.length = 4) :
    u32Bytes (u32OfBytes bytes) = bytes := by
  have hlt : ofBeBytes bytes < 2 ^ 32 := by
    simpa [h] using ofBeBytes_lt bytes
  rw [u32Bytes, u32OfBytes, UInt32.toNat_ofNat_of_lt' hlt, ← h]
  exact beBytes_ofBeBytes bytes

theorem u64Bytes_u64OfBytes {bytes : List UInt8} (h : bytes.length = 8) :
    u64Bytes (u64OfBytes bytes) = bytes := by
  have hlt : ofBeBytes bytes < 2 ^ 64 := by
    simpa [h] using ofBeBytes_lt bytes
  rw [u64Bytes, u64OfBytes, UInt64.toNat_ofNat_of_lt' hlt, ← h]
  exact beBytes_ofBeBytes bytes

/-- Sixteen bytes are those of two numbers. -/
theorem exists_u64Bytes_append {bytes : List UInt8} (h : bytes.length = 16) :
    ∃ a b, bytes = u64Bytes a ++ u64Bytes b := by
  refine ⟨u64OfBytes (bytes.take 8), u64OfBytes (bytes.drop 8), ?_⟩
  rw [u64Bytes_u64OfBytes (by simp [h]), u64Bytes_u64OfBytes (by simp [h]),
    List.take_append_drop]

/-! ## Ranges -/

section Ranges

variable {α : Type}

/-- The range `l[i..j]`. -/
def slice (l : List α) (i j : Nat) : List α := (l.drop i).take (j - i)

theorem length_slice {l : List α} {i j : Nat} (h : j ≤ l.length) :
    (slice l i j).length = j - i := by
  rw [slice, List.length_take, List.length_drop]
  omega

theorem slice_append_slice (l : List α) {i j k : Nat} (hij : i ≤ j) (hjk : j ≤ k) :
    slice l i j ++ slice l j k = slice l i k := by
  have hk : k - i = (j - i) + (k - j) := by omega
  have hj : l.drop j = (l.drop i).drop (j - i) := by
    rw [List.drop_drop]
    congr 1
    omega
  rw [slice, slice, slice, hk, hj, List.take_add]

/-- A range inside the first part. -/
theorem slice_append_left {a b : List α} {i j : Nat} (hj : j ≤ a.length) :
    slice (a ++ b) i j = slice a i j := by
  by_cases hi : i ≤ a.length
  · rw [slice, slice, List.drop_append_of_le_length hi, List.take_append_of_le_length]
    rw [List.length_drop]
    omega
  · simp [slice, Nat.sub_eq_zero_of_le (by omega : j ≤ i)]

theorem slice_zero_length (l : List α) : slice l 0 l.length = l := by
  simp [slice]

/-- A range of one element. -/
theorem slice_succ {l : List α} {i : Nat} (d : α) (h : i < l.length) :
    slice l i (i + 1) = [l.getD i d] := by
  rw [slice, Nat.add_sub_cancel_left, List.drop_eq_getElem_cons h, List.getD_eq_getElem _ _ h]
  rfl

end Ranges

end EasyNetDaemon.Library
