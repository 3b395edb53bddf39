import EasyNetDaemon.Eal.CallBound
import EasyNetDaemon.Library.BigEndian

/-!
# The delay before a retry

The model of `compute_backoff` in `eal/interpreter/retry.rs`. The power and the product are taken in
`u64` before the result is cut to the maximum; `computeBackoff` has no result where one of them
overflows, as in a build with overflow checks, and `computeBackoffWrapping` goes on with what is
left, as in a release build. The product fits up to attempt 55, which is far below what a mission
may ask for.
-/

namespace EasyNetDaemon.Eal

open Library

/-- `RETRY_BASE_MS`. -/
def retryBaseMs : Nat := 1000

/-- `RETRY_MAX_MS`. -/
def retryMaxMs : Nat := 30000

/-- A result of `u64` arithmetic, if it fits. -/
def checkedU64 (n : Nat) : Option Nat := if n < 2 ^ 64 then some n else none

theorem checkedU64_eq_some_iff {n m : Nat} : checkedU64 n = some m ↔ n < 2 ^ 64 ∧ n = m := by
  rw [checkedU64, Option.ite_none_right_eq_some, Option.some.injEq]

/-- `RETRY_BASE_MS * 2u64.pow(attempt.saturating_sub(1))`. -/
def backoffBase (attempt : UInt32) : Option Nat := do
  let power ← checkedU64 (2 ^ (attempt.toNat - 1))
  checkedU64 (retryBaseMs * power)

/-- The delay without its jitter. -/
def cappedBackoff (attempt : UInt32) : Option Nat := (backoffBase attempt).map (min · retryMaxMs)

section Jitter

variable (sha256 : List UInt8 → Vector UInt8 32)

/-- The jitter: the first eight bytes of a hash of the step's id and the attempt, read as a little
endian number, modulo half the base and one. -/
def backoffJitter (attempt : UInt32) (stepId : String) : Nat :=
  let hash := (sha256 (stepId.toByteArray.data.toList ++ (u32Bytes attempt).reverse)).toList
  ofBeBytes (hash.take 8).reverse % (retryBaseMs / 2 + 1)

/-- `compute_backoff` with overflow checks. -/
def computeBackoff (attempt : UInt32) (stepId : String) : Option Nat :=
  (cappedBackoff attempt).map (· + backoffJitter sha256 attempt stepId)

/-- `compute_backoff` without overflow checks. -/
def computeBackoffWrapping (attempt : UInt32) (stepId : String) : Nat :=
  min (retryBaseMs * (2 ^ (attempt.toNat - 1) % 2 ^ 64) % 2 ^ 64) retryMaxMs +
    backoffJitter sha256 attempt stepId

theorem backoffJitter_le (attempt : UInt32) (stepId : String) :
    backoffJitter sha256 attempt stepId ≤ retryBaseMs / 2 :=
  Nat.le_of_lt_succ (Nat.mod_lt _ (Nat.succ_pos _))

end Jitter

/-! ## Where the product fits -/

theorem pow_lt_iff (k : Nat) : retryBaseMs * 2 ^ k < 2 ^ 64 ↔ k ≤ 54 := by
  constructor
  · intro h
    by_contra hk
    have hpow : 2 ^ 55 ≤ 2 ^ k := Nat.pow_le_pow_right (by decide) (by omega)
    have hbase : retryBaseMs * 2 ^ 55 ≤ retryBaseMs * 2 ^ k := Nat.mul_le_mul_left _ hpow
    exact absurd (Nat.lt_of_le_of_lt hbase h) (by decide)
  · intro hk
    have hpow : 2 ^ k ≤ 2 ^ 54 := Nat.pow_le_pow_right (by decide) hk
    exact Nat.lt_of_le_of_lt (Nat.mul_le_mul_left retryBaseMs hpow) (by decide)

/-- The base of the delay is exact where it does not overflow, and that is up to attempt 55. -/
theorem backoffBase_eq_some_iff {attempt : UInt32} {base : Nat} :
    backoffBase attempt = some base ↔
      attempt ≤ 55 ∧ base = retryBaseMs * 2 ^ (attempt.toNat - 1) := by
  have hattempt : attempt ≤ 55 ↔ attempt.toNat - 1 ≤ 54 := by
    rw [UInt32.le_iff_toNat_le, Nat.sub_le_iff_le_add]
    rfl
  simp only [backoffBase, Option.bind_eq_bind, Option.bind_eq_some_iff, checkedU64_eq_some_iff]
  constructor
  · rintro ⟨power, ⟨-, rfl⟩, hbase, rfl⟩
    exact ⟨hattempt.2 ((pow_lt_iff _).1 hbase), rfl⟩
  · rintro ⟨hle, rfl⟩
    have hbase := (pow_lt_iff _).2 (hattempt.1 hle)
    refine ⟨_, ⟨?_, rfl⟩, hbase, rfl⟩
    exact Nat.lt_of_le_of_lt (Nat.le_mul_of_pos_left _ (by decide)) hbase

theorem cappedBackoff_eq {attempt : UInt32} (h : attempt ≤ 55) :
    cappedBackoff attempt = some (min (retryBaseMs * 2 ^ (attempt.toNat - 1)) retryMaxMs) := by
  rw [cappedBackoff, backoffBase_eq_some_iff.2 ⟨h, rfl⟩]
  rfl

theorem cappedBackoff_eq_none {attempt : UInt32} (h : ¬ attempt ≤ 55) :
    cappedBackoff attempt = none := by
  cases hbase : backoffBase attempt with
  | none => rw [cappedBackoff, hbase]; rfl
  | some base => exact absurd (backoffBase_eq_some_iff.1 hbase).1 h

/-! ## The delays of a mission -/

/-- The delay before a retry is computed without overflow, lies within its bounds and is, its jitter
apart, the exact power cut to the maximum; and it is no shorter than before the retries so far. -/
structure BackoffExact (sha256 : List UInt8 → Vector UInt8 32) (attempt : UInt32)
    (stepId : String) : Prop where
  evaluates : ∃ delay, computeBackoff sha256 attempt stepId = some delay ∧ retryBaseMs ≤ delay ∧
    delay ≤ retryMaxMs + retryBaseMs / 2
  capped : cappedBackoff attempt = some (min (retryBaseMs * 2 ^ (attempt.toNat - 1)) retryMaxMs)
  monotone : ∀ earlier ≤ attempt, ∃ d d', cappedBackoff earlier = some d ∧
    cappedBackoff attempt = some d' ∧ d ≤ d'

theorem BackoffExact.of_le {attempt : UInt32} (h : attempt ≤ 55)
    (sha256 : List UInt8 → Vector UInt8 32) (stepId : String) :
    BackoffExact sha256 attempt stepId where
  evaluates := by
    refine ⟨_, by rw [computeBackoff, cappedBackoff_eq h]; rfl, ?_, ?_⟩
    · refine Nat.le_trans (Nat.le_min.2 ⟨?_, by decide⟩) (Nat.le_add_right _ _)
      exact Nat.le_mul_of_pos_right _ (Nat.two_pow_pos _)
    · exact Nat.add_le_add (Nat.min_le_right _ _) (backoffJitter_le sha256 attempt stepId)
  capped := cappedBackoff_eq h
  monotone earlier hearlier := by
    refine ⟨_, _, cappedBackoff_eq (UInt32.le_trans hearlier h), cappedBackoff_eq h, ?_⟩
    have hpow : 2 ^ (earlier.toNat - 1) ≤ 2 ^ (attempt.toNat - 1) :=
      Nat.pow_le_pow_right (by decide)
        (Nat.sub_le_sub_right (UInt32.le_iff_toNat_le.1 hearlier) 1)
    have hmul := Nat.mul_le_mul_left retryBaseMs hpow
    omega

/-- In a compiled mission the delay before a retry of a step is as it should be exactly up to the
55th retry. -/
theorem backoff_exact_iff (sha256 : List UInt8 → Vector UInt8 32) (program : EalProgram) :
    ∀ ir, compile program = .ok ir → ∀ step ∈ walkCallsAll ir.steps, step.onFailure = .retry →
      ∀ attempt : UInt32, 1 ≤ attempt → attempt.toNat < maxAttempts step →
        (BackoffExact sha256 attempt step.stepId ↔ attempt ≤ 55) := by
  intro _ _ step _ _ attempt _ _
  constructor
  · intro hexact
    by_contra h
    obtain ⟨delay, hdelay, -⟩ := hexact.evaluates
    rw [computeBackoff, cappedBackoff_eq_none h] at hdelay
    cases hdelay
  · intro h
    exact .of_le h sha256 step.stepId

/-- A step that is retried 256 times: the delay before the 56th retry overflows, and without
overflow checks the one before the 62nd is shorter than the first. -/
theorem backoff_overflows :
    ∃ ir step, compile retriedMission = .ok ir ∧ step ∈ walkCallsAll ir.steps ∧
      step.onFailure = .retry ∧ 62 < maxAttempts step ∧
      ∀ sha256, computeBackoff sha256 56 step.stepId = none ∧
        computeBackoffWrapping sha256 62 step.stepId < retryBaseMs := by
  have hcompiled : (compile retriedMission).toOption.any (fun ir =>
      (walkCallsAll ir.steps).any fun step =>
        decide (step.onFailure = .retry ∧ 62 < maxAttempts step)) = true := by
    decide +kernel
  obtain ⟨ir, hir, hsteps⟩ := exists_ok_of_any hcompiled
  obtain ⟨step, hstep, hretry⟩ := List.any_eq_true.1 hsteps
  obtain ⟨hretry, hattempts⟩ := of_decide_eq_true hretry
  refine ⟨ir, step, hir, hstep, hretry, hattempts, fun sha256 => ⟨?_, ?_⟩⟩
  · rw [computeBackoff, cappedBackoff_eq_none (by decide)]
    rfl
  · have hjitter := backoffJitter_le sha256 62 step.stepId
    have hbase :
        min (retryBaseMs * (2 ^ ((62 : UInt32).toNat - 1) % 2 ^ 64) % 2 ^ 64) retryMaxMs = 0 := by
      decide +kernel
    rw [computeBackoffWrapping, hbase, Nat.zero_add]
    exact Nat.lt_of_le_of_lt hjitter (by decide)

theorem backoff_exact_iff_retriedMission :
    ∃ ir step, compile retriedMission = .ok ir ∧ step ∈ walkCallsAll ir.steps ∧
      (BackoffExact (fun _ => Vector.replicate 32 0) 55 step.stepId ↔ (55 : UInt32) ≤ 55) := by
  have hcompiled : (compile retriedMission).toOption.any (fun ir =>
      (walkCallsAll ir.steps).any fun step =>
        decide (step.onFailure = .retry ∧ (55 : UInt32).toNat < maxAttempts step)) = true := by
    decide +kernel
  obtain ⟨ir, hir, hsteps⟩ := exists_ok_of_any hcompiled
  obtain ⟨step, hstep, hretry⟩ := List.any_eq_true.1 hsteps
  obtain ⟨hretry, hattempts⟩ := of_decide_eq_true hretry
  exact ⟨ir, step, hir, hstep,
    backoff_exact_iff _ retriedMission ir hir step hstep hretry 55 (by decide) hattempts⟩

end EasyNetDaemon.Eal
