import EasyNetDaemon.Library.RustInt

/-!
# Adaptation of the video bitrate

The controller proposes a bitrate for each sample of the sender's and the receiver's counters, and
takes it over when the encoder has accepted it. Drops and receiver pressure take the bitrate down to
four fifths; after eight samples without them it grows by a twentieth, or by a fixed step where that
is more, up to the target.

The steps are computed with integer division, so that convergence is not plain: below the target
each proposal is larger, because a twentieth of the least bitrate is more than one, and above the
least bitrate each proposal under pressure is smaller.
-/

namespace EasyNetDaemon.RemoteDesktop

open Library.RustInt

/-- The size of a step. -/
def bitrateStepKbps : Nat := 500

/-- The lowest bitrate. -/
def adaptiveMinBitrateKbps : Nat := 128

/-- How long pressure holds recovery off. -/
def receiverPressureRecoveryHoldSamples : Nat := 8

/-- `adaptive_bitrate_kbps`. -/
def adaptiveBitrateKbps (current target least droppedDelta queuedUnits inFlightFrames : Nat)
    (allowIncrease : Bool) : Nat :=
  let least := max (min least target) 1
  let pressureCeiling :=
    if 0 < droppedDelta ∨ 1 < queuedUnits ∨ 1 < inFlightFrames then
      max (u32Mul current 80 / 100) least
    else current
  if pressureCeiling < current then pressureCeiling
  else if allowIncrease = true ∧ current < target then
    max (min (u32Mul current 105 / 100) target) least
  else current

/-- The counters that the controller looks at. -/
structure BitrateSample where
  inputDropped : Nat
  outputDropped : Nat
  queuedUnits : Nat
  inFlightFrames : Nat
  receiverPressureUnits : Nat
  deriving DecidableEq, Repr

/-- The controller of the bitrate. -/
structure AdaptiveBitrateController where
  targetKbps : Nat
  currentKbps : Nat
  minKbps : Nat
  lastInputDropped : Nat
  lastOutputDropped : Nat
  recoveryHoldSamples : Nat
  deriving DecidableEq, Repr

namespace AdaptiveBitrateController

/-- A controller at its target. -/
def new (targetKbps : Nat) : AdaptiveBitrateController :=
  let targetKbps := max targetKbps adaptiveMinBitrateKbps
  { targetKbps
    currentKbps := targetKbps
    minKbps := min adaptiveMinBitrateKbps targetKbps
    lastInputDropped := 0
    lastOutputDropped := 0
    recoveryHoldSamples := 0 }

/-- The drops since the last sample, with the pressure of the receiver. -/
def droppedDelta (c : AdaptiveBitrateController) (x : BitrateSample) : Nat :=
  u64Add
    (u64Add (x.inputDropped - c.lastInputDropped) (x.outputDropped - c.lastOutputDropped))
    x.receiverPressureUnits

/-- The counters after a sample. -/
def observe (c : AdaptiveBitrateController) (x : BitrateSample) : AdaptiveBitrateController :=
  { c with
    lastInputDropped := x.inputDropped
    lastOutputDropped := x.outputDropped
    recoveryHoldSamples :=
      if 0 < c.droppedDelta x then receiverPressureRecoveryHoldSamples
      else c.recoveryHoldSamples - 1 }

/-- The bitrate that fits a sample. -/
def nextKbps (c : AdaptiveBitrateController) (x : BitrateSample) : Nat :=
  adaptiveBitrateKbps c.currentKbps c.targetKbps c.minKbps (c.droppedDelta x) x.queuedUnits
    x.inFlightFrames ((c.observe x).recoveryHoldSamples == 0)

/-- The proposal, if there is one, and the controller. A small increase is replaced by the fixed
step. -/
def propose (c : AdaptiveBitrateController) (x : BitrateSample) :
    Option Nat × AdaptiveBitrateController :=
  if c.nextKbps x = c.currentKbps then (none, c.observe x)
  else if c.currentKbps < c.nextKbps x ∧ c.nextKbps x - c.currentKbps < bitrateStepKbps then
    (some (min (u32Add c.currentKbps bitrateStepKbps) c.targetKbps), c.observe x)
  else (some (c.nextKbps x), c.observe x)

/-- `clamp` to the range from the least bitrate to the target. -/
def commitApplied (c : AdaptiveBitrateController) (bitrateKbps : Nat) : AdaptiveBitrateController :=
  { c with currentKbps := min (max bitrateKbps c.minKbps) c.targetKbps }

/-! ## Histories -/

/-- A call of the controller. -/
inductive Call
  | propose (x : BitrateSample)
  | commitApplied (bitrateKbps : Nat)
  deriving DecidableEq, Repr

/-- The controller after a call. -/
def call (c : AdaptiveBitrateController) : Call → AdaptiveBitrateController
  | .propose x => (c.propose x).2
  | .commitApplied bitrateKbps => c.commitApplied bitrateKbps

/-- The controller after a list of calls. -/
def run (c : AdaptiveBitrateController) (calls : List Call) : AdaptiveBitrateController :=
  calls.foldl call c

/-- A sample whose proposal, if there is one, is committed. -/
def sample (c : AdaptiveBitrateController) (x : BitrateSample) : AdaptiveBitrateController :=
  match c.propose x with
  | (some bitrateKbps, c) => c.commitApplied bitrateKbps
  | (none, c) => c

/-- The controller after the first samples of a sequence. -/
def sampled (c : AdaptiveBitrateController) (x : Nat → BitrateSample) :
    Nat → AdaptiveBitrateController
  | 0 => c
  | n + 1 => (c.sampled x n).sample (x n)

theorem sampled_succ (c : AdaptiveBitrateController) (x : Nat → BitrateSample) (n : Nat) :
    c.sampled x (n + 1) = (c.sampled x n).sample (x n) := rfl

/-- New drops or receiver pressure. -/
def Pressed (c : AdaptiveBitrateController) (x : BitrateSample) : Prop :=
  c.lastInputDropped < x.inputDropped ∨ c.lastOutputDropped < x.outputDropped ∨
    0 < x.receiverPressureUnits

/-- Neither of these, and at most one unit queued and one frame in flight. -/
def Relaxed (c : AdaptiveBitrateController) (x : BitrateSample) : Prop :=
  ¬ c.Pressed x ∧ x.queuedUnits ≤ 1 ∧ x.inFlightFrames ≤ 1

/-- What holds of a controller in every history. -/
structure WithinBounds (c : AdaptiveBitrateController) : Prop where
  min_eq : c.minKbps = adaptiveMinBitrateKbps
  min_le : c.minKbps ≤ c.currentKbps
  le_target : c.currentKbps ≤ c.targetKbps
  hold_le : c.recoveryHoldSamples ≤ receiverPressureRecoveryHoldSamples

theorem droppedDelta_pos_iff (c : AdaptiveBitrateController) (x : BitrateSample) :
    0 < c.droppedDelta x ↔ c.Pressed x := by
  unfold droppedDelta u64Add Pressed
  omega

theorem withinBounds_new (targetKbps : Nat) : WithinBounds (new targetKbps) := by
  have hle : adaptiveMinBitrateKbps ≤ max targetKbps adaptiveMinBitrateKbps := le_max_right _ _
  exact ⟨min_eq_left hle, (min_le_right _ _), le_rfl, Nat.zero_le _⟩

variable {c : AdaptiveBitrateController} {x : Nat → BitrateSample}

theorem WithinBounds.observe (h : WithinBounds c) (x : BitrateSample) :
    WithinBounds (c.observe x) := by
  refine ⟨h.min_eq, h.min_le, h.le_target, ?_⟩
  have hhold := h.hold_le
  unfold AdaptiveBitrateController.observe
  dsimp only
  split <;> omega

theorem propose_snd (c : AdaptiveBitrateController) (x : BitrateSample) :
    (c.propose x).2 = c.observe x := by
  unfold propose
  split
  next => rfl
  next => split <;> rfl

theorem WithinBounds.commitApplied (h : WithinBounds c) (bitrateKbps : Nat) :
    WithinBounds (c.commitApplied bitrateKbps) := by
  have hrange := h.min_le.trans h.le_target
  exact ⟨h.min_eq, le_min (le_max_right _ _) hrange, min_le_right _ _, h.hold_le⟩

theorem WithinBounds.call (h : WithinBounds c) (op : Call) : WithinBounds (c.call op) := by
  cases op with
  | propose x =>
    change WithinBounds (c.propose x).2
    rw [propose_snd]
    exact h.observe x
  | commitApplied bitrateKbps => exact h.commitApplied bitrateKbps

theorem WithinBounds.run (h : WithinBounds c) (calls : List Call) : WithinBounds (c.run calls) := by
  induction calls generalizing c with
  | nil => exact h
  | cons op calls ih => exact ih (h.call op)

theorem targetKbps_run (c : AdaptiveBitrateController) (calls : List Call) :
    (c.run calls).targetKbps = c.targetKbps := by
  induction calls generalizing c with
  | nil => rfl
  | cons op calls ih =>
    refine (ih (c.call op)).trans ?_
    cases op with
    | propose x =>
      change (c.propose x).2.targetKbps = c.targetKbps
      rw [propose_snd]
      rfl
    | commitApplied bitrateKbps => rfl

theorem WithinBounds.sample (h : WithinBounds c) (x : BitrateSample) :
    WithinBounds (c.sample x) := by
  have hobserve := h.observe x
  rw [← propose_snd] at hobserve
  unfold AdaptiveBitrateController.sample
  split
  next bitrateKbps c' hpropose =>
    rw [hpropose] at hobserve
    exact hobserve.commitApplied bitrateKbps
  next c' hpropose =>
    rw [hpropose] at hobserve
    exact hobserve

/-- A sample changes the bitrate only, apart from what it observes. -/
theorem sample_eq (c : AdaptiveBitrateController) (x : BitrateSample) :
    c.sample x = { c.observe x with currentKbps := (c.sample x).currentKbps } := by
  have hobserve := propose_snd c x
  unfold sample
  split
  next bitrateKbps c' hpropose =>
    rw [hpropose] at hobserve
    cases hobserve
    rfl
  next c' hpropose =>
    rw [hpropose] at hobserve
    cases hobserve
    rfl

/-! ## One sample -/

/-- Up to this target no product of the percentages saturates. -/
def maxConvergentTargetKbps : Nat := 40000000

theorem adaptiveBitrateKbps_pressed {current target droppedDelta : Nat} (queuedUnits inFlight : Nat)
    (htarget : target ≤ maxConvergentTargetKbps) (hlow : adaptiveMinBitrateKbps ≤ current)
    (hhigh : current ≤ target) (hpos : 0 < droppedDelta) :
    adaptiveBitrateKbps current target adaptiveMinBitrateKbps droppedDelta queuedUnits inFlight
      false = max (current * 80 / 100) adaptiveMinBitrateKbps := by
  have hleast : adaptiveMinBitrateKbps = 128 := rfl
  have hmost : maxConvergentTargetKbps = 40000000 := rfl
  have hu32 : u32Max = 4294967295 := rfl
  unfold adaptiveBitrateKbps u32Mul
  simp only [hpos, true_or, if_true, Bool.false_eq_true, false_and, if_false]
  split <;> omega

theorem adaptiveBitrateKbps_relaxed {current target queuedUnits inFlight : Nat}
    (htarget : target ≤ maxConvergentTargetKbps) (hlow : adaptiveMinBitrateKbps ≤ current)
    (hhigh : current ≤ target) (hqueued : queuedUnits ≤ 1) (hflight : inFlight ≤ 1)
    (allowIncrease : Bool) :
    adaptiveBitrateKbps current target adaptiveMinBitrateKbps 0 queuedUnits inFlight
      allowIncrease = if allowIncrease then min (current * 105 / 100) target else current := by
  have hcalm : ¬ (0 < 0 ∨ 1 < queuedUnits ∨ 1 < inFlight) := by omega
  have hleast : adaptiveMinBitrateKbps = 128 := rfl
  have hmost : maxConvergentTargetKbps = 40000000 := rfl
  have hu32 : u32Max = 4294967295 := rfl
  unfold adaptiveBitrateKbps u32Mul
  dsimp only
  rw [if_neg hcalm, if_neg (lt_irrefl _)]
  cases allowIncrease with
  | false => simp
  | true =>
    simp only [true_and, if_true]
    split <;> omega

/-- The bitrate after a sample, whose proposal is in range. -/
theorem currentKbps_sample (c : AdaptiveBitrateController) (x : BitrateSample) :
    (c.sample x).currentKbps =
      if c.nextKbps x = c.currentKbps then c.currentKbps
      else if c.currentKbps < c.nextKbps x ∧ c.nextKbps x - c.currentKbps < bitrateStepKbps then
        min (max (min (u32Add c.currentKbps bitrateStepKbps) c.targetKbps) c.minKbps)
          c.targetKbps
      else min (max (c.nextKbps x) c.minKbps) c.targetKbps := by
  unfold sample propose
  by_cases hsame : c.nextKbps x = c.currentKbps
  · simp [hsame, observe]
  · by_cases hsmall : c.currentKbps < c.nextKbps x ∧ c.nextKbps x - c.currentKbps < bitrateStepKbps
    · simp only [if_neg hsame, if_pos hsmall, commitApplied, observe]
    · simp only [if_neg hsame, if_neg hsmall, commitApplied, observe]

/-- Under pressure the bitrate falls to four fifths, but not below the least one. -/
theorem sample_pressed {x : BitrateSample} (h : WithinBounds c)
    (htarget : c.targetKbps ≤ maxConvergentTargetKbps) (hx : c.Pressed x) :
    (c.sample x).currentKbps = max (c.currentKbps * 80 / 100) c.minKbps := by
  obtain ⟨hmin, hlow, hhigh, -⟩ := h
  rw [hmin] at hlow
  have hpos := (droppedDelta_pos_iff c x).2 hx
  have hhold : ((c.observe x).recoveryHoldSamples == 0) = false := by
    simp [observe, hpos, receiverPressureRecoveryHoldSamples]
  have hnext : c.nextKbps x = max (c.currentKbps * 80 / 100) adaptiveMinBitrateKbps := by
    rw [nextKbps, hhold, hmin]
    exact adaptiveBitrateKbps_pressed _ _ htarget hlow hhigh hpos
  rw [currentKbps_sample, hnext, hmin]
  split
  next => omega
  next =>
    split
    next => omega
    next => omega

/-- Without pressure the bitrate waits for the end of the hold, and then grows towards the
target. -/
theorem sample_relaxed {x : BitrateSample} (h : WithinBounds c)
    (htarget : c.targetKbps ≤ maxConvergentTargetKbps) (hx : c.Relaxed x) :
    (c.sample x).currentKbps =
      if c.recoveryHoldSamples ≤ 1 then
        min (max (c.currentKbps * 105 / 100) (c.currentKbps + bitrateStepKbps)) c.targetKbps
      else c.currentKbps := by
  obtain ⟨hmin, hlow, hhigh, -⟩ := h
  obtain ⟨hcalm, hqueued, hflight⟩ := hx
  rw [hmin] at hlow
  have hzero : c.droppedDelta x = 0 :=
    Nat.eq_zero_of_not_pos fun hpos => hcalm ((droppedDelta_pos_iff c x).1 hpos)
  have hhold : ((c.observe x).recoveryHoldSamples == 0) = decide (c.recoveryHoldSamples ≤ 1) := by
    simp [observe, hzero, Nat.sub_eq_zero_iff_le, beq_eq_decide]
  have hnext : c.nextKbps x = if c.recoveryHoldSamples ≤ 1 then
      min (c.currentKbps * 105 / 100) c.targetKbps else c.currentKbps := by
    rw [nextKbps, hhold, hmin, hzero,
      adaptiveBitrateKbps_relaxed htarget hlow hhigh hqueued hflight]
    simp
  rw [currentKbps_sample, hnext, hmin]
  have hstep : bitrateStepKbps = 500 := rfl
  have hleast : adaptiveMinBitrateKbps = 128 := rfl
  have hmost : maxConvergentTargetKbps = 40000000 := rfl
  have hu32 : u32Max = 4294967295 := rfl
  unfold u32Add
  generalize bitrateStepKbps = step at *
  by_cases hover : c.recoveryHoldSamples ≤ 1
  · simp only [hover, if_true]
    split
    next => omega
    next =>
      split
      next => omega
      next => omega
  · simp [hover]

/-! ## Sequences of samples -/

theorem WithinBounds.sampled (h : WithinBounds c) (x : Nat → BitrateSample) (n : Nat) :
    WithinBounds (c.sampled x n) := by
  induction n with
  | zero => exact h
  | succ n ih => exact ih.sample (x n)

theorem targetKbps_sampled (c : AdaptiveBitrateController) (x : Nat → BitrateSample) (n : Nat) :
    (c.sampled x n).targetKbps = c.targetKbps := by
  induction n with
  | zero => rfl
  | succ n ih =>
    rw [sampled_succ, sample_eq]
    exact ih

theorem minKbps_sampled (h : WithinBounds c) (x : Nat → BitrateSample) (n : Nat) :
    (c.sampled x n).minKbps = c.minKbps :=
  (h.sampled x n).min_eq.trans h.min_eq.symm

/-- Each sample under pressure takes off at least one. -/
theorem currentKbps_sampled_pressed (h : WithinBounds c)
    (htarget : c.targetKbps ≤ maxConvergentTargetKbps) (hx : ∀ n, (c.sampled x n).Pressed (x n))
    (n : Nat) : (c.sampled x n).currentKbps ≤ max (c.currentKbps - n) c.minKbps := by
  induction n with
  | zero => exact le_max_left _ _
  | succ n ih =>
    have hstep :=
      sample_pressed (h.sampled x n) ((targetKbps_sampled c x n).trans_le htarget) (hx n)
    rw [sampled_succ, hstep, minKbps_sampled h]
    omega

theorem recoveryHoldSamples_sampled (hx : ∀ n, (c.sampled x n).Relaxed (x n)) (n : Nat) :
    (c.sampled x n).recoveryHoldSamples = c.recoveryHoldSamples - n := by
  induction n with
  | zero => rfl
  | succ n ih =>
    have hzero : ¬ 0 < (c.sampled x n).droppedDelta (x n) := fun hpos =>
      (hx n).1 ((droppedDelta_pos_iff _ _).1 hpos)
    rw [sampled_succ, sample_eq]
    change (if 0 < (c.sampled x n).droppedDelta (x n) then _ else _) = _
    rw [if_neg hzero, ih]
    exact Nat.sub_sub _ _ _

theorem currentKbps_sampled_mono (h : WithinBounds c)
    (htarget : c.targetKbps ≤ maxConvergentTargetKbps) (hx : ∀ n, (c.sampled x n).Relaxed (x n))
    (n : Nat) : (c.sampled x n).currentKbps ≤ (c.sampled x (n + 1)).currentKbps := by
  have hbounds := h.sampled x n
  have hle := hbounds.le_target
  have hstep := sample_relaxed hbounds ((targetKbps_sampled c x n).trans_le htarget) (hx n)
  rw [sampled_succ, hstep]
  split <;> omega

/-- Each sample after the hold adds at least one. -/
theorem currentKbps_sampled_relaxed (h : WithinBounds c)
    (htarget : c.targetKbps ≤ maxConvergentTargetKbps) (hx : ∀ n, (c.sampled x n).Relaxed (x n))
    (n : Nat) :
    min n c.targetKbps ≤
      (c.sampled x (receiverPressureRecoveryHoldSamples + n)).currentKbps := by
  induction n with
  | zero => omega
  | succ n ih =>
    have hbounds := h.sampled x (receiverPressureRecoveryHoldSamples + n)
    have hsame := targetKbps_sampled c x (receiverPressureRecoveryHoldSamples + n)
    have hstep := sample_relaxed hbounds (hsame.trans_le htarget) (hx _)
    have hover :
        (c.sampled x (receiverPressureRecoveryHoldSamples + n)).recoveryHoldSamples ≤ 1 := by
      rw [recoveryHoldSamples_sampled hx]
      have := h.hold_le
      omega
    have hstepPos : 0 < bitrateStepKbps := by decide
    rw [← Nat.add_assoc, sampled_succ, hstep, if_pos hover, hsame]
    omega

/-- The bitrate is between 128 kbit/s and the target, which is itself at least that, after every
history. From then on lasting pressure takes it to the least bitrate, and lasting relief to the
target, where it never falls on the way. -/
theorem bitrate_converges {targetKbps : Nat} (htarget : targetKbps ≤ maxConvergentTargetKbps)
    (calls : List Call) {c : AdaptiveBitrateController} (hc : c = (new targetKbps).run calls) :
    (c.minKbps = 128 ∧ c.targetKbps = max targetKbps 128) ∧
    (c.minKbps ≤ c.currentKbps ∧ c.currentKbps ≤ c.targetKbps) ∧
    (∀ x, (∀ n, (c.sampled x n).Pressed (x n)) →
      ∃ N, ∀ n ≥ N, (c.sampled x n).currentKbps = c.minKbps) ∧
    (∀ x, (∀ n, (c.sampled x n).Relaxed (x n)) →
      (∀ n, (c.sampled x n).currentKbps ≤ (c.sampled x (n + 1)).currentKbps) ∧
        ∃ N, ∀ n ≥ N, (c.sampled x n).currentKbps = c.targetKbps) := by
  have h : WithinBounds c := hc ▸ (withinBounds_new targetKbps).run calls
  have hsame : c.targetKbps = max targetKbps 128 := by
    rw [hc, targetKbps_run]
    rfl
  have hlimit : c.targetKbps ≤ maxConvergentTargetKbps := by
    rw [hsame]
    exact max_le htarget (by decide)
  refine ⟨⟨h.min_eq, hsame⟩, ⟨h.min_le, h.le_target⟩, fun x hx => ⟨c.currentKbps, fun n hn => ?_⟩,
    fun x hx => ⟨currentKbps_sampled_mono h hlimit hx,
      receiverPressureRecoveryHoldSamples + c.targetKbps, fun n hn => ?_⟩⟩
  · have hfall := currentKbps_sampled_pressed h hlimit hx n
    have hlow := (h.sampled x n).min_le
    rw [minKbps_sampled h] at hlow
    omega
  · obtain ⟨m, rfl⟩ := Nat.exists_eq_add_of_le hn
    have hgrow := currentKbps_sampled_relaxed h hlimit hx (c.targetKbps + m)
    have hhigh := (h.sampled x (receiverPressureRecoveryHoldSamples + (c.targetKbps + m))).le_target
    rw [targetKbps_sampled] at hhigh
    rw [Nat.add_assoc]
    omega

/-- After one drop a target of 6 Mbit/s is reached again. -/
theorem bitrate_converges_afterDrop :
    ∃ N, ∀ n ≥ N,
      (((new 6000).run [.propose ⟨1, 0, 0, 0, 0⟩, .commitApplied 4800]).sampled
        (fun _ => ⟨1, 0, 0, 0, 0⟩) n).currentKbps = 6000 := by
  refine ((bitrate_converges (by decide) _ rfl).2.2.2 _ fun n => ?_).2
  refine ⟨?_, by decide, by decide⟩
  cases n with
  | zero => rintro (h | h | h) <;> exact absurd h (by decide)
  | succ n =>
    rw [sampled_succ, sample_eq]
    rintro (h | h | h) <;> exact absurd h (lt_irrefl _)

end AdaptiveBitrateController

end EasyNetDaemon.RemoteDesktop
