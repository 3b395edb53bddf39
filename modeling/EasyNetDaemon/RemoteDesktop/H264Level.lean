import Mathlib.Data.Rat.Floor
import EasyNetDaemon.Library.RustInt

/-!
# Limits of the negotiated H.264 level

The receiver states a level and may extend three of its limits: the macroblocks of a frame, the
macroblocks of a second, and the bitrate. A capture request is fitted to them: a frame that is too
large is scaled to the best box of macroblocks, and the frame rate is cut to what the rest allows,
but to no less than one frame a second.

The three limits come from the receiver one by one. Where a frame can use up more than a second's
macroblocks, one frame a second is too much (`constrain_respects_iff`).
-/

namespace EasyNetDaemon.RemoteDesktop

open Library.RustInt

/-! ## Levels -/

/-- The levels of H.264. -/
inductive H264Level
  | level1_0
  | level1B
  | level1_1
  | level1_2
  | level1_3
  | level2_0
  | level2_1
  | level2_2
  | level3_0
  | level3_1
  | level3_2
  | level4_0
  | level4_1
  | level4_2
  | level5_0
  | level5_1
  | level5_2
  deriving DecidableEq, Repr

namespace H264Level

/-- The frame size of a level. -/
def maxMacroblocksPerFrame : H264Level → Nat
  | .level1_0 | .level1B => 99
  | .level1_1 | .level1_2 | .level1_3 | .level2_0 => 396
  | .level2_1 => 792
  | .level2_2 | .level3_0 => 1620
  | .level3_1 => 3600
  | .level3_2 => 5120
  | .level4_0 | .level4_1 => 8192
  | .level4_2 => 8704
  | .level5_0 => 22080
  | .level5_1 | .level5_2 => 36864

/-- The rate of a level. -/
def maxMacroblocksPerSecond : H264Level → Nat
  | .level1_0 | .level1B => 1485
  | .level1_1 => 3000
  | .level1_2 => 6000
  | .level1_3 | .level2_0 => 11880
  | .level2_1 => 19800
  | .level2_2 => 20250
  | .level3_0 => 40500
  | .level3_1 => 108000
  | .level3_2 => 216000
  | .level4_0 | .level4_1 => 245760
  | .level4_2 => 522240
  | .level5_0 => 589824
  | .level5_1 => 983040
  | .level5_2 => 2073600

/-- The bitrate of a level. -/
def maxBitrateKbps : H264Level → Nat
  | .level1_0 => 64
  | .level1B => 128
  | .level1_1 => 192
  | .level1_2 => 384
  | .level1_3 => 768
  | .level2_0 => 2000
  | .level2_1 | .level2_2 => 4000
  | .level3_0 => 10000
  | .level3_1 => 14000
  | .level3_2 | .level4_0 => 20000
  | .level4_1 | .level4_2 => 50000
  | .level5_0 => 135000
  | .level5_1 | .level5_2 => 240000

theorem maxMacroblocksPerFrame_pos (level : H264Level) : 0 < level.maxMacroblocksPerFrame := by
  cases level <;> decide

end H264Level

/-! ## Fitting a request -/

/-- A size in pixels. -/
structure VideoResolution where
  width : Nat
  height : Nat
  deriving DecidableEq, Repr

/-- What is asked of a capture. -/
structure ScreenCaptureOptions where
  fps : Nat
  resolution : Option VideoResolution
  deriving DecidableEq, Repr

/-- Division that rounds up. -/
def divCeil (n d : Nat) : Nat := (n + d - 1) / d

/-- The macroblocks of a frame. -/
def macroblocks (width height : Nat) : Nat := u32Mul (divCeil width 16) (divCeil height 16)

/-- `n & !1`. -/
def evenDown (n : Nat) : Nat := n / 2 * 2

/-- How far the request has to be scaled for a box of macroblocks. -/
def boxScale (width height mbWidth mbHeight : Nat) : ℚ :=
  min ((mbWidth * 16 % 2 ^ 32 : Nat) / (width : ℚ)) ((mbHeight * 16 % 2 ^ 32 : Nat) / (height : ℚ))

/-- The rows of macroblocks beside a number of columns. -/
def boxHeight (height maxMacroblocks mbWidth : Nat) : Nat :=
  min (maxMacroblocks / mbWidth) (min (divCeil height 16) maxMacroblocks)

/-- The best scale over all numbers of columns. -/
def bestScale (width height maxMacroblocks : Nat) : ℚ :=
  (List.range' 1 (min (divCeil width 16) maxMacroblocks)).foldl
    (fun best mbWidth =>
      let mbHeight := boxHeight height maxMacroblocks mbWidth
      if mbHeight = 0 then best else max best (boxScale width height mbWidth mbHeight)) 0

/-- A scaled length, rounded down to an even number of at least two. -/
def scaledLength (length : Nat) (scale : ℚ) : Nat :=
  max (evenDown (min ⌊(length : ℚ) * scale⌋₊ u32Max)) 2

/-- The largest size that fits. -/
def fitResolutionToMacroblocks (requested : VideoResolution) (maxMacroblocks : Nat) :
    VideoResolution :=
  if macroblocks requested.width requested.height ≤ maxMacroblocks then
    ⟨evenDown requested.width, evenDown requested.height⟩
  else
    let width := max requested.width 2
    let height := max requested.height 2
    let scale := bestScale width height maxMacroblocks
    ⟨scaledLength width scale, scaledLength height scale⟩

/-- An extension must not be below the level's own limit. -/
def extensionAtLeast (name : String) (extension : Option Nat) (base : Nat) :
    Except String { limit : Nat // base ≤ limit } :=
  match extension with
  | some value =>
    if h : base ≤ value then .ok ⟨value, h⟩
    else .error s!"H.264 {name}={value} is below the negotiated level minimum {base}"
  | none => .ok ⟨base, le_rfl⟩

/-- A level and its limits, each of which may be extended. -/
structure H264ReceiveLimits where
  level : H264Level
  frame : { limit : Nat // level.maxMacroblocksPerFrame ≤ limit }
  second : { limit : Nat // level.maxMacroblocksPerSecond ≤ limit }
  bitrate : { limit : Nat // level.maxBitrateKbps ≤ limit }

namespace H264ReceiveLimits

/-- The limits of a receiver. -/
def new (level : H264Level)
    (maxMacroblocksPerFrame maxMacroblocksPerSecond maxBitrateKbps : Option Nat) :
    Except String H264ReceiveLimits := do
  let frame ← extensionAtLeast "max-fs" maxMacroblocksPerFrame level.maxMacroblocksPerFrame
  let second ← extensionAtLeast "max-mbps" maxMacroblocksPerSecond level.maxMacroblocksPerSecond
  let bitrate ← extensionAtLeast "max-br" maxBitrateKbps level.maxBitrateKbps
  return ⟨level, frame, second, bitrate⟩

/-- The frame size a receiver takes. -/
def maxMacroblocksPerFrame (l : H264ReceiveLimits) : Nat := l.frame.1

/-- The rate a receiver takes. -/
def maxMacroblocksPerSecond (l : H264ReceiveLimits) : Nat := l.second.1

/-- The bitrate a receiver takes. -/
def maxBitrateKbps (l : H264ReceiveLimits) : Nat := l.bitrate.1

/-- What a request is cut to. -/
def constrain (l : H264ReceiveLimits) (requested : ScreenCaptureOptions)
    (requestedBitrateKbps : Nat) : Except String (ScreenCaptureOptions × Nat) :=
  match requested.resolution with
  | none =>
    .error "direct WebRTC H.264 requires explicit capture bounds before codec negotiation"
  | some requestedResolution =>
    let resolution := fitResolutionToMacroblocks requestedResolution l.maxMacroblocksPerFrame
    let frameMacroblocks := max (macroblocks resolution.width resolution.height) 1
    let maxFps := max (l.maxMacroblocksPerSecond / frameMacroblocks) 1
    .ok ({ requested with
            fps := min requested.fps maxFps
            resolution := some resolution },
          min requestedBitrateKbps l.maxBitrateKbps)

end H264ReceiveLimits

/-! ## Boxes of macroblocks -/

theorem divCeil_le_iff (n k : Nat) : divCeil n 16 ≤ k ↔ n ≤ 16 * k := by
  unfold divCeil
  omega

variable {width height length maxMacroblocks : Nat} {scale : ℚ}

theorem macroblocks_le {mbWidth mbHeight : Nat} (hwidth : width ≤ 16 * mbWidth)
    (hheight : height ≤ 16 * mbHeight) : macroblocks width height ≤ mbWidth * mbHeight :=
  (min_le_left _ _).trans
    (Nat.mul_le_mul ((divCeil_le_iff _ _).2 hwidth) ((divCeil_le_iff _ _).2 hheight))

theorem macroblocks_mono {width' height' : Nat} (hwidth : width ≤ width')
    (hheight : height ≤ height') : macroblocks width height ≤ macroblocks width' height' := by
  have hcolumns : divCeil width 16 ≤ divCeil width' 16 :=
    Nat.div_le_div_right (Nat.sub_le_sub_right (Nat.add_le_add_right hwidth _) _)
  have hrows : divCeil height 16 ≤ divCeil height' 16 :=
    Nat.div_le_div_right (Nat.sub_le_sub_right (Nat.add_le_add_right hheight _) _)
  exact min_le_min_right _ (Nat.mul_le_mul hcolumns hrows)

theorem evenDown_le (n : Nat) : evenDown n ≤ n := Nat.div_mul_le_self n 2

/-- Zero, or the scale of a box of at most the given number of macroblocks, with no more columns and
rows than the request. -/
def IsBoxScale (width height maxMacroblocks : Nat) (scale : ℚ) : Prop :=
  scale = 0 ∨ ∃ mbWidth mbHeight, 1 ≤ mbWidth ∧ 1 ≤ mbHeight ∧ mbWidth * mbHeight ≤ maxMacroblocks ∧
    mbWidth ≤ divCeil width 16 ∧ mbHeight ≤ divCeil height 16 ∧
    scale = boxScale width height mbWidth mbHeight

theorem isBoxScale_bestScale (width height maxMacroblocks : Nat) :
    IsBoxScale width height maxMacroblocks (bestScale width height maxMacroblocks) := by
  -- the accumulator of the loop is the scale of one of the boxes seen
  refine List.foldlRecOn _ _ (Or.inl rfl) fun best hbest mbWidth hmem => ?_
  obtain ⟨i, hi, rfl⟩ := List.mem_range'.1 hmem
  dsimp only
  split
  next => exact hbest
  next hrows =>
    rcases max_choice best
      (boxScale width height (1 + 1 * i) (boxHeight height maxMacroblocks (1 + 1 * i))) with h | h
    · rw [h]
      exact hbest
    · rw [h]
      refine Or.inr ⟨1 + 1 * i, boxHeight height maxMacroblocks (1 + 1 * i), by omega,
        Nat.one_le_iff_ne_zero.2 hrows, ?_, by omega, ?_, rfl⟩
      · exact (Nat.mul_le_mul_left _ (min_le_left _ _)).trans (Nat.mul_div_le _ _)
      · exact (min_le_right _ _).trans (min_le_left _ _)

theorem mul_div_wrapped_le (hlength : 0 < length) (mb : Nat) :
    (length : ℚ) * ((mb * 16 % 2 ^ 32 : Nat) / (length : ℚ)) ≤ (16 * mb : Nat) := by
  have hne : (length : ℚ) ≠ 0 := Nat.cast_ne_zero.2 hlength.ne'
  rw [mul_div_cancel₀ _ hne, Nat.cast_le]
  exact (Nat.mod_le _ _).trans_eq (Nat.mul_comm _ _)

/-- A box scale brings the width and the height into the box. -/
theorem mul_boxScale_le (hwidth : 0 < width) (hheight : 0 < height) (mbWidth mbHeight : Nat) :
    (width : ℚ) * boxScale width height mbWidth mbHeight ≤ (16 * mbWidth : Nat) ∧
      (height : ℚ) * boxScale width height mbWidth mbHeight ≤ (16 * mbHeight : Nat) :=
  ⟨(mul_le_mul_of_nonneg_left (min_le_left _ _) (Nat.cast_nonneg _)).trans
      (mul_div_wrapped_le hwidth mbWidth),
    (mul_le_mul_of_nonneg_left (min_le_right _ _) (Nat.cast_nonneg _)).trans
      (mul_div_wrapped_le hheight mbHeight)⟩

theorem scaledLength_le {bound : Nat} (hbound : 2 ≤ bound) (h : (length : ℚ) * scale ≤ bound) :
    scaledLength length scale ≤ bound := by
  refine max_le ?_ hbound
  calc evenDown (min ⌊(length : ℚ) * scale⌋₊ u32Max)
      ≤ min ⌊(length : ℚ) * scale⌋₊ u32Max := evenDown_le _
    _ ≤ ⌊(length : ℚ) * scale⌋₊ := min_le_left _ _
    _ ≤ bound := Nat.floor_le_of_le h

theorem scaledLength_even (length : Nat) (scale : ℚ) : 2 ∣ scaledLength length scale := by
  unfold scaledLength evenDown
  rcases max_choice (min ⌊(length : ℚ) * scale⌋₊ u32Max / 2 * 2) 2 with h | h
  · rw [h]
    exact Nat.dvd_mul_left 2 _
  · rw [h]

/-- The scaled frame has at most the given number of macroblocks. -/
theorem IsBoxScale.macroblocks_le (h : IsBoxScale width height maxMacroblocks scale)
    (hwidth : 0 < width) (hheight : 0 < height) (hpos : 0 < maxMacroblocks) :
    macroblocks (scaledLength width scale) (scaledLength height scale) ≤ maxMacroblocks := by
  rcases h with rfl | ⟨mbWidth, mbHeight, hcolumns, hrows, hbox, -, -, rfl⟩
  · have hone : (1 : Nat) * 1 ≤ maxMacroblocks := hpos
    refine (RemoteDesktop.macroblocks_le ?_ ?_).trans hone <;>
      exact scaledLength_le (by decide) (by simp)
  · obtain ⟨hw, hh⟩ := mul_boxScale_le hwidth hheight mbWidth mbHeight
    refine (RemoteDesktop.macroblocks_le ?_ ?_).trans hbox
    · exact scaledLength_le (by omega) hw
    · exact scaledLength_le (by omega) hh

/-- A request that is too large is not enlarged. -/
theorem IsBoxScale.le_one (h : IsBoxScale width height maxMacroblocks scale) (hwidth : 0 < width)
    (hheight : 0 < height) (hlarge : maxMacroblocks < macroblocks width height) : scale ≤ 1 := by
  rcases h with rfl | ⟨mbWidth, mbHeight, -, -, hbox, -, -, rfl⟩
  · exact zero_le_one
  · -- otherwise the box would hold the whole request
    by_contra hone
    push Not at hone
    obtain ⟨hw, hh⟩ := mul_boxScale_le hwidth hheight mbWidth mbHeight
    have hin : ∀ {length mb : Nat}, (length : ℚ) * boxScale width height mbWidth mbHeight ≤
        (16 * mb : Nat) → length ≤ 16 * mb := by
      intro length mb hle
      have hlength : (length : ℚ) ≤ (length : ℚ) * boxScale width height mbWidth mbHeight :=
        le_mul_of_one_le_right (Nat.cast_nonneg _) hone.le
      exact Nat.cast_le.1 (hlength.trans hle)
    have hfits := RemoteDesktop.macroblocks_le (hin hw) (hin hh)
    exact absurd hlarge (not_lt.2 (hfits.trans hbox))

/-! ## The fitted resolution -/

/-- What a fitted resolution is for a request of at least two by two. -/
structure Fitted (requested resolution : VideoResolution) (maxMacroblocks : Nat) : Prop where
  width_even : 2 ∣ resolution.width
  height_even : 2 ∣ resolution.height
  width_pos : 0 < resolution.width
  height_pos : 0 < resolution.height
  width_le : resolution.width ≤ requested.width
  height_le : resolution.height ≤ requested.height
  frame : macroblocks resolution.width resolution.height ≤ maxMacroblocks

theorem fitted_fitResolutionToMacroblocks {requested : VideoResolution}
    (hwidth : 2 ≤ requested.width) (hheight : 2 ≤ requested.height) (hpos : 0 < maxMacroblocks) :
    Fitted requested (fitResolutionToMacroblocks requested maxMacroblocks) maxMacroblocks := by
  obtain ⟨width, height⟩ := requested
  dsimp only at hwidth hheight
  unfold fitResolutionToMacroblocks
  split
  next hfits =>
    have hevenPos : ∀ {n : Nat}, 2 ≤ n → 0 < evenDown n := fun hn =>
      Nat.mul_pos (Nat.div_pos hn two_pos) two_pos
    refine ⟨Nat.dvd_mul_left 2 _, Nat.dvd_mul_left 2 _, hevenPos hwidth, hevenPos hheight,
      evenDown_le _, evenDown_le _, ?_⟩
    exact (macroblocks_mono (evenDown_le _) (evenDown_le _)).trans hfits
  next hlarge =>
    have hlarge' : maxMacroblocks < macroblocks width height := not_le.1 hlarge
    dsimp only
    rw [max_eq_left hwidth, max_eq_left hheight]
    have hbox := isBoxScale_bestScale width height maxMacroblocks
    have hw : 0 < width := by omega
    have hh : 0 < height := by omega
    have hone := hbox.le_one hw hh hlarge'
    have hshrinks : ∀ length : Nat,
        (length : ℚ) * bestScale width height maxMacroblocks ≤ length := fun length =>
      mul_le_of_le_one_right (Nat.cast_nonneg _) hone
    exact ⟨scaledLength_even _ _, scaledLength_even _ _, two_pos.trans_le (le_max_right _ _),
      two_pos.trans_le (le_max_right _ _), scaledLength_le hwidth (hshrinks width),
      scaledLength_le hheight (hshrinks height), hbox.macroblocks_le hw hh hpos⟩

/-! ## Respecting the limits -/

namespace H264ReceiveLimits

theorem maxMacroblocksPerFrame_pos (l : H264ReceiveLimits) : 0 < l.maxMacroblocksPerFrame :=
  l.level.maxMacroblocksPerFrame_pos.trans_le l.frame.2

/-- The result of a request keeps to the limits, and is the request itself, up to even lengths,
where that keeps to them. -/
structure Respects (l : H264ReceiveLimits) (fps : Nat) (requested : VideoResolution) (bitrate : Nat)
    (outFps : Nat) (resolution : VideoResolution) (outBitrate : Nat) : Prop where
  fitted : Fitted requested resolution l.maxMacroblocksPerFrame
  second : outFps * macroblocks resolution.width resolution.height ≤ l.maxMacroblocksPerSecond
  fps_le : outFps ≤ fps
  bitrate_le : outBitrate ≤ l.maxBitrateKbps
  unchanged : macroblocks requested.width requested.height ≤ l.maxMacroblocksPerFrame →
    fps * macroblocks requested.width requested.height ≤ l.maxMacroblocksPerSecond →
    bitrate ≤ l.maxBitrateKbps →
      resolution = ⟨evenDown requested.width, evenDown requested.height⟩ ∧ outFps = fps ∧
        outBitrate = bitrate

/-- A capture request of the remote side, in the range of the source's integers. -/
structure Request where
  fps : Nat
  resolution : VideoResolution
  bitrate : Nat
  fps_pos : 1 ≤ fps
  width_ge : 2 ≤ resolution.width
  height_ge : 2 ≤ resolution.height
  width_le : resolution.width ≤ u32Max
  height_le : resolution.height ≤ u32Max

/-- The request is answered, within the limits. -/
def Answers (l : H264ReceiveLimits) (r : Request) : Prop :=
  ∃ outFps resolution outBitrate,
    l.constrain ⟨r.fps, some r.resolution⟩ r.bitrate = .ok (⟨outFps, some resolution⟩, outBitrate) ∧
      l.Respects r.fps r.resolution r.bitrate outFps resolution outBitrate

/-- Every frame within the limit for frames is within the limit for seconds. -/
def FramesAffordable (l : H264ReceiveLimits) : Prop :=
  ∀ width height, width ≤ u32Max → height ≤ u32Max →
    macroblocks width height ≤ l.maxMacroblocksPerFrame →
      macroblocks width height ≤ l.maxMacroblocksPerSecond

/-- For one request all depends on whether a second has the macroblocks of the fitted frame. -/
theorem answers_iff (l : H264ReceiveLimits) (r : Request) :
    l.Answers r ↔
      macroblocks (fitResolutionToMacroblocks r.resolution l.maxMacroblocksPerFrame).width
        (fitResolutionToMacroblocks r.resolution l.maxMacroblocksPerFrame).height ≤
          l.maxMacroblocksPerSecond := by
  have hfitted := fitted_fitResolutionToMacroblocks r.width_ge r.height_ge
    l.maxMacroblocksPerFrame_pos
  generalize hfit : fitResolutionToMacroblocks r.resolution l.maxMacroblocksPerFrame = fitted
    at hfitted ⊢
  have hsize : 1 ≤ macroblocks fitted.width fitted.height := by
    have hcolumns : 1 ≤ divCeil fitted.width 16 := by
      have := hfitted.width_pos
      unfold divCeil
      omega
    have hrows : 1 ≤ divCeil fitted.height 16 := by
      have := hfitted.height_pos
      unfold divCeil
      omega
    exact le_min (Nat.mul_le_mul hcolumns hrows) (by decide)
  have hconstrain : l.constrain ⟨r.fps, some r.resolution⟩ r.bitrate =
      .ok (⟨min r.fps (max (l.maxMacroblocksPerSecond / macroblocks fitted.width fitted.height) 1),
        some fitted⟩, min r.bitrate l.maxBitrateKbps) := by
    simp only [constrain, hfit, max_eq_left hsize]
  constructor
  · rintro ⟨outFps, resolution, outBitrate, hok, hrespects⟩
    rw [hconstrain] at hok
    cases hok
    -- at least one frame a second is left
    refine le_trans (Nat.le_mul_of_pos_left _ ?_) hrespects.second
    exact Nat.lt_of_lt_of_le one_pos (le_min r.fps_pos (le_max_right _ _))
  · intro haffordable
    refine ⟨_, _, _, hconstrain, hfitted, ?_, min_le_left _ _, min_le_right _ _, ?_⟩
    · have hone : 1 ≤ l.maxMacroblocksPerSecond / macroblocks fitted.width fitted.height :=
        (Nat.one_le_div_iff hsize).2 haffordable
      rw [max_eq_left hone]
      exact (Nat.mul_le_mul_right _ (min_le_right _ _)).trans (Nat.div_mul_le_self _ _)
    · intro hframe hsecond hbitrate
      have heven : fitted = ⟨evenDown r.resolution.width, evenDown r.resolution.height⟩ := by
        rw [← hfit, fitResolutionToMacroblocks, if_pos hframe]
      refine ⟨heven, min_eq_left ?_, min_eq_left hbitrate⟩
      refine le_max_of_le_left ((Nat.le_div_iff_mul_le hsize).2 (le_trans ?_ hsecond))
      exact Nat.mul_le_mul_left _ (macroblocks_mono hfitted.width_le hfitted.height_le)

/-- An even length with as many macroblocks. -/
def wholeColumns (length : Nat) : Nat := 16 * divCeil length 16 - 2

/-- What `wholeColumns` makes of a length. -/
structure WholeColumns (length : Nat) : Prop where
  columns : divCeil (wholeColumns length) 16 = divCeil length 16
  even : evenDown (wholeColumns length) = wholeColumns length
  two_le : 2 ≤ wholeColumns length
  le_max : wholeColumns length ≤ u32Max

theorem wholeColumns_spec (hpos : 0 < length) (hmax : length ≤ u32Max) : WholeColumns length := by
  unfold u32Max at hmax
  refine ⟨?_, ?_, ?_, ?_⟩
  · unfold wholeColumns divCeil
    omega
  · unfold wholeColumns divCeil evenDown
    omega
  · unfold wholeColumns divCeil
    omega
  · unfold wholeColumns divCeil u32Max
    omega

/-- All requests are answered within the limits exactly if no frame that the receiver takes uses
more macroblocks than it takes in a second. -/
theorem constrain_respects_iff (l : H264ReceiveLimits) :
    (∀ r : Request, l.Answers r) ↔ l.FramesAffordable := by
  constructor
  · intro hall width height hwidth hheight hframe
    by_cases hzero : width = 0 ∨ height = 0
    · have hnone : macroblocks width height = 0 := by
        rcases hzero with rfl | rfl <;> simp [macroblocks, u32Mul, divCeil]
      rw [hnone]
      exact Nat.zero_le _
    · -- a request with the same macroblocks and even lengths is answered with this resolution
      push Not at hzero
      have hw := wholeColumns_spec (Nat.pos_of_ne_zero hzero.1) hwidth
      have hh := wholeColumns_spec (Nat.pos_of_ne_zero hzero.2) hheight
      have hsame : macroblocks (wholeColumns width) (wholeColumns height) =
          macroblocks width height := by rw [macroblocks, hw.columns, hh.columns, macroblocks]
      have hanswers := hall
        { fps := 1
          resolution := ⟨wholeColumns width, wholeColumns height⟩
          bitrate := 0
          fps_pos := le_rfl
          width_ge := hw.two_le
          height_ge := hh.two_le
          width_le := hw.le_max
          height_le := hh.le_max }
      rw [answers_iff, fitResolutionToMacroblocks, if_pos (hsame.trans_le hframe)] at hanswers
      dsimp only at hanswers
      rwa [hw.even, hh.even, hsame] at hanswers
  · intro haffordable r
    rw [answers_iff]
    have hfitted := fitted_fitResolutionToMacroblocks r.width_ge r.height_ge
      l.maxMacroblocksPerFrame_pos
    exact haffordable _ _ (hfitted.width_le.trans r.width_le) (hfitted.height_le.trans r.height_le)
      hfitted.frame

/-- A receiver of level 1.0 that takes frames of 5000 macroblocks: one frame of 1280 by 720 a second
is more than the 1485 macroblocks it takes in a second. -/
theorem constrain_exceeds_second :
    ∃ l, new .level1_0 (some 5000) none none = .ok l ∧
      l.constrain ⟨30, some ⟨1280, 720⟩⟩ 500 = .ok (⟨1, some ⟨1280, 720⟩⟩, 64) ∧
      ¬ 1 * macroblocks 1280 720 ≤ l.maxMacroblocksPerSecond :=
  ⟨_, rfl, rfl, by decide⟩

end H264ReceiveLimits

end EasyNetDaemon.RemoteDesktop
