import EasyNetDaemon.Library.MachineSizes
import EasyNetDaemon.SharedMedia.Notification

/-!
# The layout of a shared media lane

A lane is a mapped file: a control region of fixed size with a header and one control block for each
slot, and a data region with the slots, one stride apart. The constructor of a layout checks the
number of slots and their capacity; the sizes and offsets computed from them later are checked
again, one by one.

Within the limits of the constructor none of these computations overflows and none of the later
checks fails: every slot lies in the data region, no two slots share a byte, and the stride is at
least the capacity and a multiple of the alignment (`new_layoutSound`). The width of `usize` is a
parameter; it is at least 32 bits on every target.
-/

namespace EasyNetDaemon.SharedMedia

open Library Library.MachineSizes

/-! ## Sizes -/

/-- The target of the build, as far as sizes depend on it. -/
structure Target where
  usizeBits : Nat
  wide : 32 ≤ usizeBits

/-- The bytes before the lanes. -/
def controlRegionBytes : Nat := 64 * 1024

/-- The alignment of slots. -/
def slotAlignment : Nat := 64

/-- The most slots of a lane. -/
def maxSlots : Nat := 8

/-- The largest payload. -/
def maxPayloadBytes : Nat := 16 * 1024 * 1024

/-- The largest frame. -/
def maxFrameBytes : Nat := maxPayloadBytes + 128

/-- `size_of::<LaneHeader>()`: 56 bytes of fields, aligned to 64. -/
def laneHeaderBytes : Nat := 64

/-- `size_of::<SlotControl>()`: 24 bytes of fields, aligned to 64. -/
def slotControlBytes : Nat := 64

/-- `align_of::<SlotControl>()`. -/
def slotControlAlignment : Nat := 64

/-- The sixteen bytes of a generation nonce. -/
abbrev GenerationNonce : Type := { bytes : List UInt8 // bytes.length = 16 }

/-- A lane in the shared memory. -/
structure SharedMediaLaneLayout where
  lane : MediaLane
  slotCount : UInt32
  slotCapacity : UInt32
  slotStride : UInt32
  generationNonce : GenerationNonce
deriving DecidableEq

/-- `ok_or_else` with an `Invalid` error. -/
def orInvalid (value : Option Nat) (detail : String) : Except SharedMediaLaneError Nat :=
  match value with
  | some n => .ok n
  | none => .error (.invalid detail)

/-- `slot_controls_offset`; the source expects that it does not overflow. -/
def slotControlsOffset (target : Target) : Option Nat :=
  alignUp target.usizeBits laneHeaderBytes slotControlAlignment

namespace SharedMediaLaneLayout

/-- `SharedMediaLaneLayout::new`. -/
def new (target : Target) (lane : MediaLane) (slotCount slotCapacity : UInt32)
    (generationNonce : GenerationNonce) : Except SharedMediaLaneError SharedMediaLaneLayout := do
  bailIf (lane = .control) (.invalid "control events cannot use the shared media hot lane")
  bailIf (slotCount.toNat = 0 || maxSlots < slotCount.toNat)
    (.invalid ("slot count must be in 1..=" ++ toString maxSlots))
  bailIf (slotCapacity.toNat = 0 || maxFrameBytes < slotCapacity.toNat)
    (.invalid ("slot capacity must be in 1..=" ++ toString maxFrameBytes))
  bailIf (generationNonce.val.all (· == 0)) (.invalid "generation nonce cannot be all zero")
  let slotStride ← orInvalid (alignUp target.usizeBits slotCapacity.toNat slotAlignment)
    "slot stride overflow"
  let controlsOffset ← orInvalid (slotControlsOffset target)
    "fixed lane header alignment cannot overflow"
  let controlBytes ← orInvalid
    (checkedAdd target.usizeBits controlsOffset
      (saturatingMul target.usizeBits slotCount.toNat slotControlBytes))
    "control layout overflow"
  bailIf (controlRegionBytes < controlBytes)
    (.invalid "slot controls exceed the fixed control region")
  bailIf (2 ^ 32 ≤ slotStride) (.invalid "slot stride exceeds u32")
  return { lane, slotCount, slotCapacity, slotStride := .ofNat slotStride, generationNonce }

/-- `SharedMediaLaneLayout::file_len`, in `u64`. -/
def fileLen (layout : SharedMediaLaneLayout) : Except SharedMediaLaneError Nat := do
  let dataBytes ← orInvalid (checkedMul 64 layout.slotStride.toNat layout.slotCount.toNat)
    "data layout overflow"
  orInvalid (checkedAdd 64 controlRegionBytes dataBytes) "mapping length overflow"

/-- `data_region_len`. -/
def dataRegionLen (target : Target) (layout : SharedMediaLaneLayout) :
    Except SharedMediaLaneError Nat :=
  orInvalid (checkedMul target.usizeBits layout.slotStride.toNat layout.slotCount.toNat)
    "data mapping length overflow"

/-- `slot_range`: the first byte of a frame in its slot and the one after it. -/
def slotRange (target : Target) (layout : SharedMediaLaneLayout) (slotIndex frameLen : Nat) :
    Except SharedMediaLaneError (Nat × Nat) := do
  let start ← orInvalid (checkedMul target.usizeBits slotIndex layout.slotStride.toNat)
    "slot offset overflow"
  let stop ← orInvalid (checkedAdd target.usizeBits start frameLen) "slot range overflow"
  let regionLen ← dataRegionLen target layout
  bailIf (regionLen < stop) (.invalid "slot range exceeds data mapping")
  return (start, stop)

/-! ## What the constructor accepts -/

/-- The limits that the constructor states. -/
structure WithinLimits (lane : MediaLane) (slotCount slotCapacity : UInt32)
    (generationNonce : GenerationNonce) : Prop where
  mediaLane : lane ≠ .control
  count : 1 ≤ slotCount.toNat ∧ slotCount.toNat ≤ maxSlots
  capacity : 1 ≤ slotCapacity.toNat ∧ slotCapacity.toNat ≤ maxFrameBytes
  nonce : ∃ b ∈ generationNonce.val, b ≠ 0

/-- The stride of slots with this capacity: the next multiple of the alignment. -/
def strideFor (slotCapacity : Nat) : Nat :=
  (slotCapacity + (slotAlignment - 1)) / slotAlignment * slotAlignment

section Stride

variable {slotCapacity : Nat}

theorem strideFor_bounds : slotCapacity ≤ strideFor slotCapacity ∧
    strideFor slotCapacity ≤ slotCapacity + (slotAlignment - 1) :=
  rounded_bounds slotCapacity (by decide)

theorem slotAlignment_dvd_strideFor : slotAlignment ∣ strideFor slotCapacity :=
  Nat.dvd_mul_left _ _

/-- What is below `2 ^ 32` fits into `usize`. -/
theorem lt_usize (target : Target) {n : Nat} (h : n < 2 ^ 32) : n < 2 ^ target.usizeBits :=
  Nat.lt_of_lt_of_le h (Nat.pow_le_pow_right Nat.two_pos target.wide)

theorem alignUp_slotCapacity (target : Target) (h : slotCapacity ≤ maxFrameBytes) :
    alignUp target.usizeBits slotCapacity slotAlignment = some (strideFor slotCapacity) := by
  have hfits : slotCapacity + (2 ^ 6 - 1) < 2 ^ target.usizeBits := by
    apply lt_usize
    unfold maxFrameBytes maxPayloadBytes at h
    omega
  exact alignUp_eq (Nat.le_trans (by decide) target.wide) hfits

theorem slotControlsOffset_eq (target : Target) : slotControlsOffset target = some 64 :=
  alignUp_eq (k := 6) (Nat.le_trans (by decide) target.wide) (lt_usize target (by decide))

end Stride

theorem orInvalid_eq_ok_iff {value : Option Nat} {detail : String} {n : Nat} :
    orInvalid value detail = .ok n ↔ value = some n := by
  cases value <;> simp [orInvalid]

/-- The control blocks of all slots fit behind the header. -/
theorem controlBytes_eq (target : Target) {count : Nat} (h : count ≤ maxSlots) :
    saturatingMul target.usizeBits count slotControlBytes = count * slotControlBytes ∧
      checkedAdd target.usizeBits 64 (count * slotControlBytes) =
        some (64 + count * slotControlBytes) ∧
      64 + count * slotControlBytes ≤ controlRegionBytes := by
  have hsmall : 64 + count * slotControlBytes ≤ 576 := by
    unfold slotControlBytes maxSlots at *
    omega
  refine ⟨saturatingMul_eq (lt_usize target ?_), checkedAdd_eq (lt_usize target ?_), ?_⟩
  · omega
  · omega
  · exact Nat.le_trans hsmall (by decide)

/-- The constructor accepts exactly what is within the limits: its checks of the sizes never
fail. -/
theorem new_eq_ok_iff {target : Target} {lane : MediaLane} {slotCount slotCapacity : UInt32}
    {generationNonce : GenerationNonce} {layout : SharedMediaLaneLayout} :
    new target lane slotCount slotCapacity generationNonce = .ok layout ↔
      WithinLimits lane slotCount slotCapacity generationNonce ∧
        layout = { lane, slotCount, slotCapacity, generationNonce,
                   slotStride := .ofNat (strideFor slotCapacity.toNat) } := by
  simp only [new, bind_eq_ok_iff, bailIf_eq_ok_iff, orInvalid_eq_ok_iff]
  constructor
  · rintro ⟨_, hlane, _, hcount, _, hcapacity, _, hnonce, stride, hstride, _, _, _, _, _, _, _, _,
      hlayout⟩
    have hlimits : WithinLimits lane slotCount slotCapacity generationNonce :=
      { mediaLane := by simpa using hlane
        count := by
          simp only [Bool.or_eq_false_iff, decide_eq_false_iff_not] at hcount
          omega
        capacity := by
          simp only [Bool.or_eq_false_iff, decide_eq_false_iff_not] at hcapacity
          omega
        nonce := by simpa using hnonce }
    rw [alignUp_slotCapacity target hlimits.capacity.2] at hstride
    cases hstride
    exact ⟨hlimits, (Except.ok.inj hlayout).symm⟩
  · rintro ⟨⟨hlane, hcount, hcapacity, hnonce⟩, rfl⟩
    obtain ⟨hmul, hadd, hregion⟩ := controlBytes_eq target hcount.2
    have hstride := (@strideFor_bounds slotCapacity.toNat).2
    have hfits : strideFor slotCapacity.toNat < 2 ^ 32 := by
      have hlarge : maxFrameBytes + (slotAlignment - 1) < 2 ^ 32 := by decide
      omega
    refine ⟨(), by simpa using hlane, (), ?_, (), ?_, (), by simpa using hnonce, _,
      alignUp_slotCapacity target hcapacity.2, _, slotControlsOffset_eq target, _,
      by rw [hmul, hadd], (), ?_, (), ?_, rfl⟩
    · simp only [Bool.or_eq_false_iff, decide_eq_false_iff_not]
      omega
    · simp only [Bool.or_eq_false_iff, decide_eq_false_iff_not]
      omega
    · exact decide_eq_false (Nat.not_lt.2 hregion)
    · exact decide_eq_false (Nat.not_le.2 hfits)

/-! ## What an accepted layout guarantees -/

/-- The guarantees of a layout: the exact sizes, and where the slots lie. -/
structure LayoutSound (target : Target) (layout : SharedMediaLaneLayout) : Prop where
  /-- The stride is computed without overflow. -/
  stride : alignUp target.usizeBits layout.slotCapacity.toNat slotAlignment =
    some layout.slotStride.toNat
  stride_ge : layout.slotCapacity ≤ layout.slotStride
  stride_aligned : slotAlignment ∣ layout.slotStride.toNat
  /-- The control blocks begin behind the header and end in the control region. -/
  controls : ∃ offset, slotControlsOffset target = some offset ∧ laneHeaderBytes ≤ offset ∧
    slotControlAlignment ∣ offset ∧
    saturatingMul target.usizeBits layout.slotCount.toNat slotControlBytes =
      layout.slotCount.toNat * slotControlBytes ∧
    ∃ controlBytes, checkedAdd target.usizeBits offset
        (layout.slotCount.toNat * slotControlBytes) = some controlBytes ∧
      controlBytes ≤ controlRegionBytes ∧
      ∀ slotIndex < layout.slotCount.toNat,
        offset + slotIndex * slotControlBytes + slotControlBytes ≤ controlBytes
  /-- The regions have their exact lengths. -/
  dataRegion : dataRegionLen target layout =
    .ok (layout.slotStride.toNat * layout.slotCount.toNat)
  file : fileLen layout =
    .ok (controlRegionBytes + layout.slotStride.toNat * layout.slotCount.toNat)
  /-- Every slot lies in the data region and begins at a multiple of the alignment. -/
  slots : ∀ slotIndex < layout.slotCount.toNat, ∀ frameLen ≤ layout.slotCapacity.toNat,
    ∃ start, slotRange target layout slotIndex frameLen = .ok (start, start + frameLen) ∧
      start = slotIndex * layout.slotStride.toNat ∧ slotAlignment ∣ start ∧
      start + frameLen ≤ layout.slotStride.toNat * layout.slotCount.toNat
  /-- No two slots share a byte. -/
  disjoint : ∀ slotIndex < layout.slotCount.toNat, ∀ slotIndex' < layout.slotCount.toNat,
    slotIndex ≠ slotIndex' → ∀ frameLen ≤ layout.slotCapacity.toNat,
    ∀ frameLen' ≤ layout.slotCapacity.toNat, ∀ start stop start' stop',
    slotRange target layout slotIndex frameLen = .ok (start, stop) →
    slotRange target layout slotIndex' frameLen' = .ok (start', stop') →
    ∀ byte, ¬ ((start ≤ byte ∧ byte < stop) ∧ (start' ≤ byte ∧ byte < stop'))

/-- A slot before another one ends before it begins. -/
theorem slot_end_le {slotIndex slotIndex' stride frameLen capacity : Nat}
    (hindex : slotIndex < slotIndex') (hlen : frameLen ≤ capacity) (hstride : capacity ≤ stride) :
    slotIndex * stride + frameLen ≤ slotIndex' * stride := by
  have hnext : (slotIndex + 1) * stride ≤ slotIndex' * stride := Nat.mul_le_mul_right stride hindex
  rw [Nat.succ_mul] at hnext
  omega

section Accepted

variable {target : Target} {layout : SharedMediaLaneLayout}

/-- The facts about an accepted layout that its sizes follow from. -/
structure Accepted (layout : SharedMediaLaneLayout) : Prop where
  count : layout.slotCount.toNat ≤ maxSlots
  capacity : layout.slotCapacity.toNat ≤ maxFrameBytes
  stride : layout.slotStride.toNat = strideFor layout.slotCapacity.toNat

theorem accepted_of_new {lane : MediaLane} {slotCount slotCapacity : UInt32}
    {generationNonce : GenerationNonce}
    (h : new target lane slotCount slotCapacity generationNonce = .ok layout) :
    Accepted layout := by
  obtain ⟨hlimits, rfl⟩ := new_eq_ok_iff.1 h
  refine ⟨hlimits.count.2, hlimits.capacity.2, UInt32.toNat_ofNat_of_lt' ?_⟩
  have hstride := (@strideFor_bounds slotCapacity.toNat).2
  have hlarge : maxFrameBytes + (slotAlignment - 1) < 2 ^ 32 := by decide
  have hcapacity := hlimits.capacity.2
  show strideFor slotCapacity.toNat < 2 ^ 32
  omega

variable (h : Accepted layout)

include h

theorem Accepted.capacity_le : layout.slotCapacity.toNat ≤ layout.slotStride.toNat := by
  rw [h.stride]
  exact strideFor_bounds.1

theorem Accepted.region_lt :
    layout.slotStride.toNat * layout.slotCount.toNat < 2 ^ 31 := by
  have hstride : layout.slotStride.toNat ≤ maxFrameBytes + (slotAlignment - 1) := by
    rw [h.stride]
    exact Nat.le_trans strideFor_bounds.2 (Nat.add_le_add_right h.capacity _)
  calc layout.slotStride.toNat * layout.slotCount.toNat
      ≤ (maxFrameBytes + (slotAlignment - 1)) * maxSlots := Nat.mul_le_mul hstride h.count
    _ < 2 ^ 31 := by decide

theorem Accepted.dataRegionLen_eq :
    dataRegionLen target layout = .ok (layout.slotStride.toNat * layout.slotCount.toNat) := by
  have hregion := h.region_lt
  rw [dataRegionLen, checkedMul_eq (lt_usize target (by omega))]
  rfl

theorem Accepted.fileLen_eq : fileLen layout =
    .ok (controlRegionBytes + layout.slotStride.toNat * layout.slotCount.toNat) := by
  have hregion := h.region_lt
  have hcontrol : controlRegionBytes < 2 ^ 31 := by decide
  rw [fileLen, checkedMul_eq (by omega)]
  show orInvalid (checkedAdd 64 _ _) _ = _
  rw [checkedAdd_eq (by omega)]
  rfl

/-- A frame that fits into a slot has its range in the data region. -/
theorem Accepted.slotRange_eq {slotIndex frameLen : Nat}
    (hindex : slotIndex < layout.slotCount.toNat) (hlen : frameLen ≤ layout.slotCapacity.toNat) :
    slotRange target layout slotIndex frameLen =
        .ok (slotIndex * layout.slotStride.toNat,
          slotIndex * layout.slotStride.toNat + frameLen) ∧
      slotIndex * layout.slotStride.toNat + frameLen ≤
        layout.slotStride.toNat * layout.slotCount.toNat := by
  have hregion := h.region_lt
  have hend : slotIndex * layout.slotStride.toNat + frameLen ≤
      layout.slotStride.toNat * layout.slotCount.toNat := by
    rw [Nat.mul_comm layout.slotStride.toNat]
    exact slot_end_le hindex hlen h.capacity_le
  refine ⟨?_, hend⟩
  rw [slotRange, checkedMul_eq (lt_usize target (by omega))]
  show (orInvalid (checkedAdd _ _ _) _ >>= _) = _
  rw [checkedAdd_eq (lt_usize target (by omega)), h.dataRegionLen_eq]
  show (bailIf (decide (_ < _)) _ >>= _) = _
  rw [decide_eq_false (Nat.not_lt.2 hend)]
  rfl

end Accepted

/-- Every layout that the constructor accepts is sound. -/
theorem new_layoutSound {target : Target} {lane : MediaLane} {slotCount slotCapacity : UInt32}
    {generationNonce : GenerationNonce} {layout : SharedMediaLaneLayout}
    (h : new target lane slotCount slotCapacity generationNonce = .ok layout) :
    LayoutSound target layout := by
  have hacc := accepted_of_new h
  have haligned : slotAlignment ∣ layout.slotStride.toNat := by
    rw [hacc.stride]
    exact slotAlignment_dvd_strideFor
  obtain ⟨hmul, hadd, hregion⟩ := controlBytes_eq target hacc.count
  refine
    { stride := ?_
      stride_ge := UInt32.le_iff_toNat_le.2 hacc.capacity_le
      stride_aligned := haligned
      controls := ⟨64, slotControlsOffset_eq target, Nat.le_refl 64, Nat.dvd_refl 64, hmul, _, hadd,
        hregion, ?_⟩
      dataRegion := hacc.dataRegionLen_eq
      file := hacc.fileLen_eq
      slots := ?_
      disjoint := ?_ }
  · rw [hacc.stride]
    exact alignUp_slotCapacity target hacc.capacity
  · intro slotIndex hindex
    rw [Nat.add_assoc]
    exact Nat.add_le_add_left (slot_end_le hindex (Nat.le_refl _) (Nat.le_refl _)) 64
  · intro slotIndex hindex frameLen hlen
    obtain ⟨hrange, hend⟩ := hacc.slotRange_eq hindex hlen
    exact ⟨_, hrange, rfl, Nat.dvd_mul_left_of_dvd haligned slotIndex, hend⟩
  · intro slotIndex hindex slotIndex' hindex' hne frameLen hlen frameLen' hlen' start stop start'
      stop' hrange hrange' byte ⟨⟨hlow, hhigh⟩, hlow', hhigh'⟩
    rw [(hacc.slotRange_eq hindex hlen).1] at hrange
    rw [(hacc.slotRange_eq hindex' hlen').1] at hrange'
    cases hrange
    cases hrange'
    -- one of the two slots comes first, and it ends before the other begins
    obtain hbefore | hafter := Nat.lt_or_gt_of_ne hne
    · have hle := slot_end_le hbefore hlen hacc.capacity_le
      omega
    · have hle := slot_end_le hafter hlen' hacc.capacity_le
      omega

/-- A lane of three video slots on a 64-bit target. -/
def threeSlots : SharedMediaLaneLayout where
  lane := .video
  slotCount := 3
  slotCapacity := 1000
  slotStride := 1024
  generationNonce := ⟨List.replicate 16 90, rfl⟩

theorem new_layoutSound_threeSlots :
    new ⟨64, by decide⟩ .video 3 1000 threeSlots.generationNonce = .ok threeSlots ∧
      LayoutSound ⟨64, by decide⟩ threeSlots := by
  have haccepted : new ⟨64, by decide⟩ .video 3 1000 threeSlots.generationNonce =
      .ok threeSlots := by
    decide +kernel
  exact ⟨haccepted, new_layoutSound haccepted⟩

end SharedMediaLaneLayout

end EasyNetDaemon.SharedMedia
