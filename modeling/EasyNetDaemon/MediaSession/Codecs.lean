import EasyNetDaemon.MediaSession.Contract

/-!
# What the validator reads in a payload

An H264 access unit in Annex-B form is cut at its start codes; what matters is whether it has an IDR
slice, a sequence parameter set and a picture parameter set, the size of its largest unit, and the
dimensions in the parameter set. Of an Opus packet only the duration is computed.
-/

namespace EasyNetDaemon.MediaSession

open Library

/-! ## Annex-B -/

/-- `find_annex_b_start_code`: what stands before the next start code and what follows it. -/
def findAnnexBStartCode : List UInt8 → Option (List UInt8 × List UInt8)
  | 0 :: 0 :: 0 :: 1 :: rest => some ([], rest)
  | 0 :: 0 :: 1 :: rest => some ([], rest)
  | b :: rest => (findAnnexBStartCode rest).map fun (before, after) => (b :: before, after)
  | [] => none

/-- The units behind a start code. The fuel is the length of the access unit. -/
def nalUnits : Nat → List UInt8 → Except ValidationError (List (List UInt8))
  | 0, _ => .ok []
  | fuel + 1, bytes =>
    match findAnnexBStartCode bytes with
    | none => do
      bailIf bytes.isEmpty ⟨"H264 Annex-B contains an empty NAL"⟩
      .ok [bytes]
    | some (nal, rest) => do
      bailIf nal.isEmpty ⟨"H264 Annex-B contains an empty NAL"⟩
      let nals ← nalUnits fuel rest
      .ok (nal :: nals)

/-- `H264Inspection`. -/
structure H264Inspection where
  hasIdr : Bool
  hasSps : Bool
  hasPps : Bool
  sps : Option (List UInt8)
  maxNalUnitBytes : Nat
deriving DecidableEq, Repr

/-- The type of a unit. -/
def nalType (nal : List UInt8) : UInt8 := nal.headD 0 &&& 0x1f

/-- One unit of the loop of `inspect_h264_annex_b`. -/
def H264Inspection.add (inspection : H264Inspection) (nal : List UInt8) : H264Inspection :=
  { hasIdr := inspection.hasIdr || nalType nal == 5
    hasSps := inspection.hasSps || nalType nal == 7
    hasPps := inspection.hasPps || nalType nal == 8
    sps := if nalType nal == 7 then some nal else inspection.sps
    maxNalUnitBytes := max inspection.maxNalUnitBytes nal.length }

/-- `inspect_h264_annex_b`. -/
def inspectH264AnnexB (payload : List UInt8) : Except ValidationError H264Inspection :=
  match findAnnexBStartCode payload with
  | some ([], rest) => do
    let nals ← nalUnits payload.length rest
    .ok (nals.foldl H264Inspection.add
      { hasIdr := false, hasSps := false, hasPps := false, sps := none, maxNalUnitBytes := 0 })
  | _ => .error ⟨"H264 access unit is not canonical Annex-B"⟩

/-- The access unit can be decoded without any before it. -/
def H264Inspection.recoveryIdr (inspection : H264Inspection) : Bool :=
  inspection.hasIdr && inspection.hasSps && inspection.hasPps

/-! ## Sequence parameter set -/

/-- `remove_emulation_prevention`; the number counts the zero bytes just passed. -/
def removeEmulationPrevention : Nat → List UInt8 → List UInt8
  | _, [] => []
  | zeroes, b :: rest =>
    if zeroes ≥ 2 ∧ b = 3 then removeEmulationPrevention 0 rest
    else b :: removeEmulationPrevention (if b = 0 then min (zeroes + 1) 255 else 0) rest

/-- The bits of a byte string, the most significant one first. -/
def bitsOf (bytes : List UInt8) : List Bool :=
  bytes.flatMap fun b => [7, 6, 5, 4, 3, 2, 1, 0].map fun i => (b >>> i) &&& 1 == 1

/-- `BitReader`: the bits that are left. -/
abbrev BitReader : Type := List Bool

namespace BitReader

/-- Takes a bit. -/
def readBit : BitReader → Except ValidationError (Nat × BitReader)
  | [] => .error ⟨"truncated H264 SPS"⟩
  | bit :: rest => .ok (bit.toNat, rest)

/-- The zeroes before the first one, which is read, too. -/
def leadingZeroes : Nat → BitReader → Except ValidationError (Nat × BitReader)
  | _, [] => .error ⟨"truncated H264 SPS"⟩
  | count, true :: rest => .ok (count, rest)
  | count, false :: rest =>
    if count + 1 > 31 then .error ⟨"oversized H264 Exp-Golomb value"⟩
    else leadingZeroes (count + 1) rest

/-- A number of bits, after those already read. -/
def readBits : Nat → Nat → BitReader → Except ValidationError (Nat × BitReader)
  | 0, suffix, reader => .ok (suffix, reader)
  | n + 1, suffix, reader => do
    let (bit, reader) ← readBit reader
    readBits n (2 * suffix + bit) reader

/-- `read_ue`; with at most 31 leading zeroes the sum fits into `u32`. -/
def readUe (reader : BitReader) : Except ValidationError (Nat × BitReader) := do
  let (zeroes, reader) ← leadingZeroes 0 reader
  let (suffix, reader) ← readBits zeroes 0 reader
  .ok (2 ^ zeroes - 1 + suffix, reader)

/-- `read_ue` a number of times; `read_se` reads the same bits, and its value is not used. -/
def skipUe : Nat → BitReader → Except ValidationError BitReader
  | 0, reader => .ok reader
  | n + 1, reader => do
    let (_, reader) ← readUe reader
    skipUe n reader

end BitReader

/-- `ParsedSps`. -/
structure ParsedSps where
  profileIdc : UInt8
  levelIdc : UInt8
  width : Nat
  height : Nat
deriving DecidableEq, Repr

/-- The part of `parse_baseline_sps` for the picture order count. -/
def skipPictureOrder (reader : BitReader) : Except ValidationError BitReader := do
  let (pocType, reader) ← reader.readUe
  match pocType with
  | 0 => reader.skipUe 1
  | 1 => do
    let (_, reader) ← reader.readBit
    let reader ← reader.skipUe 2
    let (cycle, reader) ← reader.readUe
    bailIf (cycle > 256) ⟨"H264 SPS POC cycle is oversized"⟩
    reader.skipUe cycle
  | 2 => .ok reader
  | _ => .error ⟨"unsupported H264 SPS POC type"⟩

/-- `a.checked_sub((l + r).checked_mul(factor)?)`; the sum of the two crops wraps. -/
def cropped (size l r factor : Nat) : Option Nat :=
  let crop := (l + r) % 2 ^ 32 * factor
  if crop < 2 ^ 32 ∧ crop ≤ size then some (size - crop) else none

/-- `checked_add(1)`, then `checked_mul(16 * factor)` in steps that fail together. -/
def macroblocks (count factor : Nat) : Option Nat :=
  if count + 1 < 2 ^ 32 ∧ (count + 1) * 16 * factor < 2 ^ 32 then some ((count + 1) * 16 * factor)
  else none

/-- `parse_baseline_sps`. -/
def parseBaselineSps (nal : List UInt8) : Except ValidationError ParsedSps := do
  bailIf (nal.length < 5 || nalType nal != 7) ⟨"invalid H264 SPS NAL"⟩
  let rbsp := removeEmulationPrevention 0 nal.tail
  bailIf (rbsp.length < 4 || rbsp.headD 0 != 66)
    ⟨"RemoteApp media-host v1 requires H264 Baseline SPS"⟩
  let reader ← BitReader.skipUe 2 (bitsOf (rbsp.drop 3))
  let reader ← skipPictureOrder reader
  let reader ← reader.skipUe 1
  let (_, reader) ← reader.readBit
  let (widthInMbs, reader) ← reader.readUe
  let (heightInMapUnits, reader) ← reader.readUe
  let (frameMbsOnly, reader) ← reader.readBit
  let reader ← if frameMbsOnly = 0 then (fun p => p.2) <$> reader.readBit else .ok reader
  let (_, reader) ← reader.readBit
  let (frameCropping, reader) ← reader.readBit
  let (left, right, top, bottom) ← if frameCropping ≠ 0 then do
      let (left, reader) ← reader.readUe
      let (right, reader) ← reader.readUe
      let (top, reader) ← reader.readUe
      let (bottom, _) ← reader.readUe
      .ok (left, right, top, bottom)
    else .ok (0, 0, 0, 0)
  let frameFactor := 2 - frameMbsOnly
  match (macroblocks widthInMbs 1).bind (cropped · left right 2),
      (macroblocks heightInMapUnits frameFactor).bind (cropped · top bottom (2 * frameFactor)) with
  | none, _ => .error ⟨"H264 SPS cropped width overflow"⟩
  | some _, none => .error ⟨"H264 SPS cropped height overflow"⟩
  | some width, some height =>
    .ok { profileIdc := rbsp.headD 0, levelIdc := rbsp.getD 2 0, width, height }

/-! ## Opus -/

/-- The samples of one frame of a packet, from its first byte. -/
def opusSamplesPerFrame (toc : UInt8) : Nat :=
  if toc &&& 0x80 ≠ 0 then 48000 * 2 ^ ((toc >>> 3) &&& 0x03).toNat / 400
  else if toc &&& 0x60 = 0x60 then if toc &&& 0x08 ≠ 0 then 48000 / 50 else 48000 / 100
  else if (toc >>> 3) &&& 0x03 = 3 then 48000 * 60 / 1000
  else 48000 * 2 ^ ((toc >>> 3) &&& 0x03).toNat / 100

/-- `opus_packet_samples_48khz`. -/
def opusPacketSamples48khz (payload : List UInt8) : Except ValidationError Nat :=
  match payload with
  | [] => .error ⟨"empty Opus packet"⟩
  | toc :: rest => do
    let frames ← match (toc &&& 0x03).toNat, rest with
      | 0, _ => .ok 1
      | 1, _ | 2, _ => .ok 2
      | _, [] => .error ⟨"truncated Opus frame-count byte"⟩
      | _, count :: _ => .ok (count &&& 0x3f).toNat
    let total := opusSamplesPerFrame toc * frames
    bailIf (frames == 0 || total > 5760) ⟨"invalid Opus packet duration"⟩
    .ok total

end EasyNetDaemon.MediaSession
