import EasyNetDaemon.MediaSession.Events

/-!
# Binary media frames

Video and audio events do not travel as JSON but as a fixed header (`RVID` with 88 bytes, `RAUD`
with 64) followed by the payload. The writer fills the header field by field, the reader takes it
apart again with checks of its own. The two are shown to be inverse to each other, for one lane and
one nonce at a time.
-/

namespace EasyNetDaemon.MediaSession

open Library
open SharedMedia (MediaLane)

/-- `FrameError`. -/
inductive FrameError
  | unexpectedEof
  | oversized
  | encode (detail : String)
  | decode (detail : String)
  | io (detail : String)
deriving DecidableEq, Repr

/-- The 16 bytes of a generation's nonce. -/
def GenerationNonce : Type := { bytes : List UInt8 // bytes.length = 16 }

instance : DecidableEq GenerationNonce :=
  inferInstanceAs (DecidableEq { bytes : List UInt8 // bytes.length = 16 })

/-- `VIDEO_FRAME_MAGIC`, the text `RVID`. -/
def videoFrameMagic : List UInt8 := [82, 86, 73, 68]

/-- `AUDIO_FRAME_MAGIC`, the text `RAUD`. -/
def audioFrameMagic : List UInt8 := [82, 65, 85, 68]

/-- The version of the format. -/
def binaryMediaFrameVersion : UInt8 := 1

/-- The length of a video header. -/
def videoFrameHeaderBytes : Nat := 88

/-- The length of an audio header. -/
def audioFrameHeaderBytes : Nat := 64

/-- The flag of a keyframe. -/
def videoFlagKeyframe : UInt8 := 1

/-- The flag of parameter sets. -/
def videoFlagSpsPps : UInt8 := 2

/-- The flag of a gap in the video. -/
def videoFlagDiscontinuity : UInt8 := 4

/-- The flag of a gap in the audio. -/
def audioFlagDiscontinuity : UInt8 := 1

/-- `binary_media_header_len`. -/
def binaryMediaHeaderLen : MediaLane → Except FrameError Nat
  | .video => .ok videoFrameHeaderBytes
  | .audio => .ok audioFrameHeaderBytes
  | .control => .error (.decode "control events do not use fixed binary media headers")

/-! ## The writer -/

/-- A flag that is set or not. -/
def flagBit (flag : UInt8) (b : Bool) : UInt8 := b.toUInt8 * flag

/-- The flags of a video frame. -/
def videoFlags (frame : VideoH264) : UInt8 :=
  flagBit videoFlagKeyframe frame.keyframe ||| flagBit videoFlagSpsPps frame.spsPpsPresent |||
    flagBit videoFlagDiscontinuity frame.discontinuity

/-- The first 24 bytes: magic, version, flags, length of the header, sequence and time. -/
def headerPrefix (magic : List UInt8) (flags : UInt8) (length : UInt16)
    (sequence observedAtMs : UInt64) : List UInt8 :=
  magic ++ [binaryMediaFrameVersion] ++ [flags] ++ u16Bytes length ++ u64Bytes sequence ++
    u64Bytes observedAtMs

/-- The bytes of an `RVID` header from offset 40 on: gate, codec generation, time stamp, duration,
width, height, the two encoder times, length of the payload. -/
def videoFields (frame : VideoH264) (payloadLen : UInt32) : List UInt8 :=
  u32Bytes frame.mediaGate ++ u32Bytes frame.codecGeneration ++ u64Bytes frame.pts90khz ++
    u32Bytes frame.duration90khz ++ u32Bytes frame.width ++ u32Bytes frame.height ++
    u64Bytes frame.encodeSubmittedAtMs ++ u64Bytes frame.encodedAtMs ++ u32Bytes payloadLen

/-- The bytes of an `RAUD` header from offset 40 on: gate, time stamp, samples, channels, a reserved
byte, sample rate, length of the payload. -/
def audioFields (packet : AudioOpus) (reserved : UInt8) (payloadLen : UInt32) : List UInt8 :=
  u32Bytes packet.mediaGate ++ u64Bytes packet.pts48khz ++ u16Bytes packet.durationSamples ++
    [packet.channels] ++ [reserved] ++ u32Bytes packet.sampleRateHz ++ u32Bytes payloadLen

/-- `encode_video_media_header`. -/
def encodeVideoMediaHeader (nonce : GenerationNonce) (sequence observedAtMs : UInt64)
    (body : EventBody) (payloadLen : Nat) : Except FrameError (List UInt8) :=
  match body with
  | .videoH264 frame => do
    bailIf (payloadLen ≥ 2 ^ 32) .oversized
    .ok (headerPrefix videoFrameMagic (videoFlags frame) 88 sequence observedAtMs ++ nonce.1 ++
      videoFields frame (.ofNat payloadLen))
  | _ => .error (.encode "video lane requires VideoH264 metadata")

/-- `encode_audio_media_header`. -/
def encodeAudioMediaHeader (nonce : GenerationNonce) (sequence observedAtMs : UInt64)
    (body : EventBody) (payloadLen : Nat) : Except FrameError (List UInt8) :=
  match body with
  | .audioOpus packet => do
    bailIf (payloadLen ≥ 2 ^ 32) .oversized
    .ok (headerPrefix audioFrameMagic (flagBit audioFlagDiscontinuity packet.discontinuity) 64
      sequence observedAtMs ++ nonce.1 ++ audioFields packet 0 (.ofNat payloadLen))
  | _ => .error (.encode "audio lane requires AudioOpus metadata")

/-- `encode_binary_media_header_compact`, with the header as the result. -/
def encodeBinaryMediaHeaderCompact (lane : MediaLane) (nonce : GenerationNonce)
    (event : BinaryMediaEvent) (payloadLen : Nat) : Except FrameError (List UInt8) := do
  let _ ← binaryMediaHeaderLen lane
  bailIf (payloadLen == 0 || payloadLen > maxPayloadBytes) .oversized
  match lane with
  | .video => encodeVideoMediaHeader nonce event.sequence event.observedAtMs event.body payloadLen
  | .audio => encodeAudioMediaHeader nonce event.sequence event.observedAtMs event.body payloadLen
  -- `unreachable!()`: there is no header length for the control lane
  | .control => .error (.encode "control events do not use fixed binary media headers")

/-- The frame of a media event: its header and its payload. -/
def encodeBinaryMediaFrame (lane : MediaLane) (nonce : GenerationNonce) (event : BinaryMediaEvent)
    (payload : List UInt8) : Except FrameError (List UInt8) := do
  let header ← encodeBinaryMediaHeaderCompact lane nonce event payload.length
  .ok (header ++ payload)

/-! ## The reader -/

/-- The video fields of a header. -/
def videoOfHeader (header : List UInt8) : VideoH264 where
  mediaGate := u32OfBytes (slice header 40 44)
  codecGeneration := u32OfBytes (slice header 44 48)
  pts90khz := u64OfBytes (slice header 48 56)
  duration90khz := u32OfBytes (slice header 56 60)
  width := u32OfBytes (slice header 60 64)
  height := u32OfBytes (slice header 64 68)
  encodeSubmittedAtMs := u64OfBytes (slice header 68 76)
  encodedAtMs := u64OfBytes (slice header 76 84)
  keyframe := header.getD 5 0 &&& videoFlagKeyframe != 0
  spsPpsPresent := header.getD 5 0 &&& videoFlagSpsPps != 0
  discontinuity := header.getD 5 0 &&& videoFlagDiscontinuity != 0

/-- The audio fields of a header. -/
def audioOfHeader (header : List UInt8) : AudioOpus where
  mediaGate := u32OfBytes (slice header 40 44)
  pts48khz := u64OfBytes (slice header 44 52)
  durationSamples := u16OfBytes (slice header 52 54)
  channels := header.getD 54 0
  discontinuity := header.getD 5 0 &&& audioFlagDiscontinuity != 0
  sampleRateHz := u32OfBytes (slice header 56 60)

/-- The part of `decode_binary_media_header_compact` that depends on the lane. -/
def decodeLaneFields (header : List UInt8) : MediaLane → Except FrameError (EventBody × Nat)
  | .video => do
    bailIf (header.getD 5 0 &&&
        ~~~(videoFlagKeyframe ||| videoFlagSpsPps ||| videoFlagDiscontinuity) != 0)
      (.decode "unknown binary video flags")
    .ok (.videoH264 (videoOfHeader header), (u32OfBytes (slice header 84 88)).toNat)
  | .audio => do
    bailIf (header.getD 5 0 &&& ~~~audioFlagDiscontinuity != 0 || header.getD 55 0 != 0)
      (.decode "invalid binary audio flags")
    .ok (.audioOpus (audioOfHeader header), (u32OfBytes (slice header 60 64)).toNat)
  -- `unreachable!()`: there is no header length for the control lane
  | .control => .error (.decode "control events do not use fixed binary media headers")

/-- The magic of the lane; the control lane has none. -/
def frameMagic : MediaLane → List UInt8
  | .video => videoFrameMagic
  | .audio => audioFrameMagic
  | .control => []

/-- `decode_binary_media_header_compact`. -/
def decodeBinaryMediaHeaderCompact (header : List UInt8) (lane : MediaLane)
    (nonce : GenerationNonce) : Except FrameError (BinaryMediaEvent × Nat) := do
  let headerLen ← binaryMediaHeaderLen lane
  bailIf (header.length != headerLen) .unexpectedEof
  bailIf (slice header 0 4 != frameMagic lane || header.getD 4 0 != binaryMediaFrameVersion ||
      (u16OfBytes (slice header 6 8)).toNat != headerLen || slice header 24 40 != nonce.1)
    (.decode "binary media frame header or generation fence mismatch")
  let (body, payloadLen) ← decodeLaneFields header lane
  bailIf (payloadLen == 0 || payloadLen > maxPayloadBytes) .oversized
  .ok ({ sequence := u64OfBytes (slice header 8 16)
         observedAtMs := u64OfBytes (slice header 16 24)
         body }, payloadLen)

/-- `decode_binary_media_event_frame_compact`. -/
def decodeBinaryMediaEventFrameCompact (frame : List UInt8) (lane : MediaLane)
    (nonce : GenerationNonce) : Except FrameError (BinaryMediaEvent × List UInt8) := do
  let headerLen ← binaryMediaHeaderLen lane
  bailIf (frame.length < headerLen) .unexpectedEof
  let (metadata, payloadLen) ← decodeBinaryMediaHeaderCompact (frame.take headerLen) lane nonce
  bailIf (frame.length != headerLen + payloadLen)
    (.decode "binary media slot length differs from its fixed header")
  let payload := frame.drop headerLen
  (metadata.validateShape lane payload).mapError fun e => .decode e.detail
  .ok (metadata, payload)

/-! ## From the bytes to the fields and back -/

variable {flags : UInt8}

section Slices

variable {header : List UInt8}

theorem u16Bytes_slice {i : Nat} (hi : i + 2 ≤ header.length) :
    u16Bytes (u16OfBytes (slice header i (i + 2))) = slice header i (i + 2) :=
  u16Bytes_u16OfBytes (by rw [length_slice hi]; omega)

theorem u32Bytes_slice {i : Nat} (hi : i + 4 ≤ header.length) :
    u32Bytes (u32OfBytes (slice header i (i + 4))) = slice header i (i + 4) :=
  u32Bytes_u32OfBytes (by rw [length_slice hi]; omega)

theorem u64Bytes_slice {i : Nat} (hi : i + 8 ≤ header.length) :
    u64Bytes (u64OfBytes (slice header i (i + 8))) = slice header i (i + 8) :=
  u64Bytes_u64OfBytes (by rw [length_slice hi]; omega)

/-- The bytes before the nonce, written again. -/
theorem headerPrefix_slices (hlen : 40 ≤ header.length)
    (hversion : header.getD 4 0 = binaryMediaFrameVersion) :
    headerPrefix (slice header 0 4) (header.getD 5 0) (u16OfBytes (slice header 6 8))
        (u64OfBytes (slice header 8 16)) (u64OfBytes (slice header 16 24)) =
      slice header 0 24 := by
  have hbyte : ∀ i < 40, [header.getD i 0] = slice header i (i + 1) :=
    fun i hi => (slice_succ 0 (by omega)).symm
  rw [headerPrefix, @u16Bytes_slice header 6 (by omega), @u64Bytes_slice header 8 (by omega),
    @u64Bytes_slice header 16 (by omega), ← hversion, hbyte 4 (by decide), hbyte 5 (by decide)]
  simp (disch := decide) only [slice_append_slice, Nat.reduceAdd]

/-- The video fields of a header, written again. -/
theorem videoFields_videoOfHeader (hlen : header.length = 88) :
    videoFields (videoOfHeader header) (u32OfBytes (slice header 84 88)) = slice header 40 88 := by
  simp only [videoFields, videoOfHeader]
  rw [@u32Bytes_slice header 40 (by omega), @u32Bytes_slice header 44 (by omega),
    @u64Bytes_slice header 48 (by omega), @u32Bytes_slice header 56 (by omega),
    @u32Bytes_slice header 60 (by omega), @u32Bytes_slice header 64 (by omega),
    @u64Bytes_slice header 68 (by omega), @u64Bytes_slice header 76 (by omega),
    @u32Bytes_slice header 84 (by omega)]
  simp (disch := decide) only [slice_append_slice, Nat.reduceAdd]

/-- The audio fields of a header, written again. -/
theorem audioFields_audioOfHeader (hlen : header.length = 64) :
    audioFields (audioOfHeader header) (header.getD 55 0) (u32OfBytes (slice header 60 64)) =
      slice header 40 64 := by
  have hbyte : ∀ i < 64, [header.getD i 0] = slice header i (i + 1) :=
    fun i hi => (slice_succ 0 (by omega)).symm
  simp only [audioFields, audioOfHeader]
  rw [@u32Bytes_slice header 40 (by omega), @u64Bytes_slice header 44 (by omega),
    @u16Bytes_slice header 52 (by omega), @u32Bytes_slice header 56 (by omega),
    @u32Bytes_slice header 60 (by omega), hbyte 54 (by decide), hbyte 55 (by decide)]
  simp (disch := decide) only [slice_append_slice, Nat.reduceAdd]

/-- The flag bytes that the reader accepts are those that the writer makes. -/
theorem videoFlags_of_known
    (h : flags &&& ~~~(videoFlagKeyframe ||| videoFlagSpsPps ||| videoFlagDiscontinuity) = 0) :
    flagBit videoFlagKeyframe (flags &&& videoFlagKeyframe != 0) |||
        flagBit videoFlagSpsPps (flags &&& videoFlagSpsPps != 0) |||
        flagBit videoFlagDiscontinuity (flags &&& videoFlagDiscontinuity != 0) = flags := by
  revert h
  refine forall_byte ?_ flags
  decide +kernel

theorem audioFlags_of_known (h : flags &&& ~~~audioFlagDiscontinuity = 0) :
    flagBit audioFlagDiscontinuity (flags &&& audioFlagDiscontinuity != 0) = flags := by
  revert h
  refine forall_byte ?_ flags
  decide +kernel

end Slices

section Fields

/-- The bytes of a header that both lanes have, read back. -/
structure Leads (magic : List UInt8) (flags : UInt8) (length : UInt16)
    (event : BinaryMediaEvent) (nonce : GenerationNonce) (header : List UInt8) : Prop where
  magic : slice header 0 4 = magic
  version : header.getD 4 0 = binaryMediaFrameVersion
  flags : header.getD 5 0 = flags
  length : slice header 6 8 = u16Bytes length
  sequence : slice header 8 16 = u64Bytes event.sequence
  observedAtMs : slice header 16 24 = u64Bytes event.observedAtMs
  nonce : slice header 24 40 = nonce.1

variable (nonce : GenerationNonce) (event : BinaryMediaEvent)

/-- The header of a video frame. -/
def videoHeader (frame : VideoH264) (payloadLen : UInt32) : List UInt8 :=
  headerPrefix videoFrameMagic (videoFlags frame) 88 event.sequence event.observedAtMs ++
    nonce.1 ++ videoFields frame payloadLen

/-- The header of an audio packet. -/
def audioHeader (packet : AudioOpus) (payloadLen : UInt32) : List UInt8 :=
  headerPrefix audioFrameMagic (flagBit audioFlagDiscontinuity packet.discontinuity) 64
    event.sequence event.observedAtMs ++ nonce.1 ++ audioFields packet 0 payloadLen

@[simp] theorem length_videoHeader (frame : VideoH264) (payloadLen : UInt32) :
    (videoHeader nonce event frame payloadLen).length = videoFrameHeaderBytes := by
  simp [videoHeader, headerPrefix, videoFields, videoFrameMagic, videoFrameHeaderBytes, nonce.2]

@[simp] theorem length_audioHeader (packet : AudioOpus) (payloadLen : UInt32) :
    (audioHeader nonce event packet payloadLen).length = audioFrameHeaderBytes := by
  simp [audioHeader, headerPrefix, audioFields, audioFrameMagic, audioFrameHeaderBytes, nonce.2]

/-- The video ranges of a header, read back. -/
structure VideoRanges (frame : VideoH264) (payloadLen : UInt32) (header : List UInt8) : Prop where
  mediaGate : slice header 40 44 = u32Bytes frame.mediaGate
  codecGeneration : slice header 44 48 = u32Bytes frame.codecGeneration
  pts90khz : slice header 48 56 = u64Bytes frame.pts90khz
  duration90khz : slice header 56 60 = u32Bytes frame.duration90khz
  width : slice header 60 64 = u32Bytes frame.width
  height : slice header 64 68 = u32Bytes frame.height
  encodeSubmittedAtMs : slice header 68 76 = u64Bytes frame.encodeSubmittedAtMs
  encodedAtMs : slice header 76 84 = u64Bytes frame.encodedAtMs
  payloadLen : slice header 84 88 = u32Bytes payloadLen

theorem ranges_videoHeader (frame : VideoH264) (payloadLen : UInt32) :
    Leads videoFrameMagic (videoFlags frame) 88 event nonce
        (videoHeader nonce event frame payloadLen) ∧
      VideoRanges frame payloadLen (videoHeader nonce event frame payloadLen) := by
  -- a number's bytes are a list of known length whatever the number, so the ranges compute
  obtain ⟨n, n', hnonce⟩ := exists_u64Bytes_append nonce.2
  obtain ⟨_, _, _, _, _, _, _, _, hn⟩ := u64Bytes_eq_cons n
  obtain ⟨_, _, _, _, _, _, _, _, hn'⟩ := u64Bytes_eq_cons n'
  obtain ⟨_, _, _, _, _, _, _, _, hsequence⟩ := u64Bytes_eq_cons event.sequence
  obtain ⟨_, _, _, _, _, _, _, _, hobserved⟩ := u64Bytes_eq_cons event.observedAtMs
  obtain ⟨_, _, _, _, hgate⟩ := u32Bytes_eq_cons frame.mediaGate
  obtain ⟨_, _, _, _, hcodec⟩ := u32Bytes_eq_cons frame.codecGeneration
  obtain ⟨_, _, _, _, _, _, _, _, hpts⟩ := u64Bytes_eq_cons frame.pts90khz
  obtain ⟨_, _, _, _, hduration⟩ := u32Bytes_eq_cons frame.duration90khz
  obtain ⟨_, _, _, _, hwidth⟩ := u32Bytes_eq_cons frame.width
  obtain ⟨_, _, _, _, hheight⟩ := u32Bytes_eq_cons frame.height
  obtain ⟨_, _, _, _, _, _, _, _, hsubmitted⟩ := u64Bytes_eq_cons frame.encodeSubmittedAtMs
  obtain ⟨_, _, _, _, _, _, _, _, hencoded⟩ := u64Bytes_eq_cons frame.encodedAtMs
  obtain ⟨_, _, _, _, hpayload⟩ := u32Bytes_eq_cons payloadLen
  constructor <;> constructor <;>
    simp only [videoHeader, headerPrefix, videoFields, hnonce, hn, hn', hsequence, hobserved,
      hgate, hcodec, hpts, hduration, hwidth, hheight, hsubmitted, hencoded, hpayload] <;> rfl

/-- The audio ranges of a header, read back. -/
structure AudioRanges (packet : AudioOpus) (payloadLen : UInt32) (header : List UInt8) : Prop where
  mediaGate : slice header 40 44 = u32Bytes packet.mediaGate
  pts48khz : slice header 44 52 = u64Bytes packet.pts48khz
  durationSamples : slice header 52 54 = u16Bytes packet.durationSamples
  channels : header.getD 54 0 = packet.channels
  reserved : header.getD 55 0 = 0
  sampleRateHz : slice header 56 60 = u32Bytes packet.sampleRateHz
  payloadLen : slice header 60 64 = u32Bytes payloadLen

theorem ranges_audioHeader (packet : AudioOpus) (payloadLen : UInt32) :
    Leads audioFrameMagic (flagBit audioFlagDiscontinuity packet.discontinuity) 64 event nonce
        (audioHeader nonce event packet payloadLen) ∧
      AudioRanges packet payloadLen (audioHeader nonce event packet payloadLen) := by
  obtain ⟨n, n', hnonce⟩ := exists_u64Bytes_append nonce.2
  obtain ⟨_, _, _, _, _, _, _, _, hn⟩ := u64Bytes_eq_cons n
  obtain ⟨_, _, _, _, _, _, _, _, hn'⟩ := u64Bytes_eq_cons n'
  obtain ⟨_, _, _, _, _, _, _, _, hsequence⟩ := u64Bytes_eq_cons event.sequence
  obtain ⟨_, _, _, _, _, _, _, _, hobserved⟩ := u64Bytes_eq_cons event.observedAtMs
  obtain ⟨_, _, _, _, hgate⟩ := u32Bytes_eq_cons packet.mediaGate
  obtain ⟨_, _, _, _, _, _, _, _, hpts⟩ := u64Bytes_eq_cons packet.pts48khz
  obtain ⟨_, _, hsamples⟩ := u16Bytes_eq_cons packet.durationSamples
  obtain ⟨_, _, _, _, hrate⟩ := u32Bytes_eq_cons packet.sampleRateHz
  obtain ⟨_, _, _, _, hpayload⟩ := u32Bytes_eq_cons payloadLen
  constructor <;> constructor <;>
    simp only [audioHeader, headerPrefix, audioFields, hnonce, hn, hn', hsequence, hobserved,
      hgate, hpts, hsamples, hrate, hpayload] <;> rfl

end Fields

/-! ## The two directions -/

/-- The bytes are the header of the event for this lane and nonce. -/
inductive HeaderOf (nonce : GenerationNonce) (event : BinaryMediaEvent) (payloadLen : UInt32) :
    MediaLane → List UInt8 → Prop
  | video (frame : VideoH264) (hbody : event.body = .videoH264 frame) :
      HeaderOf nonce event payloadLen .video (videoHeader nonce event frame payloadLen)
  | audio (packet : AudioOpus) (hbody : event.body = .audioOpus packet) :
      HeaderOf nonce event payloadLen .audio (audioHeader nonce event packet payloadLen)

section Directions

variable {lane : MediaLane} {nonce : GenerationNonce} {event : BinaryMediaEvent}
  {header payload frame : List UInt8} {n : Nat}

theorem encodeBinaryMediaHeaderCompact_eq_ok :
    encodeBinaryMediaHeaderCompact lane nonce event n = .ok header ↔
      n ≠ 0 ∧ n ≤ maxPayloadBytes ∧ HeaderOf nonce event (.ofNat n) lane header := by
  have hfits : n ≤ maxPayloadBytes → n < 2 ^ 32 := fun h => Nat.lt_of_le_of_lt h (by decide)
  constructor
  · intro h
    obtain ⟨_, hlen, h⟩ := bind_eq_ok_iff.1 h
    obtain ⟨hsize, h⟩ := check_bind_eq_ok_iff.1 h
    simp only [bailIf_eq_ok_iff, Bool.or_eq_false_iff, beq_eq_false_iff_ne,
      decide_eq_false_iff_not, Nat.not_lt] at hsize
    refine ⟨hsize.1, hsize.2, ?_⟩
    cases lane with
    | control => cases hlen
    | video =>
      simp only [encodeVideoMediaHeader] at h
      split at h
      · next frame hbody =>
        obtain ⟨-, h⟩ := check_bind_eq_ok_iff.1 h
        cases h
        exact .video frame hbody
      · cases h
    | audio =>
      simp only [encodeAudioMediaHeader] at h
      split at h
      · next packet hbody =>
        obtain ⟨-, h⟩ := check_bind_eq_ok_iff.1 h
        cases h
        exact .audio packet hbody
      · cases h
  · rintro ⟨hpos, hmax, hheader⟩
    have hsize : (bailIf (n == 0 || n > maxPayloadBytes) .oversized : Except FrameError Unit) =
        .ok () := by
      simp [hpos, Nat.not_lt.2 hmax]
    have hword : (bailIf (n ≥ 2 ^ 32) .oversized : Except FrameError Unit) = .ok () := by
      simpa using hfits hmax
    cases hheader with
    | video frame hbody =>
      simp only [encodeBinaryMediaHeaderCompact, binaryMediaHeaderLen, encodeVideoMediaHeader,
        hbody, hsize, hword]
      rfl
    | audio packet hbody =>
      simp only [encodeBinaryMediaHeaderCompact, binaryMediaHeaderLen, encodeAudioMediaHeader,
        hbody, hsize, hword]
      rfl

theorem videoFlags_bits (frame : VideoH264) :
    videoFlags frame &&& ~~~(videoFlagKeyframe ||| videoFlagSpsPps ||| videoFlagDiscontinuity) = 0 ∧
      (videoFlags frame &&& videoFlagKeyframe != 0) = frame.keyframe ∧
      (videoFlags frame &&& videoFlagSpsPps != 0) = frame.spsPpsPresent ∧
      (videoFlags frame &&& videoFlagDiscontinuity != 0) = frame.discontinuity := by
  unfold videoFlags
  cases frame.keyframe <;> cases frame.spsPpsPresent <;> cases frame.discontinuity <;> decide

theorem audioFlags_bits (discontinuity : Bool) :
    flagBit audioFlagDiscontinuity discontinuity &&& ~~~audioFlagDiscontinuity = 0 ∧
      (flagBit audioFlagDiscontinuity discontinuity &&& audioFlagDiscontinuity != 0) =
        discontinuity := by
  cases discontinuity <;> decide

variable {payloadLen : UInt32}

theorem VideoRanges.videoOfHeader_eq {v : VideoH264} (h : VideoRanges v payloadLen header)
    (hflags : header.getD 5 0 = videoFlags v) : videoOfHeader header = v := by
  obtain ⟨-, hkeyframe, hsps, hdiscontinuity⟩ := videoFlags_bits v
  simp only [videoOfHeader, h.mediaGate, h.codecGeneration, h.pts90khz, h.duration90khz, h.width,
    h.height, h.encodeSubmittedAtMs, h.encodedAtMs, hflags, hkeyframe, hsps, hdiscontinuity,
    u32OfBytes_u32Bytes, u64OfBytes_u64Bytes]

theorem AudioRanges.audioOfHeader_eq {packet : AudioOpus}
    (h : AudioRanges packet payloadLen header)
    (hflags : header.getD 5 0 = flagBit audioFlagDiscontinuity packet.discontinuity) :
    audioOfHeader header = packet := by
  simp only [audioOfHeader, h.mediaGate, h.pts48khz, h.durationSamples, h.channels,
    h.sampleRateHz, hflags, (audioFlags_bits packet.discontinuity).2, u16OfBytes_u16Bytes,
    u32OfBytes_u32Bytes, u64OfBytes_u64Bytes]

/-- The lane's fields of a header, read back. -/
theorem decodeLaneFields_of_headerOf (h : HeaderOf nonce event payloadLen lane header) :
    decodeLaneFields header lane = .ok (event.body, payloadLen.toNat) := by
  cases h with
  | video v hbody =>
    obtain ⟨hleads, hranges⟩ := ranges_videoHeader nonce event v payloadLen
    simp only [decodeLaneFields, hranges.videoOfHeader_eq hleads.flags, hranges.payloadLen,
      hleads.flags, (videoFlags_bits v).1, hbody, u32OfBytes_u32Bytes]
    rfl
  | audio packet hbody =>
    obtain ⟨hleads, hranges⟩ := ranges_audioHeader nonce event packet payloadLen
    simp only [decodeLaneFields, hranges.audioOfHeader_eq hleads.flags, hranges.payloadLen,
      hranges.reserved, hleads.flags, (audioFlags_bits packet.discontinuity).1, hbody,
      u32OfBytes_u32Bytes]
    rfl

/-- The bytes of any header, and its length. -/
theorem HeaderOf.leads (h : HeaderOf nonce event payloadLen lane header) :
    ∃ flags length, binaryMediaHeaderLen lane = .ok length.toNat ∧
      header.length = length.toNat ∧ Leads (frameMagic lane) flags length event nonce header := by
  cases h with
  | video v hbody =>
    exact ⟨_, 88, rfl, length_videoHeader .., (ranges_videoHeader nonce event v payloadLen).1⟩
  | audio packet hbody =>
    exact ⟨_, 64, rfl, length_audioHeader .., (ranges_audioHeader nonce event packet payloadLen).1⟩

/-- The header of a frame, read back. -/
theorem decodeBinaryMediaHeaderCompact_of_headerOf
    (h : HeaderOf nonce event payloadLen lane header) (hpos : payloadLen.toNat ≠ 0)
    (hmax : payloadLen.toNat ≤ maxPayloadBytes) :
    decodeBinaryMediaHeaderCompact header lane nonce = .ok (event, payloadLen.toNat) := by
  obtain ⟨flags, length, hlane, hlength, hleads⟩ := h.leads
  simp only [decodeBinaryMediaHeaderCompact, hlane, bind_eq_ok_iff]
  refine ⟨_, rfl, (), ?_, (), ?_, _, decodeLaneFields_of_headerOf h, (), ?_, ?_⟩
  · simp [hlength]
  · simp only [hleads.magic, hleads.version, hleads.length, hleads.nonce, u16OfBytes_u16Bytes,
      bne_self_eq_false, Bool.or_self, bailIf_eq_ok_iff]
  · simp [hpos, hmax]
  · rw [hleads.sequence, hleads.observedAtMs, u64OfBytes_u64Bytes, u64OfBytes_u64Bytes]

/-- A header that starts as the writer's, and whose other ranges are the writer's, is the
writer's. -/
theorem eq_of_slices {magic fields : List UInt8} {length : UInt16} {n : Nat} (hn : 40 ≤ n)
    (hlen : header.length = n) (hmagic : slice header 0 4 = magic)
    (hversion : header.getD 4 0 = binaryMediaFrameVersion)
    (hlength : u16OfBytes (slice header 6 8) = length) (hflags : header.getD 5 0 = flags)
    (hnonce : slice header 24 40 = nonce.1) (hfields : slice header 40 n = fields) :
    headerPrefix magic flags length (u64OfBytes (slice header 8 16))
      (u64OfBytes (slice header 16 24)) ++ nonce.1 ++ fields = header := by
  subst hmagic hlength hflags hfields
  calc _ = slice header 0 24 ++ slice header 24 40 ++ slice header 40 n := by
        rw [headerPrefix_slices (by omega) hversion, hnonce]
    _ = slice header 0 n := by
        rw [slice_append_slice _ (by decide) (by decide), slice_append_slice _ (by decide) hn]
    _ = header := by rw [← hlen, slice_zero_length]

/-- An accepted header, written again. -/
theorem headerOf_of_decode (h : decodeBinaryMediaHeaderCompact header lane nonce = .ok (event, n)) :
    n ≠ 0 ∧ n ≤ maxPayloadBytes ∧ HeaderOf nonce event (.ofNat n) lane header := by
  obtain ⟨headerLen, hlane, h⟩ := bind_eq_ok_iff.1 h
  obtain ⟨hlength, h⟩ := check_bind_eq_ok_iff.1 h
  obtain ⟨hlead, h⟩ := check_bind_eq_ok_iff.1 h
  obtain ⟨⟨body, payloadLen⟩, hfields, h⟩ := bind_eq_ok_iff.1 h
  obtain ⟨hsize, h⟩ := check_bind_eq_ok_iff.1 h
  cases h
  simp only [bailIf_eq_ok_iff, Bool.or_eq_false_iff, bne_eq_false_iff_eq, beq_eq_false_iff_ne,
    decide_eq_false_iff_not, Nat.not_lt] at hlength hlead hsize
  obtain ⟨⟨⟨hmagic, hversion⟩, hheaderLen⟩, hnonce⟩ := hlead
  refine ⟨hsize.1, hsize.2, ?_⟩
  cases lane with
  | control => cases hlane
  | video =>
    cases hlane
    obtain ⟨hflags, hfields⟩ := check_bind_eq_ok_iff.1 hfields
    cases hfields
    simp only [bailIf_eq_ok_iff, bne_eq_false_iff_eq] at hflags
    have hword : u16OfBytes (slice header 6 8) = 88 := UInt16.toNat_inj.1 hheaderLen
    have hheader := eq_of_slices (by decide) hlength hmagic hversion
      hword (videoFlags_of_known hflags).symm hnonce
      (videoFields_videoOfHeader hlength).symm
    rw [UInt32.ofNat_toNat]
    conv => arg 5; rw [← hheader]
    exact .video (videoOfHeader header) rfl
  | audio =>
    cases hlane
    obtain ⟨hflags, hfields⟩ := check_bind_eq_ok_iff.1 hfields
    cases hfields
    simp only [bailIf_eq_ok_iff, bne_eq_false_iff_eq, Bool.or_eq_false_iff] at hflags
    have hword : u16OfBytes (slice header 6 8) = 64 := UInt16.toNat_inj.1 hheaderLen
    have hheader := eq_of_slices (by decide) hlength hmagic hversion
      hword (audioFlags_of_known hflags.1).symm hnonce
      (audioFields_audioOfHeader hlength).symm
    rw [UInt32.ofNat_toNat]
    conv => arg 5; rw [← hheader, hflags.2]
    exact .audio (audioOfHeader header) rfl

/-- The bytes are a header of the event for the lane and the nonce, and the payload. -/
def FrameOf (lane : MediaLane) (nonce : GenerationNonce) (event : BinaryMediaEvent)
    (payload frame : List UInt8) : Prop :=
  ∃ header, HeaderOf nonce event (.ofNat payload.length) lane header ∧ frame = header ++ payload

theorem encodeBinaryMediaFrame_eq_ok :
    encodeBinaryMediaFrame lane nonce event payload = .ok frame ↔
      payload.length ≠ 0 ∧ payload.length ≤ maxPayloadBytes ∧
        FrameOf lane nonce event payload frame := by
  simp only [encodeBinaryMediaFrame, bind_eq_ok_iff, encodeBinaryMediaHeaderCompact_eq_ok, FrameOf]
  constructor
  · rintro ⟨header, ⟨hpos, hmax, hheader⟩, hframe⟩
    exact ⟨hpos, hmax, header, hheader, (Except.ok.inj hframe).symm⟩
  · rintro ⟨hpos, hmax, header, hheader, rfl⟩
    exact ⟨header, ⟨hpos, hmax, hheader⟩, rfl⟩

/-- A media event has a payload of at most 16 MiB. -/
theorem length_of_validateShape (h : event.validateShape lane payload = .ok ())
    (hlane : lane ≠ .control) : payload.length ≠ 0 ∧ payload.length ≤ maxPayloadBytes := by
  obtain ⟨-, hrequired, -, hpayload, hmax⟩ := validateEventShape_eq_ok.1 h
  refine ⟨fun hzero => ?_, hmax⟩
  have hempty : payload.isEmpty = true := by simpa using hzero
  rw [hempty] at hpayload
  -- both media kinds require a payload, whatever else they are checked for
  cases hbody : event.body with
  | videoH264 v =>
    rw [hbody] at hpayload
    obtain ⟨-, hfalse⟩ := check_bind_eq_ok_iff.1 hpayload
    cases hfalse
  | audioOpus packet =>
    rw [hbody] at hpayload
    obtain ⟨-, hfalse⟩ := check_bind_eq_ok_iff.1 hpayload
    cases hfalse
  | _ =>
    rw [hbody] at hrequired
    exact hlane hrequired.symm

theorem decodeBinaryMediaEventFrameCompact_eq_ok :
    decodeBinaryMediaEventFrameCompact frame lane nonce = .ok (event, payload) ↔
      lane ≠ .control ∧ event.validateShape lane payload = .ok () ∧
        FrameOf lane nonce event payload frame := by
  constructor
  · intro h
    obtain ⟨headerLen, hlane, h⟩ := bind_eq_ok_iff.1 h
    obtain ⟨hshort, h⟩ := check_bind_eq_ok_iff.1 h
    obtain ⟨⟨metadata, payloadLen⟩, hheader, h⟩ := bind_eq_ok_iff.1 h
    obtain ⟨hlength, h⟩ := check_bind_eq_ok_iff.1 h
    obtain ⟨_, hshape, h⟩ := bind_eq_ok_iff.1 h
    cases h
    simp only [bailIf_eq_ok_iff, decide_eq_false_iff_not, Nat.not_lt, bne_eq_false_iff_eq]
      at hshort hlength
    have hpayload : (frame.drop headerLen).length = payloadLen := by
      rw [List.length_drop]
      omega
    refine ⟨?_, ?_, frame.take headerLen, ?_, (List.take_append_drop headerLen frame).symm⟩
    · rintro rfl
      cases hlane
    · cases hvalid : event.validateShape lane (frame.drop headerLen) with
      | ok u => rfl
      | error e =>
        rw [hvalid] at hshape
        cases hshape
    · rw [hpayload]
      exact (headerOf_of_decode hheader).2.2
  · rintro ⟨hlane, hshape, header, hheader, rfl⟩
    obtain ⟨hpos, hmax⟩ := length_of_validateShape hshape hlane
    obtain ⟨flags, length, hlen, hheaderLen, -⟩ := hheader.leads
    have hword : (UInt32.ofNat payload.length).toNat = payload.length :=
      UInt32.toNat_ofNat_of_lt' (Nat.lt_of_le_of_lt hmax (by decide))
    have hdecoded := decodeBinaryMediaHeaderCompact_of_headerOf hheader (by rwa [hword])
      (by rwa [hword])
    have htake : (header ++ payload).take length.toNat = header := by
      rw [← hheaderLen, List.take_left]
    have hdrop : (header ++ payload).drop length.toNat = payload := by
      rw [← hheaderLen, List.drop_left]
    refine bind_eq_ok_iff.2 ⟨_, hlen, check_bind_eq_ok_iff.2 ⟨by simp [hheaderLen], ?_⟩⟩
    rw [htake, hdrop, hdecoded, hword]
    refine bind_eq_ok_iff.2 ⟨_, rfl, check_bind_eq_ok_iff.2 ⟨by simp [hheaderLen], ?_⟩⟩
    simp only [hshape]
    rfl

end Directions

/-- The magic and the nonce of a frame. -/
theorem FrameOf.lead {lane : MediaLane} {nonce : GenerationNonce} {event : BinaryMediaEvent}
    {payload frame : List UInt8} (h : FrameOf lane nonce event payload frame) :
    slice frame 0 4 = frameMagic lane ∧ slice frame 24 40 = nonce.1 := by
  obtain ⟨header, hheader, rfl⟩ := h
  obtain ⟨flags, length, hlane, hlength, hleads⟩ := hheader.leads
  have hforty : 40 ≤ header.length := by
    cases hheader with
    | video => simp [videoFrameHeaderBytes]
    | audio => simp [audioFrameHeaderBytes]
  exact ⟨(slice_append_left (by omega)).trans hleads.magic,
    (slice_append_left hforty).trans hleads.nonce⟩

theorem FrameOf.ne_control {lane : MediaLane} {nonce : GenerationNonce} {event : BinaryMediaEvent}
    {payload frame : List UInt8} (h : FrameOf lane nonce event payload frame) :
    lane ≠ .control := by
  rintro rfl
  obtain ⟨header, hheader, -⟩ := h
  cases hheader

theorem frameMagic_inj {lane lane' : MediaLane} (hlane : lane ≠ .control)
    (hlane' : lane' ≠ .control) (h : frameMagic lane = frameMagic lane') : lane = lane' := by
  revert hlane hlane' h
  cases lane <;> cases lane' <;> decide

/-- A media event has the body of its lane, hence a header. -/
theorem exists_headerOf {lane : MediaLane} {event : BinaryMediaEvent} {payload : List UInt8}
    (hlane : lane ≠ .control) (h : event.validateShape lane payload = .ok ())
    (nonce : GenerationNonce) (payloadLen : UInt32) :
    ∃ header, HeaderOf nonce event payloadLen lane header := by
  obtain ⟨-, rfl, -⟩ := validateEventShape_eq_ok.1 h
  cases hbody : event.body with
  | videoH264 v => exact ⟨_, .video v hbody⟩
  | audioOpus packet => exact ⟨_, .audio packet hbody⟩
  | _ =>
    rw [hbody] at hlane
    exact absurd rfl hlane

/-- A frame says which lane and which nonce it was written for. -/
theorem FrameOf.unique {lane lane' : MediaLane} {nonce nonce' : GenerationNonce}
    {event event' : BinaryMediaEvent} {payload payload' frame : List UInt8}
    (h : FrameOf lane nonce event payload frame)
    (h' : FrameOf lane' nonce' event' payload' frame) : lane' = lane ∧ nonce' = nonce := by
  obtain ⟨hlane, hnonce⟩ := h.lead
  obtain ⟨hlane', hnonce'⟩ := h'.lead
  exact ⟨frameMagic_inj h'.ne_control h.ne_control (hlane'.symm.trans hlane),
    Subtype.ext (hnonce'.symm.trans hnonce)⟩

/-- The codec of binary media frames: what is written is read back, what is read is what would be
written, and a frame is read for its own lane and nonce only. -/
theorem binaryMediaFrame_codec (lane : MediaLane) (nonce : GenerationNonce) :
    (∀ (event : BinaryMediaEvent) (payload : List UInt8), lane ≠ .control →
        event.validateShape lane payload = .ok () →
        ∃ frame, encodeBinaryMediaFrame lane nonce event payload = .ok frame ∧
          decodeBinaryMediaEventFrameCompact frame lane nonce = .ok (event, payload)) ∧
      (∀ (frame : List UInt8) (event : BinaryMediaEvent) (payload : List UInt8),
        decodeBinaryMediaEventFrameCompact frame lane nonce = .ok (event, payload) →
        encodeBinaryMediaFrame lane nonce event payload = .ok frame) ∧
      (∀ (event : BinaryMediaEvent) (payload frame : List UInt8) (lane' : MediaLane)
        (nonce' : GenerationNonce), encodeBinaryMediaFrame lane nonce event payload = .ok frame →
        (lane', nonce') ≠ (lane, nonce) →
        ∃ e, decodeBinaryMediaEventFrameCompact frame lane' nonce' = .error e) := by
  refine ⟨?_, ?_, ?_⟩
  · intro event payload hlane hshape
    obtain ⟨hpos, hmax⟩ := length_of_validateShape hshape hlane
    obtain ⟨header, hheader⟩ := exists_headerOf hlane hshape nonce (.ofNat payload.length)
    have hframe : FrameOf lane nonce event payload (header ++ payload) := ⟨header, hheader, rfl⟩
    exact ⟨header ++ payload, encodeBinaryMediaFrame_eq_ok.2 ⟨hpos, hmax, hframe⟩,
      decodeBinaryMediaEventFrameCompact_eq_ok.2 ⟨hlane, hshape, hframe⟩⟩
  · intro frame event payload hdecode
    obtain ⟨hlane, hshape, hframe⟩ := decodeBinaryMediaEventFrameCompact_eq_ok.1 hdecode
    obtain ⟨hpos, hmax⟩ := length_of_validateShape hshape hlane
    exact encodeBinaryMediaFrame_eq_ok.2 ⟨hpos, hmax, hframe⟩
  · intro event payload frame lane' nonce' hencode hother
    obtain ⟨-, -, hframe⟩ := encodeBinaryMediaFrame_eq_ok.1 hencode
    cases hdecode : decodeBinaryMediaEventFrameCompact frame lane' nonce' with
    | error e => exact ⟨e, rfl⟩
    | ok result =>
      obtain ⟨-, -, hframe'⟩ := decodeBinaryMediaEventFrameCompact_eq_ok.1 hdecode
      obtain ⟨rfl, rfl⟩ := hframe.unique hframe'
      exact absurd rfl hother

/-- A recovery frame of one byte, in a generation whose nonce is zero. -/
def sampleFrame : BinaryMediaEvent where
  sequence := 1
  observedAtMs := 7
  body := .videoH264
    { mediaGate := 1, pts90khz := 0, duration90khz := 3000, keyframe := true
      spsPpsPresent := true, discontinuity := true, codecGeneration := 1, width := 2, height := 2
      encodeSubmittedAtMs := 5, encodedAtMs := 6 }

def zeroNonce : GenerationNonce := ⟨List.replicate 16 0, by decide⟩

def oneNonce : GenerationNonce := ⟨List.replicate 16 1, by decide⟩

/-- The frame is written, read back, and not read as audio or in another generation. -/
theorem binaryMediaFrame_codec_sampleFrame :
    ∃ frame, encodeBinaryMediaFrame .video zeroNonce sampleFrame [9] = .ok frame ∧
      decodeBinaryMediaEventFrameCompact frame .video zeroNonce = .ok (sampleFrame, [9]) ∧
      (∃ e, decodeBinaryMediaEventFrameCompact frame .audio zeroNonce = .error e) ∧
      ∃ e, decodeBinaryMediaEventFrameCompact frame .video oneNonce = .error e := by
  obtain ⟨hread, -, hother⟩ := binaryMediaFrame_codec .video zeroNonce
  obtain ⟨frame, hencode, hdecode⟩ := hread sampleFrame [9] (by decide) (by decide)
  exact ⟨frame, hencode, hdecode, hother _ _ _ _ _ hencode (by decide),
    hother _ _ _ _ _ hencode (by decide)⟩

end EasyNetDaemon.MediaSession
