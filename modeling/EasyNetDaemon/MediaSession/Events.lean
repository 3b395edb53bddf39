import EasyNetDaemon.MediaSession.Contract
import EasyNetDaemon.SharedMedia.Notification

/-!
# The events of a media generation

What a media host sends on its three lanes, and `validate_event_shape`: the checks of an event that
need no state. A payload belongs to a media event and to no other.
-/

namespace EasyNetDaemon.MediaSession

open Library
open SharedMedia (MediaLane)

/-- How a screen is captured. -/
inductive CaptureBackend
  | screenCaptureKit
  | windowsGraphicsCapture
  | dxgi
  | xcapX11
  | portalPipeWire
deriving DecidableEq, Repr

/-- `CaptureProof`. -/
structure CaptureProof where
  backend : CaptureBackend
  observedTarget : NativeTargetPlan
  nativeWidth : UInt32
  nativeHeight : UInt32
  verifiedAtMs : UInt64
deriving DecidableEq, Repr

/-- `CaptureProof::validate_for`. -/
def CaptureProof.validateFor (proof : CaptureProof) (target : NativeTargetPlan) :
    Except ValidationError Unit := do
  proof.observedTarget.validate
  bailIf (proof.observedTarget != target || proof.nativeWidth == 0 || proof.nativeHeight == 0 ||
      proof.nativeWidth.toNat * proof.nativeHeight.toNat > maxCapturePixels ||
      proof.verifiedAtMs == 0)
    ⟨"capture proof does not match exact media target contract"⟩

/-- Why a session failed. -/
inductive FailureReason
  | permissionDenied
  | permissionRevoked
  | targetInvalidated
  | captureUnavailable
  | encoderUnavailable
  | audioUnavailable
  | deviceLost
  | protocolViolation
  | internal
deriving DecidableEq, Repr

/-- `MediaStats`. -/
structure MediaStats where
  captureFrames : UInt64
  encodedVideoFrames : UInt64
  encodedAudioPackets : UInt64
  rawVideoFramesDropped : UInt64
  encodedVideoFramesDropped : UInt64
  audioPacketsDropped : UInt64
  videoQueueDepth : UInt32
  audioQueueDepth : UInt32
  videoBytes : UInt64
  audioBytes : UInt64
deriving DecidableEq, Repr

/-- `MediaStats::validate`. -/
def MediaStats.validate (stats : MediaStats) : Except ValidationError Unit :=
  bailIf (stats.videoQueueDepth > 3 || stats.audioQueueDepth > 4)
    ⟨"media stats exceed queue contract"⟩

/-- The fields of `EventBody::VideoH264`. -/
structure VideoH264 where
  mediaGate : UInt32
  pts90khz : UInt64
  duration90khz : UInt32
  keyframe : Bool
  spsPpsPresent : Bool
  discontinuity : Bool
  codecGeneration : UInt32
  width : UInt32
  height : UInt32
  encodeSubmittedAtMs : UInt64
  encodedAtMs : UInt64
deriving DecidableEq, Repr

/-- The fields of `EventBody::AudioOpus`. -/
structure AudioOpus where
  mediaGate : UInt32
  pts48khz : UInt64
  durationSamples : UInt16
  discontinuity : Bool
  sampleRateHz : UInt32
  channels : UInt8
deriving DecidableEq, Repr

/-- `EventBody`. -/
inductive EventBody
  | prepared (commandSequence : UInt64) (captureProof : CaptureProof)
  | activated (commandSequence : UInt64)
  | videoH264 (frame : VideoH264)
  | audioOpus (packet : AudioOpus)
  | reconfigured (commandSequence : UInt64) (video : VideoConfig) (codecGeneration : UInt32)
  | keyframeRequested (commandSequence : UInt64)
  | stats (stats : MediaStats)
  | failed (reason : FailureReason) (detail : String)
  | stopped (commandSequence : UInt64)
deriving DecidableEq, Repr

/-- `required_lane_for_body`. -/
def EventBody.requiredLane : EventBody → MediaLane
  | .videoH264 _ => .video
  | .audioOpus _ => .audio
  | _ => .control

/-- `EventMetadata`. -/
structure EventMetadata where
  schemaVersion : UInt32
  protocol : String
  fence : GenerationFence
  sequence : UInt64
  observedAtMs : UInt64
  body : EventBody
deriving DecidableEq, Repr

/-- `BinaryMediaEvent`. -/
structure BinaryMediaEvent where
  sequence : UInt64
  observedAtMs : UInt64
  body : EventBody
deriving DecidableEq, Repr

/-- A control event with a command sequence that must not be zero. -/
def validateCorrelation (commandSequence : UInt64) : Except ValidationError Bool := do
  bailIf (commandSequence == 0) ⟨"control event has no command sequence"⟩
  .ok false

/-- The part of `validate_event_shape` that depends on the kind of the event: whether it requires a
payload. -/
def EventBody.requiresPayload (body : EventBody) (observedAtMs : UInt64) (payload : List UInt8) :
    Except ValidationError Bool :=
  match body with
  | .prepared commandSequence captureProof => do
    bailIf (commandSequence == 0) ⟨"prepared event has no command sequence"⟩
    captureProof.observedTarget.validate
    .ok false
  | .activated commandSequence | .keyframeRequested commandSequence | .stopped commandSequence =>
    validateCorrelation commandSequence
  | .videoH264 frame => do
    bailIf (frame.mediaGate == 0 || frame.duration90khz == 0 || frame.codecGeneration == 0 ||
        frame.width == 0 || frame.height == 0 || frame.encodeSubmittedAtMs == 0 ||
        frame.encodedAtMs < frame.encodeSubmittedAtMs || frame.encodedAtMs > observedAtMs)
      ⟨"invalid encoded video event"⟩
    .ok true
  | .audioOpus packet => do
    bailIf (packet.mediaGate == 0 || packet.durationSamples != 960 ||
        packet.sampleRateHz != 48000 || packet.channels != 2 ||
        payload.length > maxOpusPacketBytes)
      ⟨"invalid encoded audio event"⟩
    .ok true
  | .reconfigured commandSequence video codecGeneration => do
    bailIf (commandSequence == 0 || codecGeneration == 0) ⟨"invalid reconfiguration event"⟩
    video.validate
    .ok false
  | .stats report => do
    report.validate
    .ok false
  | .failed _ detail => do
    bailIf (!validString detail) ⟨"invalid media failure detail"⟩
    .ok false

/-- `validate_event_shape`. -/
def validateEventShape (physicalLane : MediaLane) (sequence observedAtMs : UInt64)
    (body : EventBody) (payload : List UInt8) : Except ValidationError Unit := do
  bailIf (sequence == 0 || body.requiredLane != physicalLane || observedAtMs == 0)
    ⟨"media event arrived on the wrong physical lane"⟩
  let requiresPayload ← body.requiresPayload observedAtMs payload
  bailIf (requiresPayload != !payload.isEmpty || payload.length > maxPayloadBytes)
    ⟨"media event payload does not match event kind"⟩

/-- `EventMetadata::validate_shape`. -/
def EventMetadata.validateShape (metadata : EventMetadata) (physicalLane : MediaLane)
    (payload : List UInt8) : Except ValidationError Unit := do
  validateEnvelope metadata.schemaVersion metadata.protocol metadata.fence metadata.sequence
  validateEventShape physicalLane metadata.sequence metadata.observedAtMs metadata.body payload

/-- `BinaryMediaEvent::validate_shape`. -/
def BinaryMediaEvent.validateShape (metadata : BinaryMediaEvent) (physicalLane : MediaLane)
    (payload : List UInt8) : Except ValidationError Unit :=
  validateEventShape physicalLane metadata.sequence metadata.observedAtMs metadata.body payload

/-! ## What a valid shape says -/

section Shape

variable {lane : MediaLane} {sequence observedAtMs : UInt64} {body : EventBody}
  {payload : List UInt8}

theorem validateEventShape_eq_ok :
    validateEventShape lane sequence observedAtMs body payload = .ok () ↔
      sequence ≠ 0 ∧ body.requiredLane = lane ∧ observedAtMs ≠ 0 ∧
        body.requiresPayload observedAtMs payload = .ok (!payload.isEmpty) ∧
        payload.length ≤ maxPayloadBytes := by
  rw [validateEventShape, check_bind_eq_ok_iff, bind_eq_ok_iff]
  simp only [bailIf_eq_ok_iff, Bool.or_eq_false_iff, beq_eq_false_iff_ne, bne_eq_false_iff_eq,
    decide_eq_false_iff_not, Nat.not_lt]
  constructor
  · rintro ⟨⟨⟨hsequence, hlane⟩, hobserved⟩, requires, hrequires, rfl, hlength⟩
    exact ⟨hsequence, hlane, hobserved, hrequires, hlength⟩
  · rintro ⟨hsequence, hlane, hobserved, hrequires, hlength⟩
    exact ⟨⟨⟨hsequence, hlane⟩, hobserved⟩, _, hrequires, rfl, hlength⟩

end Shape

end EasyNetDaemon.MediaSession
