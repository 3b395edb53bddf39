import EasyNetDaemon.MediaSession.Codecs
import EasyNetDaemon.MediaSession.Events

/-!
# The validator of a media conversation

`MediaConversationValidator` is the machine for the whole conversation, which the daemon runs over
the commands it sends and the events it receives. It poisons itself at the first error. A poisoned
machine does nothing but refuse, so of the state at an error only the lifecycle is kept track of.

Counters wrap as in a release build, except where the source checks an addition.
-/

namespace EasyNetDaemon.MediaSession

open Library
open SharedMedia (MediaLane)

/-- `checked_add(1)` of a gate. -/
def nextGate (gate : UInt32) (message : String) : Except ValidationError UInt32 :=
  if gate = 0xffffffff then .error ⟨message⟩ else .ok (gate + 1)

/-! ## The conversation -/

/-- `ConversationLifecycle`. -/
inductive ConversationLifecycle
  | awaitingStart
  | preparing (commandSequence : UInt64)
  | prepared
  | activating (commandSequence : UInt64)
  | activated
  | active
  | stopping (commandSequence : UInt64)
  | terminal
  | poisoned
deriving DecidableEq, Repr

/-- `PendingReconfigure`. -/
structure PendingReconfigure where
  commandSequence : UInt64
  video : VideoConfig
deriving DecidableEq, Repr

/-- The last sequence number and time seen on a lane. -/
structure LaneClock where
  sequence : UInt64
  observedAtMs : UInt64
deriving DecidableEq, Repr

/-- `MediaConversationValidator`. -/
structure MediaConversationValidator where
  fence : GenerationFence
  lifecycle : ConversationLifecycle
  contract : Option StartContract
  commandSequence : UInt64
  control : LaneClock
  video : LaneClock
  audio : LaneClock
  videoPts : Option UInt64
  audioPts : Option UInt64
  codecGeneration : UInt32
  mediaGate : UInt32
  mediaSuspended : Bool
  awaitingIdr : Bool
  droppingUntilRequestedIdr : Bool
  activationCommandSequence : Option UInt64
  reconfigureCommandSequence : Option UInt64
  pendingReconfigure : Option PendingReconfigure
  pendingKeyframeCommand : Option UInt64
deriving DecidableEq, Repr

/-- `MediaObservation`. -/
inductive MediaObservation
  | accepted
  | staleDiscarded
  | backpressureDiscarded
deriving DecidableEq, Repr

namespace MediaConversationValidator

/-- `MediaConversationValidator::new`. -/
def new (fence : GenerationFence) : MediaConversationValidator where
  fence
  lifecycle := .awaitingStart
  contract := none
  commandSequence := 0
  control := ⟨0, 0⟩
  video := ⟨0, 0⟩
  audio := ⟨0, 0⟩
  videoPts := none
  audioPts := none
  codecGeneration := 1
  mediaGate := 0
  mediaSuspended := true
  awaitingIdr := true
  droppingUntilRequestedIdr := false
  activationCommandSequence := none
  reconfigureCommandSequence := none
  pendingReconfigure := none
  pendingKeyframeCommand := none

variable (digest : StartContract → String) (v : MediaConversationValidator)

/-- The clock of a lane. -/
def clock : MediaLane → LaneClock
  | .control => v.control
  | .video => v.video
  | .audio => v.audio

/-- The validator with a lane's clock set. -/
def withClock (clock : LaneClock) : MediaLane → MediaConversationValidator
  | .control => { v with control := clock }
  | .video => { v with video := clock }
  | .audio => { v with audio := clock }

/-- A gate is opened: the next one, with nothing seen in it. -/
def openGate : Except ValidationError MediaConversationValidator := do
  let gate ← nextGate v.mediaGate "media gate overflow"
  .ok { v with
    mediaGate := gate
    mediaSuspended := false
    awaitingIdr := true
    videoPts := none
    audioPts := none }

/-- The error of a command out of place. -/
def refusedCommand : ValidationError := ⟨"invalid media command transition"⟩

/-- The transition of `register_command_inner` for a command with this number. -/
def transition (sequence : UInt64) :
    CommandBody → Except ValidationError MediaConversationValidator
  | .startPrepared contract =>
    if v.lifecycle = .awaitingStart then
      .ok { v with contract := some contract, lifecycle := .preparing sequence }
    else .error refusedCommand
  | .activate =>
    if v.lifecycle = .prepared then .ok { v with lifecycle := .activating sequence }
    else .error refusedCommand
  | .beginMedia activation =>
    if v.lifecycle = .activated ∧ v.activationCommandSequence = some activation then do
      let v' ← v.openGate
      .ok { v' with lifecycle := .active }
    else .error refusedCommand
  | .reconfigure video _ =>
    if v.lifecycle = .active ∧ v.pendingReconfigure = none then
      .ok { v with
        mediaSuspended := true
        pendingReconfigure := some { commandSequence := sequence, video } }
    else .error refusedCommand
  | .resumeMedia reconfigure =>
    if v.lifecycle = .active ∧ v.pendingReconfigure = none ∧
        v.reconfigureCommandSequence = some reconfigure then v.openGate
    else .error refusedCommand
  | .requestKeyframe =>
    if v.lifecycle = .active ∧ v.pendingKeyframeCommand = none then
      .ok { v with pendingKeyframeCommand := some sequence, droppingUntilRequestedIdr := true }
    else .error refusedCommand
  | .stop =>
    match v.lifecycle with
    | .awaitingStart | .stopping _ | .terminal => .error refusedCommand
    | _ => .ok { v with mediaSuspended := true, lifecycle := .stopping sequence }

/-- `register_command_inner`. -/
def registerCommandInner (command : Command) :
    Except ValidationError MediaConversationValidator := do
  command.validate digest
  bailIf (command.fence != v.fence || command.sequence != v.commandSequence + 1)
    ⟨"stale or non-contiguous media command"⟩
  let v' ← v.transition command.sequence command.body
  .ok { v' with commandSequence := command.sequence }

/-- The validator after a violation. -/
def poisoned : MediaConversationValidator := { v with lifecycle := .poisoned }

/-- The error of a poisoned session. -/
def poisonedError : ValidationError := ⟨"media generation is poisoned"⟩

/-- `register_command`. -/
def registerCommand (command : Command) :
    Except ValidationError Unit × MediaConversationValidator :=
  if v.lifecycle = .poisoned then (.error poisonedError, v)
  else
    match v.registerCommandInner digest command with
    | .ok v' => (.ok (), v')
    | .error e => (.error e, v.poisoned)

/-- Media of a gate that was left or is suspended. -/
def isStale (mediaGate : UInt32) : Bool :=
  mediaGate < v.mediaGate || (v.mediaSuspended && mediaGate == v.mediaGate && v.mediaGate > 0)

/-- Media of the gate is expected. -/
def inGate (mediaGate : UInt32) : Bool :=
  v.lifecycle == .active && !v.mediaSuspended && mediaGate == v.mediaGate

/-- What a video frame must agree with. -/
def videoMismatch (config : VideoConfig) (frame : VideoH264) (payload : List UInt8) : Bool :=
  frame.width != config.width || frame.height != config.height ||
    payload.length > config.maxAccessUnitBytes.toNat ||
    frame.codecGeneration != v.codecGeneration ||
    v.videoPts.any (frame.pts90khz ≤ ·)

/-- The checks of a video frame against the payload it describes. -/
def checkPayload (config : VideoConfig) (frame : VideoH264) (payload : List UInt8) :
    Except ValidationError H264Inspection := do
  let annexB ← inspectH264AnnexB payload
  bailIf (annexB.maxNalUnitBytes > config.maxNalUnitBytes.toNat)
    ⟨"H264 NAL exceeds negotiated packetization bound"⟩
  bailIf
    (frame.keyframe != annexB.hasIdr || frame.spsPpsPresent != (annexB.hasSps && annexB.hasPps))
    ⟨"H264 metadata does not match Annex-B access unit"⟩
  match annexB.sps with
  | some sps => do
    let parsed ← parseBaselineSps sps
    bailIf (parsed.profileIdc != config.h264ProfileIdc || parsed.levelIdc != config.h264LevelIdc ||
        parsed.width != config.width.toNat || parsed.height != config.height.toNat)
      ⟨"H264 SPS does not match negotiated profile, level or dimensions"⟩
  | none => .ok ()
  .ok annexB

/-- `observe_validated` for a video frame, without the lane's clock. -/
def observeVideo (frame : VideoH264) (payload : List UInt8) :
    Except ValidationError (MediaObservation × MediaConversationValidator) :=
  if v.isStale frame.mediaGate then .ok (.staleDiscarded, v)
  else do
    bailIf (!v.inGate frame.mediaGate) ⟨"video arrived outside active media gate"⟩
    match v.contract with
    | none => .error ⟨"media start contract missing"⟩
    | some contract => do
      bailIf (v.videoMismatch contract.video frame payload)
        ⟨"video does not match negotiated media contract"⟩
      let annexB ← checkPayload contract.video frame payload
      if v.droppingUntilRequestedIdr && !annexB.recoveryIdr then
        .ok (.staleDiscarded, { v with videoPts := some frame.pts90khz })
      else do
        bailIf ((frame.discontinuity || v.awaitingIdr) && !annexB.recoveryIdr)
          ⟨"media generation must resume at an H264 IDR with SPS/PPS"⟩
        -- a recovery frame clears both flags; another one gets here only if neither is set
        .ok (.accepted, { v with
          awaitingIdr := false
          droppingUntilRequestedIdr := false
          videoPts := some frame.pts90khz })

/-- `observe_validated` for an audio packet, without the lane's clock. -/
def observeAudio (packet : AudioOpus) (payload : List UInt8) :
    Except ValidationError (MediaObservation × MediaConversationValidator) :=
  if v.isStale packet.mediaGate then .ok (.staleDiscarded, v)
  else do
    bailIf (!v.inGate packet.mediaGate) ⟨"audio arrived outside active media gate"⟩
    bailIf ((v.contract.bind (·.audio)).isNone || v.audioPts.any (packet.pts48khz ≤ ·))
      ⟨"Opus packet does not match negotiated audio contract"⟩
    let samples ← opusPacketSamples48khz payload
    bailIf (samples != 960 || (v.audioPts.isNone && !packet.discontinuity))
      ⟨"Opus packet does not match negotiated audio contract"⟩
    .ok (.accepted, { v with audioPts := some packet.pts48khz })

/-- `observe_validated` for a control event, without the lane's clock. -/
def observeControl : EventBody → Except ValidationError MediaConversationValidator
  | .prepared commandSequence captureProof =>
    match v.lifecycle with
    | .preparing expected => do
      bailIf (commandSequence != expected) ⟨"prepared command correlation mismatch"⟩
      match v.contract with
      | none => .error ⟨"media start contract missing"⟩
      | some contract => do
        captureProof.validateFor contract.target
        .ok { v with lifecycle := .prepared }
    | _ => .error ⟨"unsolicited prepared event"⟩
  | .activated commandSequence =>
    match v.lifecycle with
    | .activating expected => do
      bailIf (commandSequence != expected) ⟨"activate command correlation mismatch"⟩
      .ok { v with activationCommandSequence := some commandSequence, lifecycle := .activated }
    | _ => .error ⟨"unsolicited activated event"⟩
  | .reconfigured commandSequence video codecGeneration =>
    match v.pendingReconfigure with
    | none => .error ⟨"unsolicited reconfigured event"⟩
    | some pending => do
      bailIf (pending.commandSequence != commandSequence || pending.video != video ||
          codecGeneration != v.codecGeneration + 1)
        ⟨"reconfigure command correlation mismatch"⟩
      .ok { v with
        pendingReconfigure := none
        codecGeneration
        reconfigureCommandSequence := some commandSequence
        contract := v.contract.map fun contract => { contract with video }
        awaitingIdr := true
        videoPts := none }
  | .keyframeRequested commandSequence => do
    bailIf (v.pendingKeyframeCommand != some commandSequence)
      ⟨"keyframe command correlation mismatch"⟩
    .ok { v with pendingKeyframeCommand := none }
  | .stats _ => do
    bailIf (v.lifecycle != .active) ⟨"stats arrived outside active lifecycle"⟩
    .ok v
  | .failed _ _ =>
    match v.lifecycle with
    | .awaitingStart | .terminal => .error ⟨"unsolicited failure event"⟩
    | _ => .ok { v with lifecycle := .terminal }
  | .stopped commandSequence =>
    match v.lifecycle with
    | .stopping expected => do
      bailIf (commandSequence != expected) ⟨"stop command correlation mismatch"⟩
      .ok { v with lifecycle := .terminal }
    | _ => .error ⟨"unsolicited stopped event"⟩
  -- media events have a lane of their own
  | .videoH264 _ | .audioOpus _ => .ok v

/-- The match of `observe_validated` over the kinds of events. -/
def observeBody (body : EventBody) (payload : List UInt8) :
    Except ValidationError (MediaObservation × MediaConversationValidator) :=
  match body with
  | .videoH264 frame => v.observeVideo frame payload
  | .audioOpus packet => v.observeAudio packet payload
  | body => (v.observeControl body).map fun v' => (.accepted, v')

/-- `observe_validated`: the lane's clock moves whenever there is no error. -/
def observeValidated (lane : MediaLane) (sequence observedAtMs : UInt64) (body : EventBody)
    (payload : List UInt8) :
    Except ValidationError (MediaObservation × MediaConversationValidator) := do
  bailIf (sequence != (v.clock lane).sequence + 1 || observedAtMs < (v.clock lane).observedAtMs)
    ⟨"non-contiguous media sequence or regressing observation time"⟩
  let (observation, v') ← v.observeBody body payload
  .ok (observation, v'.withClock ⟨sequence, observedAtMs⟩ lane)

/-- `observe_backpressure_drop_inner`. -/
def observeBackpressureDropInner (lane : MediaLane) (sequence observedAtMs : UInt64)
    (mediaGate : UInt32) :
    Except ValidationError (MediaObservation × MediaConversationValidator) := do
  bailIf (lane == .control) ⟨"control events cannot be discarded as media backpressure"⟩
  bailIf (sequence != (v.clock lane).sequence + 1 || observedAtMs == 0 ||
      observedAtMs < (v.clock lane).observedAtMs)
    ⟨"non-contiguous dropped media sequence or regressing observation time"⟩
  let v' := v.withClock ⟨sequence, observedAtMs⟩ lane
  if v.isStale mediaGate then .ok (.staleDiscarded, v')
  else do
    bailIf (!v.inGate mediaGate) ⟨"dropped media arrived outside active media gate"⟩
    .ok (.backpressureDiscarded,
      if lane = .video then { v' with awaitingIdr := true, droppingUntilRequestedIdr := true }
      else v')

/-- The frame of the observing methods: a poisoned validator refuses, an error poisons. -/
def guarded (result : Except ValidationError (MediaObservation × MediaConversationValidator)) :
    Except ValidationError MediaObservation × MediaConversationValidator :=
  if v.lifecycle = .poisoned then (.error poisonedError, v)
  else
    match result with
    | .ok (observation, v') => (.ok observation, v')
    | .error e => (.error e, v.poisoned)

/-- `observe`. -/
def observe (lane : MediaLane) (metadata : EventMetadata) (payload : List UInt8) :
    Except ValidationError MediaObservation × MediaConversationValidator :=
  v.guarded do
    metadata.validateShape lane payload
    bailIf (metadata.fence != v.fence) ⟨"stale media generation fence"⟩
    v.observeValidated lane metadata.sequence metadata.observedAtMs metadata.body payload

/-- `observe_binary_media`. -/
def observeBinaryMedia (lane : MediaLane) (metadata : BinaryMediaEvent) (payload : List UInt8) :
    Except ValidationError MediaObservation × MediaConversationValidator :=
  v.guarded do
    metadata.validateShape lane payload
    v.observeValidated lane metadata.sequence metadata.observedAtMs metadata.body payload

/-- `observe_backpressure_drop`. -/
def observeBackpressureDrop (lane : MediaLane) (sequence observedAtMs : UInt64)
    (mediaGate : UInt32) : Except ValidationError MediaObservation × MediaConversationValidator :=
  v.guarded (v.observeBackpressureDropInner lane sequence observedAtMs mediaGate)

end MediaConversationValidator

end EasyNetDaemon.MediaSession
