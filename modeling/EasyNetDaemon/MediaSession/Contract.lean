import EasyNetDaemon.Library.Fallible
import EasyNetDaemon.Library.RustText
import Mathlib.Algebra.Group.Nat.Defs

/-!
# The contract and the commands of a media generation

The data of `native-protocol/src/media_session.rs` that a daemon sends to its media host: the fence
of a generation, the exact target, the video and audio configuration, and the commands, each with
the checks of the source. `contract_digest` is SHA-256 over the contract's JSON text; here it is a
parameter.
-/

namespace EasyNetDaemon.MediaSession

open Library

/-- `ValidationError`. -/
structure ValidationError where
  detail : String
deriving DecidableEq, Repr

/-- The version of the schema. -/
def schemaVersion : UInt32 := 1

/-- `PROTOCOL`. -/
def protocolName : String := "remoteapp_media_host_v1"

/-- The largest payload. -/
def maxPayloadBytes : Nat := 16 * 1024 * 1024

/-- The largest Opus packet. -/
def maxOpusPacketBytes : Nat := 1275

/-- The most windows of an application. -/
def maxApplicationWindows : Nat := 32

/-- 7680 x 4320. -/
def maxCapturePixels : Nat := 33177600

/-- The longest text. -/
def maxStringBytes : Nat := 2048

/-- The largest coordinate. -/
def maxSurfaceCoordinate : Nat := 10000000

/-- The longest wait for a keyframe. -/
def maxKeyframeRecoverySeconds : Nat := 2

/-! ## Field checks -/

/-- `valid_string`. -/
def validString (value : String) : Bool :=
  value ≠ "" && RustText.byteLen value.toList ≤ maxStringBytes &&
    !value.toList.contains (Char.ofNat 0)

/-- An optional text is valid. -/
def validateOptionalString (value : Option String) (field : String) : Except ValidationError Unit :=
  bailIf (value.any (!validString ·)) ⟨s!"invalid {field}"⟩

/-- An optional id is positive. -/
def validatePositiveOptionalId (value : Option UInt64) (field : String) :
    Except ValidationError Unit :=
  bailIf (value == some 0) ⟨s!"{field} id must be positive"⟩

/-- A process id is positive. -/
def validatePositivePid (value : Int64) (field : String) : Except ValidationError Unit :=
  bailIf (value ≤ 0) ⟨s!"{field} must be positive"⟩

/-- Ids are few, positive and sorted. -/
def validateSortedIds (values : List UInt64) (maximum : Nat) (field : String) :
    Except ValidationError Unit :=
  bailIf (values.length > maximum || values.contains 0 ||
      (values.zip values.tail).any (fun pair => pair.1 ≥ pair.2))
    ⟨s!"{field} must be sorted, unique and bounded"⟩

/-- `valid_hex_exact`: lowercase hexadecimal digits of a fixed number. -/
def validHexExact (value : String) (length : Nat) : Bool :=
  RustText.byteLen value.toList == length &&
    value.toList.all fun c => c.isDigit || ('a' ≤ c && c ≤ 'f')

/-! ## Generation fence -/

/-- `GenerationFence`. -/
structure GenerationFence where
  processGeneration : UInt64
  buildId : String
  sessionNonce : String
  transportEpoch : UInt64
  mediaSourceEpoch : UInt64
  contractDigest : String
deriving DecidableEq, Repr

/-- `GenerationFence::validate`. -/
def GenerationFence.validate (fence : GenerationFence) : Except ValidationError Unit :=
  bailIf (fence.processGeneration == 0 || fence.transportEpoch == 0 ||
      fence.mediaSourceEpoch == 0 || !validHexExact fence.buildId 64 ||
      !validHexExact fence.sessionNonce 32 || !validHexExact fence.contractDigest 64)
    ⟨"invalid media generation fence"⟩

/-! ## Target -/

/-- What is captured. -/
inductive TargetKind
  | display
  | window
  | application
deriving DecidableEq, Repr

/-- A window of an application. -/
structure ApplicationSurface where
  windowId : UInt64
  x : Int64
  y : Int64
  width : UInt32
  height : UInt32
deriving DecidableEq, Repr

/-- The windows of an application. -/
structure ApplicationWindowSet where
  displayId : Option UInt64
  displayIds : List UInt64
  primaryPid : Int64
  processInstanceId : Option String
  appIdentity : Option String
  bundleId : Option String
  windowIds : List UInt64
  windowSetEpoch : UInt64
  frontToBackSurfaces : List ApplicationSurface
  surfaceLayoutEpoch : UInt64
deriving DecidableEq, Repr

/-- What the loop over the surfaces has seen: their ids, the corners of their union and their
pixels. -/
structure SurfaceSum where
  ids : List UInt64
  corners : Option ((Int × Int) × (Int × Int))
  totalPixels : Nat
deriving DecidableEq, Repr

/-- One turn of the loop over the surfaces. -/
def SurfaceSum.add (sum : SurfaceSum) (surface : ApplicationSurface) :
    Except ValidationError SurfaceSum := do
  bailIf (surface.windowId == 0 || sum.ids.contains surface.windowId || surface.width == 0 ||
      surface.height == 0 || surface.x.toInt.natAbs > maxSurfaceCoordinate ||
      surface.y.toInt.natAbs > maxSurfaceCoordinate) ⟨"invalid application surface"⟩
  let totalPixels := sum.totalPixels + surface.width.toNat * surface.height.toNat
  bailIf (totalPixels ≥ 2 ^ 64) ⟨"application surface budget overflow"⟩
  let x := surface.x.toInt
  let y := surface.y.toInt
  let right := x + surface.width.toNat
  let bottom := y + surface.height.toNat
  .ok {
    ids := sum.ids ++ [surface.windowId]
    corners := match sum.corners with
      | none => some ((x, y), (right, bottom))
      | some ((minX, minY), (maxX, maxY)) =>
        some ((min minX x, min minY y), (max maxX right, max maxY bottom))
    totalPixels }

/-- The pixels of the union of the surfaces. -/
def SurfaceSum.unionPixels (sum : SurfaceSum) : Nat :=
  match sum.corners with
  | none => 0
  | some ((minX, minY), (maxX, maxY)) => (maxX - minX).toNat * (maxY - minY).toNat

/-- `ApplicationWindowSet::validate`. -/
def ApplicationWindowSet.validate (set : ApplicationWindowSet) : Except ValidationError Unit := do
  validatePositiveOptionalId set.displayId "application display"
  validateSortedIds set.displayIds maxApplicationWindows "application displays"
  validatePositivePid set.primaryPid "application primary pid"
  validateOptionalString set.processInstanceId "process instance"
  validateOptionalString set.appIdentity "application identity"
  validateOptionalString set.bundleId "bundle identity"
  bailIf (set.processInstanceId.isNone && set.appIdentity.isNone && set.bundleId.isNone)
    ⟨"application target requires process_instance_id, app_identity, or bundle_id"⟩
  validateSortedIds set.windowIds maxApplicationWindows "application windows"
  bailIf (set.windowIds.isEmpty || set.windowSetEpoch == 0 || set.surfaceLayoutEpoch == 0 ||
      set.frontToBackSurfaces.isEmpty ||
      set.frontToBackSurfaces.length != set.windowIds.length)
    ⟨"application target requires exact window-set and surface-layout proofs"⟩
  let sum ← foldChecked SurfaceSum.add { ids := [], corners := none, totalPixels := 0 }
    set.frontToBackSurfaces
  -- the ids of the surfaces are distinct, so the two sets are equal if each has the other's ids
  bailIf (!(sum.ids.all set.windowIds.contains && set.windowIds.all sum.ids.contains))
    ⟨"application surface membership differs from committed window set"⟩
  bailIf (sum.unionPixels ≥ 2 ^ 64) ⟨"application union pixel overflow"⟩
  bailIf (sum.totalPixels > maxCapturePixels || sum.unionPixels > maxCapturePixels)
    ⟨"application surface layout exceeds media pixel budget"⟩

/-- `NativeTargetPlan`. -/
structure NativeTargetPlan where
  kind : TargetKind
  displayId : Option UInt64
  windowId : Option UInt64
  pid : Option Int64
  processInstanceId : Option String
  appIdentity : Option String
  bundleId : Option String
  application : Option ApplicationWindowSet
deriving DecidableEq, Repr

/-- `NativeTargetPlan::validate`. -/
def NativeTargetPlan.validate (plan : NativeTargetPlan) : Except ValidationError Unit := do
  validatePositiveOptionalId plan.displayId "display"
  validatePositiveOptionalId plan.windowId "window"
  match plan.pid with
  | some pid => validatePositivePid pid "target pid"
  | none => .ok ()
  validateOptionalString plan.processInstanceId "process instance"
  validateOptionalString plan.appIdentity "application identity"
  validateOptionalString plan.bundleId "bundle identity"
  match plan.kind with
  | .display =>
    bailIf (plan.displayId.isNone || plan.windowId.isSome || plan.pid.isSome ||
        plan.processInstanceId.isSome || plan.appIdentity.isSome || plan.bundleId.isSome ||
        plan.application.isSome)
      ⟨"display target must contain only an exact display locator"⟩
  | .window =>
    bailIf (plan.windowId.isNone || plan.pid.isNone || plan.application.isSome)
      ⟨"window target requires exact window and owner process locators"⟩
  | .application =>
    match plan.application with
    | none => .error ⟨"application target requires application proof"⟩
    | some application => do
      application.validate
      bailIf (plan.windowId.isSome || plan.pid != some application.primaryPid ||
          plan.processInstanceId != application.processInstanceId ||
          plan.appIdentity != application.appIdentity ||
          plan.bundleId != application.bundleId ||
          (plan.displayId.isSome && plan.displayId != application.displayId))
        ⟨"application locator and application proof disagree"⟩

/-! ## Configuration -/

/-- `VideoConfig`; the codec has one value. -/
structure VideoConfig where
  width : UInt32
  height : UInt32
  fps : UInt32
  bitrateKbps : UInt32
  keyframeIntervalFrames : UInt32
  maxPendingFrames : UInt32
  maxAccessUnitBytes : UInt32
  maxNalUnitBytes : UInt32
  h264ProfileIdc : UInt8
  h264LevelIdc : UInt8
deriving DecidableEq, Repr

/-- `VideoConfig::validate`. -/
def VideoConfig.validate (video : VideoConfig) : Except ValidationError Unit :=
  bailIf (video.width == 0 || video.height == 0 || video.width % 2 != 0 ||
      video.height % 2 != 0 || video.width.toNat * video.height.toNat > maxCapturePixels ||
      !(1 ≤ video.fps && video.fps ≤ 240) || video.bitrateKbps == 0 ||
      video.bitrateKbps > 200000 || video.keyframeIntervalFrames == 0 ||
      video.keyframeIntervalFrames.toNat >
        min (video.fps.toNat * maxKeyframeRecoverySeconds) (2 ^ 32 - 1) ||
      video.maxPendingFrames == 0 || video.maxPendingFrames > 3 ||
      video.maxAccessUnitBytes == 0 || video.maxAccessUnitBytes.toNat > maxPayloadBytes ||
      video.maxNalUnitBytes < 256 || video.maxNalUnitBytes > video.maxAccessUnitBytes ||
      video.h264ProfileIdc != 66 || video.h264LevelIdc == 0)
    ⟨"invalid media video configuration"⟩

/-- `AudioConfig`; the codec has one value. -/
structure AudioConfig where
  sampleRateHz : UInt32
  channels : UInt8
  frameDurationMs : UInt32
  maxPendingPackets : UInt32
deriving DecidableEq, Repr

/-- `AudioConfig::validate`. -/
def AudioConfig.validate (audio : AudioConfig) : Except ValidationError Unit :=
  bailIf (audio.sampleRateHz != 48000 || audio.channels != 2 || audio.frameDurationMs != 20 ||
      audio.maxPendingPackets == 0 || audio.maxPendingPackets > 4)
    ⟨"invalid media audio configuration"⟩

/-- `StartContract`. -/
structure StartContract where
  target : NativeTargetPlan
  video : VideoConfig
  audio : Option AudioConfig
deriving DecidableEq, Repr

/-- `StartContract::validate`. -/
def StartContract.validate (contract : StartContract) : Except ValidationError Unit := do
  contract.target.validate
  contract.video.validate
  match contract.audio with
  | some audio => audio.validate
  | none => .ok ()

/-! ## Commands -/

/-- `CommandBody`. -/
inductive CommandBody
  | startPrepared (contract : StartContract)
  | activate
  | beginMedia (activationCommandSequence : UInt64)
  | reconfigure (video : VideoConfig) (forceKeyframe : Bool)
  | resumeMedia (reconfigureCommandSequence : UInt64)
  | requestKeyframe
  | stop
deriving DecidableEq, Repr

/-- `Command`. -/
structure Command where
  schemaVersion : UInt32
  protocol : String
  fence : GenerationFence
  sequence : UInt64
  body : CommandBody
deriving DecidableEq, Repr

/-- `validate_envelope`. -/
def validateEnvelope (version : UInt32) (protocol : String) (fence : GenerationFence)
    (sequence : UInt64) : Except ValidationError Unit := do
  bailIf (version != schemaVersion || protocol != protocolName || sequence == 0)
    ⟨"unsupported media-host envelope"⟩
  fence.validate

/-- `Command::validate`, over the digest of a contract that passes its own check. -/
def Command.validate (digest : StartContract → String) (command : Command) :
    Except ValidationError Unit := do
  validateEnvelope command.schemaVersion command.protocol command.fence command.sequence
  match command.body with
  | .startPrepared contract => do
    contract.validate
    bailIf (digest contract != command.fence.contractDigest)
      ⟨"media start contract digest does not match generation fence"⟩
  | .reconfigure video _ => video.validate
  | .beginMedia activation => bailIf (activation == 0) ⟨"invalid activation barrier"⟩
  | .resumeMedia reconfigure => bailIf (reconfigure == 0) ⟨"invalid reconfigure barrier"⟩
  | .activate | .requestKeyframe | .stop => .ok ()

end EasyNetDaemon.MediaSession
