import EasyNetDaemon.Library.RustText
import EasyNetDaemon.RemoteDesktop.EventLog

/-!
# Recovery snapshots of sessions

A snapshot is what a session leaves on disk for the next start of the daemon. The store replaces a
snapshot only by one of a later lifecycle: terminal over closing over the rest, then by the last
event and the time of change.
-/

namespace EasyNetDaemon.RemoteDesktop

open Library

/-- `SNAPSHOT_SCHEMA_VERSION`. -/
def snapshotSchemaVersion : Nat := 2

/-- A JSON value of a snapshot. Recovery compares it as a whole and asks whether it is an object. -/
structure StoredValue where
  isObject : Bool
  text : String
  deriving DecidableEq, Repr

/-- What a session leaves on disk; the body of an event is its JSON text. -/
structure RecoverySnapshot where
  schemaVersion : Nat
  sessionId : String
  sessionToken : String
  creatorCallerUra : String
  selectedResourceUra : String
  subjectDisplayName : String
  targetBinding : StoredValue
  targetTracking : Option StoredValue
  consent : StoredValue
  mode : String
  transportPreferences : List String
  video : StoredValue
  inputPolicy : StoredValue
  createdAtMs : Nat
  updatedAtMs : Nat
  leaseExpiresAtMs : Nat
  lifecycleState : String
  terminationReason : Option String
  transportEpochHighWatermark : Nat
  inputRuntimeBlockReason : Option String
  terminalReceipt : Option StoredValue
  events : List (EventRecord String)
  deriving DecidableEq, Repr

namespace RecoverySnapshot

/-- The texts that `require_non_empty` asks for, with those that only some snapshots have. -/
def requiredTexts (r : RecoverySnapshot) : List String :=
  [r.sessionId, r.sessionToken, r.creatorCallerUra, r.selectedResourceUra, r.subjectDisplayName,
      r.mode, r.lifecycleState] ++
    (if r.lifecycleState = "closing" then [r.terminationReason.getD ""] else []) ++
    r.inputRuntimeBlockReason.toList

/-- The values that `require_object` asks for. -/
def requiredObjects (r : RecoverySnapshot) : List StoredValue :=
  [r.targetBinding, r.consent, r.video, r.inputPolicy] ++ r.targetTracking.toList ++
    r.terminalReceipt.toList

/-- The snapshot is checked when it is made; `none` is an error. -/
def validate (r : RecoverySnapshot) : Option RecoverySnapshot :=
  if r.schemaVersion ≠ snapshotSchemaVersion then none
  else if r.requiredTexts.any RustText.isBlank then none
  else if !"easynet:///r/".toList.isPrefixOf r.selectedResourceUra.toList then none
  else if !r.requiredObjects.all StoredValue.isObject then none
  else if r.updatedAtMs < r.createdAtMs ∨ r.leaseExpiresAtMs < r.createdAtMs then none
  else some r

/-- A receipt, or a state that ends the session. -/
def terminal (r : RecoverySnapshot) : Bool :=
  r.terminalReceipt.isSome || r.lifecycleState = "closed" || r.lifecycleState = "failed"

/-- The largest number of an event, 0 for none. -/
def lastEventSequence (r : RecoverySnapshot) : Nat := EventLog.maxSequence r.events

/-- `recovery_lifecycle_rank`. -/
def lifecycleRank (r : RecoverySnapshot) : Nat :=
  if r.terminal then 2 else if r.lifecycleState = "closing" then 1 else 0

/-- The order of snapshots of the same rank. -/
def revision (r : RecoverySnapshot) : Nat × Nat := (r.lastEventSequence, r.updatedAtMs)

/-- `recovery_snapshot_should_replace`; `none` is an error. -/
def shouldReplace (existing incoming : RecoverySnapshot) : Option Bool :=
  if existing.sessionId ≠ incoming.sessionId then none
  else if existing.sessionToken ≠ incoming.sessionToken then
    if incoming.createdAtMs < existing.createdAtMs then some false
    else if existing.createdAtMs < incoming.createdAtMs then some true
    else none
  else if incoming.lifecycleRank < existing.lifecycleRank then some false
  else if existing.lifecycleRank < incoming.lifecycleRank then some true
  else
    let (oldSequence, oldUpdated) := existing.revision
    let (newSequence, newUpdated) := incoming.revision
    if newSequence < oldSequence ∨ newSequence = oldSequence ∧ newUpdated < oldUpdated then
      some false
    else if oldSequence < newSequence ∨ newSequence = oldSequence ∧ oldUpdated < newUpdated then
      some true
    else if existing = incoming then some false
    else none

end RecoverySnapshot

end EasyNetDaemon.RemoteDesktop
