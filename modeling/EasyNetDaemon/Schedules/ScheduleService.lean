import EasyNetDaemon.Library.Enumeration
import EasyNetDaemon.Library.Fallible
import EasyNetDaemon.Library.RustText
import EasyNetDaemon.Library.StepRun
import Mathlib.Algebra.Group.Int.Defs
import Mathlib.Algebra.Group.Nat.Defs
import Mathlib.Data.List.AList

/-!
# The schedule service and its ticks

The model of `execution/schedule`: the selection of the fires that are due (`due`), the ledger of
reserved fires (`reserve_fire`, `complete_fire`, `fail_fire`), the checks at boot, and the task of
the daemon that asks for the due fires and reserves each of them. An update of the ledger changes
the cache under its lock and saves a clone of the entry afterwards, without a lock: saves come in
any order, and those that have not come before a restart are lost.

Times are nanoseconds since the epoch. A cron expression has whole seconds as its instants; the
`cron` crate enumerates them in increasing order, and is the parameter `parseCron`.
-/

namespace EasyNetDaemon.Schedules

open Library

/-! ## Times -/

/-- The nanoseconds of a second. -/
def nanosPerSec : Int := 1000000000

/-- The nanoseconds of a millisecond. -/
def nanosPerMilli : Int := 1000000

/-- The range of `chrono::DateTime<Utc>`. -/
def minUtc : Int := -8334601228800 * nanosPerSec

/-- The last instant of chrono. -/
def maxUtc : Int := 8210266876800 * nanosPerSec - 1

/-- An instant that chrono has. -/
structure DateTime where
  nanos : Int
  min_le : minUtc ≤ nanos
  le_max : nanos ≤ maxUtc
  deriving DecidableEq

/-- `timestamp_millis`. -/
def timestampMillis (t : Int) : Int := t / nanosPerMilli

/-- `Utc.timestamp_millis_opt(ms).single()`. -/
def timestampMillisOpt (ms : Int) : Option Int :=
  if minUtc ≤ ms * nanosPerMilli ∧ ms * nanosPerMilli ≤ maxUtc then some (ms * nanosPerMilli)
  else none

/-- `chrono::Duration::seconds`, which panics outside of its range. -/
def durationSeconds (secs : Int) : Option Int :=
  if -9223372036854775 ≤ secs ∧ secs ≤ 9223372036854775 then some (secs * nanosPerSec) else none

/-! ## Persisted data -/

/-- What is done about missed fires. -/
inductive MisfirePolicy
  | skip
  | fireOnce
  | catchUpWindowed
  deriving DecidableEq, Repr

/-- Where a fire stands. -/
inductive ScheduleFireState
  | reserved
  | completed
  | failed
  deriving DecidableEq, Repr

/-- The derived `Debug` text. -/
def ScheduleFireState.debug : ScheduleFireState → String
  | .reserved => "Reserved"
  | .completed => "Completed"
  | .failed => "Failed"

/-- A record of the fire ledger. -/
structure ScheduleFireRecord where
  fireAtUnixMs : Int
  state : ScheduleFireState
  invocationId : Option String
  receiptHash : Option String
  error : Option String
  deriving DecidableEq, Repr

/-- The fires of a schedule by their key, the scheduled millisecond. -/
abbrev FireLedger : Type := AList fun _ : Int => ScheduleFireRecord

/-- A schedule. -/
structure ScheduleEntry where
  id : String
  targetNode : String
  targetAgent : String
  cronExpr : String
  misfirePolicy : MisfirePolicy
  catchUpWindowSecs : Option UInt64
  enabled : Bool
  prompt : String
  fireLedger : FireLedger

/-- One fire decision. -/
structure DueFire where
  scheduleId : String
  fireAt : Int
  catchUp : Bool
  deriving DecidableEq, Repr

/-- Third-party code, and the check of a schedule's authority. -/
structure ScheduleEnv where
  /-- `CronSchedule::from_str`; the enumeration is that of `after`, in seconds. -/
  parseCron : String → Except String Enumeration
  /-- The `Debug` text of a string. -/
  debugStr : String → String
  hexEncode : List UInt8 → String
  hexDecode : String → Option (List UInt8)
  validateDeferredScheduleAuthority : ScheduleEntry → Except String Unit

/-! ## Due fires -/

/-- Why `due` gives no answer: an error, or a panic in `chrono`. -/
inductive DueError
  | invalidCron (message : String)
  | outOfRange
  deriving DecidableEq, Repr

/-- The number of words between white space. -/
def wordCount (cs : List Char) : Nat :=
  ((cs.splitOnP RustText.isWhitespace).filter fun word => !word.isEmpty).length

/-- The fires of an expression. -/
def parseCron (env : ScheduleEnv) (expr : String) : Except String Enumeration := do
  let trimmed := RustText.trim expr
  bailIf trimmed.isEmpty "cron expression is empty"
  let canonical := if wordCount trimmed.toList = 5 then "0 " ++ trimmed else trimmed
  (env.parseCron canonical).mapError fun e =>
    "invalid cron expression " ++ env.debugStr expr ++ ": " ++ e

/-- The fires of a schedule. -/
def parseEntryCron (env : ScheduleEnv) (entry : ScheduleEntry) : Except DueError Enumeration :=
  (parseCron env entry.cronExpr).mapError fun err =>
    .invalidCron ("schedule " ++ entry.id ++ " has invalid cron: " ++ err)

/-- The window of an entry in seconds, one day by default. -/
def ScheduleEntry.window (entry : ScheduleEntry) : Nat :=
  (entry.catchUpWindowSecs.map UInt64.toNat).getD 86400

/-- The window as the code has it, cast to `i64`. -/
def catchUpSecondsFor (entry : ScheduleEntry) : Int :=
  if entry.window < 2 ^ 63 then entry.window else (entry.window : Int) - 2 ^ 64

/-- The last fire in the ledger. -/
def ScheduleEntry.lastFire (entry : ScheduleEntry) : Option Int :=
  entry.fireLedger.keys.max?.bind timestampMillisOpt

/-- The time from which fires are due. -/
def anchorFor (entry : ScheduleEntry) (now : DateTime) : Except DueError Int :=
  match entry.lastFire with
  | some lastFire => .ok lastFire
  | none =>
    match durationSeconds (catchUpSecondsFor entry) with
    | none => .error .outOfRange
    | some window =>
      if minUtc ≤ now.nanos - window ∧ now.nanos - window ≤ maxUtc then .ok (now.nanos - window)
      else .error .outOfRange

/-- The instants after the anchor and up to now. -/
def firesBetween (cron : Enumeration) (anchor now : Int) : List Int :=
  (cron.between (anchor / nanosPerSec) (now / nanosPerSec)).map (· * nanosPerSec)

/-- The fires of one entry. -/
def dueEntry (env : ScheduleEnv) (entry : ScheduleEntry) (now : DateTime) :
    Except DueError (List DueFire) := do
  let cron ← parseEntryCron env entry
  let anchor ← anchorFor entry now
  let fires := firesBetween cron anchor now.nanos
  let dueFire := fun t =>
    { scheduleId := entry.id, fireAt := t, catchUp := decide (1 < fires.length) }
  if fires.isEmpty then return []
  match entry.misfirePolicy with
  | .skip => return fires.getLast?.toList.map dueFire
  | .fireOnce => return fires.head?.toList.map dueFire
  | .catchUpWindowed =>
    match durationSeconds (catchUpSecondsFor entry) with
    | none => .error .outOfRange
    | some window => return (fires.filter fun t => now.nanos - t ≤ window).map dueFire

/-- `due`, over the entries in the order of their ids. -/
def due (env : ScheduleEnv) : List ScheduleEntry → DateTime → Except DueError (List DueFire)
  | [], _ => .ok []
  | entry :: rest, now =>
    if entry.enabled then do
      let fires ← dueEntry env entry now
      let others ← due env rest now
      return fires ++ others
    else due env rest now

/-! ## The ledger -/

/-- Schedules with different ids. -/
structure ScheduleTable where
  entries : List ScheduleEntry
  nodup : (entries.map ScheduleEntry.id).Nodup

/-- The schedule with an id. -/
def ScheduleTable.find (t : ScheduleTable) (id : String) : Option ScheduleEntry :=
  t.entries.find? fun entry => entry.id = id

/-- The entry, or the one that replaces it. -/
def ScheduleEntry.replacedBy (entry new : ScheduleEntry) : ScheduleEntry :=
  if entry.id = new.id then new else entry

theorem map_id_replacedBy (l : List ScheduleEntry) (new : ScheduleEntry) :
    (l.map fun entry => entry.replacedBy new).map ScheduleEntry.id = l.map ScheduleEntry.id := by
  rw [List.map_map]
  refine List.map_congr_left fun entry _ => ?_
  simp only [Function.comp_apply, ScheduleEntry.replacedBy]
  split
  · next hid => exact hid.symm
  · rfl

/-- The schedule with the id of the entry is replaced. -/
def ScheduleTable.put (t : ScheduleTable) (new : ScheduleEntry) : ScheduleTable where
  entries := t.entries.map fun entry => entry.replacedBy new
  nodup := by
    rw [map_id_replacedBy]
    exact t.nodup

/-- The cache, the files of the store, and the clones that are still to be saved. -/
structure ScheduleService where
  cache : ScheduleTable
  store : ScheduleTable
  unsaved : List ScheduleEntry

/-- The transition of one record. -/
def updateLedger (id : String) (ledger : FireLedger) (record : ScheduleFireRecord) :
    Except String FireLedger := do
  let fireKey := record.fireAtUnixMs
  match ledger.lookup fireKey with
  | some previous =>
    bailIf (previous.state ≠ .reserved || record.state = .reserved)
      ("schedule " ++ id ++ " fire " ++ toString fireKey ++ " cannot transition " ++
        previous.state.debug ++ " -> " ++ record.state.debug)
  | none =>
    bailIf (record.state ≠ .reserved)
      ("schedule " ++ id ++ " fire " ++ toString fireKey ++
        " must be reserved before terminal update")
  return ledger.insert fireKey record

/-- `update_fire_record` up to the save of the clone. -/
def updateFireRecord (s : ScheduleService) (id : String) (record : ScheduleFireRecord) :
    Except String ScheduleService :=
  match s.cache.find id with
  | none => .error ("schedule " ++ id ++ " not found")
  | some entry => do
    let ledger ← updateLedger id entry.fireLedger record
    let entry := { entry with fireLedger := ledger }
    return { s with cache := s.cache.put entry, unsaved := s.unsaved ++ [entry] }

/-- `store.save` of a clone. -/
def saveClone (s : ScheduleService) (i : Nat) : Option ScheduleService :=
  s.unsaved[i]?.map fun clone =>
    { s with store := s.store.put clone, unsaved := s.unsaved.eraseIdx i }

/-- `bind` of the store at boot. -/
def reload (s : ScheduleService) : ScheduleService := ⟨s.store, s.store, []⟩

/-- The record that `reserve_fire` writes. -/
def reservedRecord (fire : DueFire) : ScheduleFireRecord where
  fireAtUnixMs := timestampMillis fire.fireAt
  state := .reserved
  invocationId := none
  receiptHash := none
  error := none

/-- Reserves a fire. -/
def reserveFire (s : ScheduleService) (fire : DueFire) : Except String ScheduleService :=
  updateFireRecord s fire.scheduleId (reservedRecord fire)

/-- Records that a fire was completed. -/
def completeFire (env : ScheduleEnv) (s : ScheduleService) (id : String) (fireAtUnixMs : Int)
    (invocationId : String) (receiptHash : List UInt8) : Except String ScheduleService :=
  updateFireRecord s id {
    fireAtUnixMs
    state := .completed
    invocationId := some invocationId
    receiptHash := some (env.hexEncode receiptHash)
    error := none }

/-- Records that a fire failed. -/
def failFire (s : ScheduleService) (id : String) (fireAtUnixMs : Int) (error : String) :
    Except String ScheduleService :=
  updateFireRecord s id {
    fireAtUnixMs
    state := .failed
    invocationId := none
    receiptHash := none
    error := some error }

/-! ## Checks at boot -/

/-- A record of the ledger is consistent. -/
def validateScheduleFireRecord (env : ScheduleEnv) (id : String) (fireKey : Int)
    (record : ScheduleFireRecord) : Except String Unit := do
  bailIf (fireKey ≠ record.fireAtUnixMs)
    ("schedule " ++ id ++ " fire ledger key " ++ toString fireKey ++ " does not match record " ++
      toString record.fireAtUnixMs)
  match record.state with
  | .reserved =>
    bailIf (record.invocationId.isSome || record.receiptHash.isSome || record.error.isSome)
      ("schedule " ++ id ++ " reserved fire " ++ toString fireKey ++ " has terminal facts")
  | .completed =>
    bailIf ((record.invocationId.getD "").isEmpty ||
        (env.hexDecode (record.receiptHash.getD "")).all (fun bytes => bytes.length ≠ 32) ||
        record.error.isSome)
      ("schedule " ++ id ++ " completed fire " ++ toString fireKey ++
        " has invalid receipt facts")
  | .failed =>
    bailIf ((record.error.getD "").isEmpty || record.invocationId.isSome ||
        record.receiptHash.isSome)
      ("schedule " ++ id ++ " failed fire " ++ toString fireKey ++ " has invalid failure facts")

/-- The checks of `bind` on an entry that it has loaded. -/
def validateEntry (env : ScheduleEnv) (entry : ScheduleEntry) : Except String Unit := do
  let _ ← parseCron env entry.cronExpr
  bailIf (RustText.trim entry.prompt).isEmpty "schedule prompt must be non-empty"
  env.validateDeferredScheduleAuthority entry
  checkAll (fun record => validateScheduleFireRecord env entry.id record.1 record.2)
    (entry.fireLedger.entries.map fun record => (record.1, record.2))

/-! ## The daemon -/

/-- The service with the task that ticks, and what `due` has returned at each tick. -/
structure ScheduleDaemon where
  service : ScheduleService
  ticking : Bool
  log : List (List DueFire)

/-- A tick, the end of a fire, the save of a clone, or a restart of the daemon. -/
inductive ScheduleEvent
  | tick (now : DateTime)
  | complete (id : String) (fireAtUnixMs : Int) (invocationId : String) (receiptHash : List UInt8)
  | fail (id : String) (fireAtUnixMs : Int) (error : String)
  | save (i : Nat)
  | restart

/-- The runner reserves every fire; one that cannot be reserved is passed over. -/
def reserveAll (s : ScheduleService) (fires : List DueFire) : ScheduleService :=
  fires.foldl (fun s fire => (reserveFire s fire).toOption.getD s) s

/-- One step of the daemon. -/
def ScheduleDaemon.step (env : ScheduleEnv) (d : ScheduleDaemon) :
    ScheduleEvent → Option ScheduleDaemon
  | .tick now =>
    if d.ticking then
      match due env d.service.cache.entries now with
      | .ok fires => some { d with
          service := reserveAll d.service fires
          log := d.log ++ [fires] }
      | .error (.invalidCron _) => some { d with log := d.log ++ [[]] }
      -- a panic ends the task
      | .error .outOfRange => some { d with ticking := false, log := d.log ++ [[]] }
    else none
  | .complete id fireAtUnixMs invocationId receiptHash =>
    some { d with service := (completeFire env d.service id fireAtUnixMs invocationId
      receiptHash).toOption.getD d.service }
  | .fail id fireAtUnixMs error =>
    some { d with service := (failFire d.service id fireAtUnixMs error).toOption.getD d.service }
  | .save i => (saveClone d.service i).map fun service => { d with service }
  | .restart =>
    match checkAll (validateEntry env) d.service.store.entries with
    | .ok () => some { d with service := reload d.service, ticking := true }
    | .error _ => none

/-- The daemon after a list of events. -/
abbrev ScheduleDaemon.run (env : ScheduleEnv) :
    ScheduleDaemon → List ScheduleEvent → Option ScheduleDaemon :=
  runSteps (ScheduleDaemon.step env)

end EasyNetDaemon.Schedules
