import EasyNetDaemon.Library.StepRun

/-!
# The bidi frame scheduler

The model of `session_initiator/frame_scheduler.rs`. A call of `route` takes a permit of the
session, one of its call, and puts its frame into the channel; the scheduler task takes frames out,
keeps at most one of each call in flight and the others of the call in a queue; a frame gives its
permits back when the dispatcher has answered. Each access to a counter, to the channel or to the
task's own state is one step. Dropping the handle aborts the task; that closes the channel, too.

`accepted` and `handed` keep the frames that `route` has put into the channel and those that were
handed to the dispatcher; the program has neither.
-/

namespace EasyNetDaemon.Bidi

open Library

/-- `DISPATCH_CHANNEL_CAPACITY`. -/
def dispatchChannelCapacity : Nat := 256

/-- `BIDI_FRAMES_PER_CALL`. -/
def bidiFramesPerCall : Nat := 64

/-- A bidi input frame with the id of its call. -/
structure ScheduledFrame (F : Type) where
  callId : Nat
  frame : F
deriving DecidableEq, Repr

/-- `SessionFrameScheduleError`, without the errors of the dispatcher. -/
inductive ScheduleError
  | callSaturated (callId limit : Nat)
  | sessionSaturated (callId limit : Nat)
  | closed (callId : Nat)
deriving DecidableEq, Repr

/-- Where a call of `route` stands: it has the permit of the session, it has both, it has failed
with both, or it has failed and given the permit of its call back or never got it. -/
inductive RouteStage
  | acquired
  | admitted
  | failed (e : ScheduleError)
  | refused (e : ScheduleError)
deriving DecidableEq, Repr

/-- A call of `route` in progress. -/
structure Routing (F : Type) where
  scheduled : ScheduledFrame F
  stage : RouteStage
deriving DecidableEq, Repr

/-- Where a frame in flight stands: its future was not polled yet, the dispatcher has it, the permit
of its call is given back, both are. -/
inductive FlightPhase
  | spawned
  | running
  | released
  | done
deriving DecidableEq, Repr

/-- A frame in flight. -/
structure Flight (F : Type) where
  scheduled : ScheduledFrame F
  phase : FlightPhase
deriving DecidableEq, Repr

/-- The scheduler task: its loop runs, has ended, or was cut off. -/
inductive TaskState
  | running
  | returned
  | cancelled
deriving DecidableEq, Repr

/-- The scheduler. `taking` is a frame that was taken out of the channel and whose place there is
not free yet; `pending` holds the queues of all calls in one list. -/
structure Scheduler (F : Type) where
  globalTaken : Nat
  perCall : Nat → Nat
  routes : List (Routing F)
  channel : List (ScheduledFrame F)
  taking : Option (ScheduledFrame F)
  pending : List (ScheduledFrame F)
  active : List Nat
  inFlight : List (Flight F)
  inputClosed : Bool
  handle : Bool
  aborted : Bool
  task : TaskState
  accepted : List (ScheduledFrame F)
  handed : List (ScheduledFrame F)
  refused : List ScheduleError

/-- What happens to a scheduler. The positions are those of a call of `route` in progress and of a
frame in flight. -/
inductive SchedulerOp (F : Type)
  | acquire (scheduled : ScheduledFrame F)
  | admitFrame (i : Nat)
  | send (i : Nat)
  | dropPermit (i : Nat)
  | refuse (i : Nat)
  | take
  | place
  | sawClosed
  | poll (i : Nat)
  | finish (i : Nat)
  | release (i : Nat)
  | collect (i : Nat)
  | exit
  | drop
  | cancel
deriving DecidableEq, Repr

namespace Scheduler

variable {F : Type}

/-- `SessionDownFrameScheduler::spawn`. -/
def spawn : Scheduler F where
  globalTaken := 0
  perCall := fun _ => 0
  routes := []
  channel := []
  taking := none
  pending := []
  active := []
  inFlight := []
  inputClosed := false
  handle := true
  aborted := false
  task := .running
  accepted := []
  handed := []
  refused := []

variable (s : Scheduler F)

/-- The first step of `reserve`: a permit of the session. -/
def acquire (scheduled : ScheduledFrame F) : Scheduler F :=
  if s.globalTaken < dispatchChannelCapacity then
    { s with
      globalTaken := s.globalTaken + 1
      routes := s.routes ++ [{ scheduled, stage := .acquired }] }
  else
    { s with
      refused := s.refused ++ [.sessionSaturated scheduled.callId dispatchChannelCapacity] }

/-- The second step of `reserve`: a permit of the call. -/
def admitFrame (i : Nat) (r : Routing F) : Scheduler F :=
  if bidiFramesPerCall ≤ s.perCall r.scheduled.callId then
    { s with
      routes := s.routes.set i
        { r with stage := .refused (.callSaturated r.scheduled.callId bidiFramesPerCall) } }
  else
    { s with
      perCall := Function.update s.perCall r.scheduled.callId (s.perCall r.scheduled.callId + 1)
      routes := s.routes.set i { r with stage := .admitted } }

/-- The places of the channel that are taken. -/
def slotsTaken : Nat := s.channel.length + s.taking.toList.length

/-- `try_send` of `route`. -/
def send (i : Nat) (r : Routing F) : Scheduler F :=
  if s.task ≠ .running then
    { s with routes := s.routes.set i { r with stage := .failed (.closed r.scheduled.callId) } }
  else if s.slotsTaken < dispatchChannelCapacity then
    { s with
      routes := s.routes.eraseIdx i
      channel := s.channel ++ [r.scheduled]
      accepted := s.accepted ++ [r.scheduled] }
  else
    { s with
      routes := s.routes.set i
        { r with
          stage := .failed (.sessionSaturated r.scheduled.callId dispatchChannelCapacity) } }

/-- `release_call`. -/
def releaseCall (callId : Nat) : Scheduler F :=
  { s with perCall := Function.update s.perCall callId (s.perCall callId - 1) }

/-- A frame taken out of the channel goes into flight if its call has none there. -/
def place (scheduled : ScheduledFrame F) : Scheduler F :=
  if scheduled.callId ∈ s.active then
    { s with taking := none, pending := s.pending ++ [scheduled] }
  else
    { s with
      taking := none
      active := scheduled.callId :: s.active
      inFlight := s.inFlight ++ [{ scheduled, phase := .spawned }] }

/-- The next frame of a call goes into flight, or the call is no longer active. -/
def next (callId : Nat) : Scheduler F :=
  match s.pending.find? fun scheduled => scheduled.callId == callId with
  | some scheduled =>
    { s with
      pending := s.pending.eraseP fun scheduled => scheduled.callId == callId
      inFlight := s.inFlight ++ [{ scheduled, phase := .spawned }] }
  | none => { s with active := s.active.erase callId }

/-- The task is cut off: what it holds is dropped. -/
def cancel : Scheduler F :=
  { s with
    globalTaken := 0
    perCall := fun _ => 0
    channel := []
    taking := none
    pending := []
    active := []
    inFlight := []
    task := .cancelled }

/-- A step of the call of `route` at a position. -/
def routeStep (i : Nat) (stage : RouteStage → Bool) (change : Routing F → Scheduler F) :
    Option (Scheduler F) :=
  s.routes[i]?.bind fun r => if stage r.stage then some (change r) else none

/-- A step of the frame in flight at a position. -/
def flightStep (i : Nat) (phase : FlightPhase) (change : Flight F → Scheduler F) :
    Option (Scheduler F) :=
  s.inFlight[i]?.bind fun f => if f.phase = phase then some (change f) else none

/-- A step of the task's loop. -/
def taskStep (ready : Bool) (change : Scheduler F) : Option (Scheduler F) :=
  if s.task = .running ∧ s.taking = none ∧ ready = true then some change else none

/-- One step. -/
def step : SchedulerOp F → Option (Scheduler F)
  | .acquire scheduled => if s.handle then some (s.acquire scheduled) else none
  | .admitFrame i => s.routeStep i (· == .acquired) (s.admitFrame i)
  | .send i => s.routeStep i (· == .admitted) (s.send i)
  | .dropPermit i =>
    s.routes[i]?.bind fun r =>
      match r.stage with
      | .failed e =>
        some { s.releaseCall r.scheduled.callId with
          routes := s.routes.set i { r with stage := .refused e } }
      | _ => none
  | .refuse i =>
    s.routes[i]?.bind fun r =>
      match r.stage with
      | .refused e =>
        some { s with
          globalTaken := s.globalTaken - 1
          routes := s.routes.eraseIdx i
          refused := s.refused ++ [e] }
      | _ => none
  | .take =>
    match s.channel with
    | scheduled :: rest =>
      s.taskStep (!s.inputClosed) { s with taking := some scheduled, channel := rest }
    | [] => none
  | .place => if s.task = .running then s.taking.map s.place else none
  | .sawClosed =>
    s.taskStep (!s.inputClosed && !s.handle && s.channel.isEmpty) { s with inputClosed := true }
  | .poll i =>
    if s.task = .running then
      s.flightStep i .spawned fun f =>
        { s with
          inFlight := s.inFlight.set i { f with phase := .running }
          handed := s.handed ++ [f.scheduled] }
    else none
  | .finish i =>
    if s.task = .running then
      s.flightStep i .running fun f =>
        { s.releaseCall f.scheduled.callId with
          inFlight := s.inFlight.set i { f with phase := .released } }
    else none
  | .release i =>
    if s.task = .running then
      s.flightStep i .released fun f =>
        { s with
          globalTaken := s.globalTaken - 1
          inFlight := s.inFlight.set i { f with phase := .done } }
    else none
  | .collect i =>
    (s.flightStep i .done fun f =>
      { s with inFlight := s.inFlight.eraseIdx i }.next f.scheduled.callId).bind fun s' =>
        s.taskStep true s'
  | .exit => s.taskStep (s.inputClosed && s.inFlight.isEmpty) { s with task := .returned }
  | .drop =>
    if s.handle ∧ s.routes = [] then some { s with handle := false, aborted := true } else none
  | .cancel => if s.aborted ∧ s.task = .running then some s.cancel else none

end Scheduler

end EasyNetDaemon.Bidi
