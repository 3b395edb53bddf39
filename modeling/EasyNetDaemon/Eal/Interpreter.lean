import EasyNetDaemon.Eal.StepExecution

/-!
# The mission interpreter

The model of `eal/interpreter/phases.rs` and `mod.rs`: the phases of a mission run one after the
other; the calls of a phase are dispatched in batches, required ones first, by worker threads in any
order or one by one (`dispatchBatch`); loops run their blocks call by call until the last `verify`
call says `done` (`executeLoop`). `PhaseRunState.events` keeps every result that was processed; the
program does not have it, statements about a run do.
-/

namespace EasyNetDaemon.Eal

open Library EasyNetDaemon.Core

/-! ## Processing results -/

/-- A processed result, and whether the call stands inside a loop. -/
structure StepEvent where
  call : IrCall
  phase : Nat
  inLoop : Bool
  result : StepExecResult

/-- How an event was classified. -/
def StepEvent.outcome (event : StepEvent) : StepOutcome := stepOutcome event.call event.result

/-- What a run has gathered. -/
structure PhaseRunState where
  captured : Captured
  receiptGraph : List Json
  skippedBindings : List String
  completed : Nat
  failed : Nat
  skipped : Nat
  aborted : Bool
  allTraces : CappedTraceBuffer
  events : List StepEvent

/-- A new entry for the output of a call, if it is bound to a name. -/
def capture (binding : Option String) (result : CapturedResult) (captured : Captured) : Captured :=
  match binding with
  | some name => (name, result) :: captured
  | none => captured

/-- A new skipped name. -/
def noteSkipped (binding : Option String) (skipped : List String) : List String :=
  match binding with
  | some name => name :: skipped
  | none => skipped

/-- The counters, captured outputs and flags after a result. -/
def countResult (call : IrCall) (result : StepExecResult) (st : PhaseRunState) : PhaseRunState :=
  match result with
  | .ok bytes _ _ invocation =>
    { st with
      completed := st.completed + 1
      receiptGraph := st.receiptGraph ++ [invocation.projection]
      captured := capture call.outputBinding { value := bytes, invocation } st.captured }
  | _ =>
    match stepOutcome call result with
    | .skipped =>
      { st with
        skipped := st.skipped + 1
        skippedBindings := noteSkipped call.outputBinding st.skippedBindings }
    | _ =>
      { st with
        failed := st.failed + 1
        aborted := st.aborted || (!call.optional && call.onFailure == .abort) }

/-- Processes one result. -/
def processResult (codec : JsonCodec) (phaseIdx : Nat) (inLoop : Bool) (st : PhaseRunState)
    (call : IrCall) (result : StepExecResult) : PhaseRunState :=
  let st := countResult call result st
  { st with
    allTraces := st.allTraces.push (stepTrace codec call phaseIdx result)
    events := st.events ++ [{ call, phase := phaseIdx, inLoop, result }] }

/-- A result of a batch, with the position of its step. -/
structure BatchResult where
  index : Nat
  call : IrCall
  result : StepExecResult

/-- Processes the results of a batch of top-level calls. -/
def processBatch (codec : JsonCodec) (phaseIdx : Nat) (st : PhaseRunState)
    (results : List BatchResult) : PhaseRunState :=
  results.foldl (fun st r => processResult codec phaseIdx false st r.call r.result) st

/-! ## Dispatching a batch -/

/-- Why a call is not dispatched: an input was skipped. -/
def dependencySkipped (binding arg : String) : String :=
  "skipped: input `" ++ arg ++ "` depends on `" ++ binding ++ "` which was skipped upstream"

/-- The result of a call whose arguments cannot be resolved. -/
def unresolvedResult : ResolveError → StepExecResult
  | .upstreamSkipped binding arg => .skippedByDependency (dependencySkipped binding arg)
  | .other e => .error e 0 []

/-- A call with its arguments resolved, or the result it has without being dispatched. -/
def prepareCall (codec : JsonCodec) (phaseIdx : Nat) (captured : Captured) (skipped : List String)
    (receiptGraph : List Json) (call : IrCall) : Except StepExecResult PreparedCall :=
  match resolveArguments codec call captured skipped with
  | .error e => .error (unresolvedResult e)
  | .ok args => .ok {
      call
      phase := phaseIdx
      arguments := substituteReceiptGraph args receiptGraph
      dependencyReceipts := dependencyReceiptsFromCaptured call captured }

/-- A call of a batch with its position. -/
abbrev IndexedCall := Nat × IrCall

/-- Dispatches the calls of a batch one after the other. -/
def dispatchInOrder (env : RunEnv) (prepare : IrCall → Except StepExecResult PreparedCall) :
    List IndexedCall → DispatchLog → List BatchResult × DispatchLog
  | [], log => ([], log)
  | (index, call) :: rest, log =>
    match prepare call with
    | .error result =>
      let (results, log') := dispatchInOrder env prepare rest log
      ({ index, call, result } :: results, log')
    | .ok task =>
      let (result, log₁) := executeStepWithRetry env none task log
      let (results, log₂) := dispatchInOrder env prepare rest log₁
      ({ index, call, result } :: results, log₂)

/-- A worker thread: its step, and the attempts that it has made. -/
structure Worker where
  index : Nat
  task : PreparedCall
  attempt : Nat
  history : List RetryRecord

/-- The workers of a batch, the queue of results and the log. -/
structure Pool where
  workers : List Worker
  queue : List BatchResult
  log : DispatchLog

/-- The workers of a batch are prepared one by one; a call without a worker has its result at
once. -/
def preparePool (env : RunEnv) (prepare : IrCall → Except StepExecResult PreparedCall)
    (log : DispatchLog) : List IndexedCall → Pool
  | [] => { workers := [], queue := [], log }
  | (index, call) :: rest =>
    let pool := preparePool env prepare log rest
    match prepare call with
    | .error result => { pool with queue := { index, call, result } :: pool.queue }
    | .ok task =>
      match env.cloneForThread log index with
      | .error e =>
        { pool with queue := { index, call, result := .error e.text 0 [] } :: pool.queue }
      | .ok _ =>
        { pool with workers := { index, task, attempt := 0, history := [] } :: pool.workers }

/-- The worker at position `pick` makes an attempt; when its step has a result it pushes it and
ends. -/
def Pool.step (env : RunEnv) (pool : Pool) (pick : Nat) : Pool :=
  match pool.workers[pick]? with
  | none => pool
  | some w =>
    match runAttempt env (some w.index) w.task w.attempt w.history pool.log with
    | (.done result, log) =>
      { workers := pool.workers.eraseIdx pick
        queue := pool.queue ++ [{ index := w.index, call := w.task.call, result }]
        log }
    | (.again history, log) =>
      { pool with
        workers := pool.workers.set pick { w with attempt := w.attempt + 1, history }
        log }

/-- The workers that are left finish one after the other. -/
def drainWorkers (env : RunEnv) :
    List Worker → List BatchResult → DispatchLog → List BatchResult × DispatchLog
  | [], queue, log => (queue, log)
  | w :: rest, queue, log =>
    let (result, log') :=
      runAttempts env (some w.index) w.task (maxAttempts w.task.call - w.attempt)
      w.attempt w.history log
    drainWorkers env rest (queue ++ [{ index := w.index, call := w.task.call, result }]) log'

/-- Dispatches the calls of a batch on worker threads; the results are sorted by position. -/
def dispatchOnWorkers (env : RunEnv) (prepare : IrCall → Except StepExecResult PreparedCall)
    (calls : List IndexedCall) (log : DispatchLog) : List BatchResult × DispatchLog :=
  let pool := (env.picks log).foldl (Pool.step env) (preparePool env prepare log calls)
  let (queue, log') := drainWorkers env pool.workers pool.queue pool.log
  (queue.insertionSort fun a b => a.index ≤ b.index, log')

/-- Dispatches a batch. -/
def dispatchBatch (env : RunEnv) (parallel : Bool) (phaseIdx : Nat) (st : PhaseRunState)
    (calls : List IndexedCall) (log : DispatchLog) : List BatchResult × DispatchLog :=
  let prepare :=
    prepareCall env.codec phaseIdx st.captured st.skippedBindings st.receiptGraph
  if parallel && decide (1 < calls.length) then dispatchOnWorkers env prepare calls log
  else dispatchInOrder env prepare calls log

/-- Dispatches and processes a batch. -/
def runBatch (env : RunEnv) (parallel : Bool) (phaseIdx : Nat) (calls : List IndexedCall)
    (st : PhaseRunState) (log : DispatchLog) : PhaseRunState × DispatchLog :=
  let (results, log') := dispatchBatch env parallel phaseIdx st calls log
  (processBatch env.codec phaseIdx st results, log')

/-- The calls of a phase with their positions, optional or required ones. -/
def indexedCalls (calls : List IrCall) (optional : Bool) : List IndexedCall :=
  (calls.zipIdx.filter fun p => p.1.optional == optional).map fun p => (p.2, p.1)

/-- Runs the calls of a phase: the required ones, then the optional ones. -/
def executeCallsPhasePartition (env : RunEnv) (phaseIdx : Nat) (calls : List IrCall)
    (st : PhaseRunState) (log : DispatchLog) : PhaseRunState × DispatchLog :=
  let parallel := decide (1 < calls.length) && env.concurrency == .parallel
  let (st₁, log₁) := runBatch env parallel phaseIdx (indexedCalls calls false) st log
  if st₁.aborted then (st₁, log₁)
  else runBatch env parallel phaseIdx (indexedCalls calls true) st₁ log₁

/-! ## Loops -/

/-- The bindings of one iteration. -/
structure IterScope where
  captured : Captured
  skippedBindings : List String

/-- The reserved name under which the output of the last call of a block is kept. -/
def loopVerifySyntheticBinding : String := "__loop_verify.output__"

/-- Processes a result of a loop block. Captured outputs and skipped names belong to the iteration;
skips are counted in a counter that is thrown away. -/
def processInBlock (codec : JsonCodec) (phaseIdx : Nat) (st : PhaseRunState) (iter : IterScope)
    (call : IrCall) (result : StepExecResult) : PhaseRunState × IterScope :=
  let block := processResult codec phaseIdx true
    { st with captured := iter.captured, skippedBindings := iter.skippedBindings, skipped := 0 }
    call result
  ({ block with
      captured := st.captured
      skippedBindings := st.skippedBindings
      skipped := st.skipped },
    { captured := block.captured, skippedBindings := block.skippedBindings })

/-- Keeps a successful output under the reserved name. -/
def IterScope.keepOutput (iter : IterScope) : StepExecResult → IterScope
  | .ok bytes _ _ invocation =>
    { iter with
      captured := (loopVerifySyntheticBinding, { value := bytes, invocation }) :: iter.captured }
  | _ => iter

/-- How a loop block ended: whether the loop goes on, and what it left. -/
structure BlockRun where
  ok : Bool
  state : PhaseRunState
  iter : IterScope
  log : DispatchLog

/-- Runs the calls of a loop block in order. -/
def runLoopBlockSequentially (env : RunEnv) (phaseIdx : Nat) :
    List IrCall → PhaseRunState → IterScope → DispatchLog → BlockRun
  | [], st, iter, log => { ok := !st.aborted, state := st, iter, log }
  | call :: rest, st, iter, log =>
    if st.aborted then { ok := false, state := st, iter, log }
    else
      match resolveArguments env.codec call iter.captured iter.skippedBindings with
      | .error (.upstreamSkipped binding arg) =>
        let (st', iter') := processInBlock env.codec phaseIdx st iter call
          (.skippedByDependency (dependencySkipped binding arg))
        runLoopBlockSequentially env phaseIdx rest st' iter' log
      | .error (.other e) =>
        let (st', iter') := processInBlock env.codec phaseIdx st iter call (.error e 0 [])
        { ok := !st'.aborted, state := st', iter := iter', log }
      | .ok args =>
        let task : PreparedCall := {
          call
          phase := phaseIdx
          arguments := substituteReceiptGraph args st.receiptGraph
          dependencyReceipts := dependencyReceiptsFromCaptured call iter.captured }
        let (result, log') := executeStepWithRetry env none task log
        let kept := if rest.isEmpty then iter.keepOutput result else iter
        let (st', iter') := processInBlock env.codec phaseIdx st kept call result
        runLoopBlockSequentially env phaseIdx rest st' iter' log'

/-- The calls of a loop block; a nested loop is a planner bug. -/
def flattenLoopLeaves : List IrStep → Option (List IrCall)
  | [] => some []
  | .call c :: rest => (flattenLoopLeaves rest).map (c :: ·)
  | .loop _ :: _ => none

/-- Fails the mission. -/
def abortMission (st : PhaseRunState) : PhaseRunState :=
  { st with failed := st.failed + 1, aborted := true }

/-- The output that the end of an iteration looks at. -/
def finalCapture (finalCall : Option IrCall) (captured : Captured) : Option CapturedResult :=
  ((finalCall.bind IrCall.outputBinding).bind fun b => captured.lookup b).or
    (captured.lookup loopVerifySyntheticBinding)

/-- How an iteration ended: whether another one follows. -/
structure IterationEnd where
  again : Bool
  state : PhaseRunState
  log : DispatchLog

/-- The end of an iteration whose blocks have run. -/
def decideIteration (codec : JsonCodec) (resultBinding : Option String) (verify : List IrCall)
    (run : BlockRun) : IterationEnd :=
  match finalCapture verify.getLast? run.iter.captured with
  | none => { again := false, state := abortMission run.state, log := run.log }
  | some result =>
    match verifyOutputDone codec result.value with
    | .malformed => { again := false, state := abortMission run.state, log := run.log }
    | .false => { again := true, state := run.state, log := run.log }
    | .true =>
      { again := false
        state := { run.state with captured := capture resultBinding result run.state.captured }
        log := run.log }

/-- One iteration: the body, the `verify` block, and the decision. -/
def loopIteration (env : RunEnv) (phaseIdx : Nat) (resultBinding : Option String)
    (body verify : List IrCall) (st : PhaseRunState) (log : DispatchLog) : IterationEnd :=
  let bodyRun := runLoopBlockSequentially env phaseIdx body st ⟨[], []⟩ log
  if !bodyRun.ok || bodyRun.state.aborted then
    { again := false, state := bodyRun.state, log := bodyRun.log }
  else
    let verifyRun :=
      runLoopBlockSequentially env phaseIdx verify bodyRun.state bodyRun.iter bodyRun.log
    if !verifyRun.ok || verifyRun.state.aborted then
      { again := false, state := verifyRun.state, log := verifyRun.log }
    else decideIteration env.codec resultBinding verify verifyRun

/-- At most `left` more iterations; without `done` the mission is aborted. -/
def loopIterations (env : RunEnv) (phaseIdx : Nat) (resultBinding : Option String)
    (body verify : List IrCall) : Nat → PhaseRunState → DispatchLog → PhaseRunState × DispatchLog
  | 0, st, log => (abortMission st, log)
  | left + 1, st, log =>
    if st.aborted then (st, log)
    else
      let it := loopIteration env phaseIdx resultBinding body verify st log
      if it.again then loopIterations env phaseIdx resultBinding body verify left it.state it.log
      else (it.state, it.log)

/-- Runs a loop. -/
def executeLoop (env : RunEnv) (phaseIdx : Nat) (lp : IrLoop) (st : PhaseRunState)
    (log : DispatchLog) : PhaseRunState × DispatchLog :=
  match flattenLoopLeaves lp.body, flattenLoopLeaves lp.verify with
  | some body, some verify =>
    loopIterations env phaseIdx lp.resultBinding body verify lp.maxIters st log
  | _, _ => (abortMission st, log)

/-! ## Missions -/

/-- A run of calls, or a loop. -/
inductive PhasePartition
  | calls (run : List IrCall)
  | loop (lp : IrLoop)

/-- A run of calls that is not empty. -/
def closeRun (run : List IrCall) : List PhasePartition :=
  if run.isEmpty then [] else [.calls run]

/-- The partitions of a phase; `run` is the run of calls before the steps. -/
def splitPhaseSteps (run : List IrCall) : List IrStep → List PhasePartition
  | [] => closeRun run
  | .call c :: rest => splitPhaseSteps (run ++ [c]) rest
  | .loop lp :: rest => closeRun run ++ .loop lp :: splitPhaseSteps [] rest

/-- Runs a partition, unless the mission is aborted. -/
def runPartition (env : RunEnv) (phaseIdx : Nat) (acc : PhaseRunState × DispatchLog)
    (partition : PhasePartition) : PhaseRunState × DispatchLog :=
  if acc.1.aborted then acc
  else
    match partition with
    | .calls calls => executeCallsPhasePartition env phaseIdx calls acc.1 acc.2
    | .loop lp => executeLoop env phaseIdx lp acc.1 acc.2

/-- The steps of a phase. -/
def phaseSteps (steps : List IrStep) (range : PhaseRange) : List IrStep :=
  (steps.take range.stop).drop range.start

/-- Runs a phase, unless the mission is aborted. -/
def runPhase (env : RunEnv) (steps : List IrStep) (acc : PhaseRunState × DispatchLog)
    (phase : PhaseRange × Nat) : PhaseRunState × DispatchLog :=
  (splitPhaseSteps [] (phaseSteps steps phase.1)).foldl (runPartition env phase.2) acc

/-- The state before a run. -/
def PhaseRunState.initial : PhaseRunState where
  captured := []
  receiptGraph := []
  skippedBindings := []
  completed := 0
  failed := 0
  skipped := 0
  aborted := false
  allTraces := .empty
  events := []

/-- Runs a mission. -/
def execute (env : RunEnv) (ir : MissionIr) : PhaseRunState × DispatchLog :=
  ir.phases.zipIdx.foldl (runPhase env ir.steps) (.initial, [])

/-! ## The report -/

/-- How a mission ended. -/
inductive MissionOutcome
  | completed
  | partialOutcome
  | aborted
  deriving DecidableEq, Repr

/-- A resolved `emit` record. -/
structure EmissionRecord where
  seq : Nat
  name : String
  kind : String
  value : Json
  sourceBinding : Option String
  error : Option String

/-- A captured output as a value; bytes that are no JSON are shown as text. -/
def decodeEmittedValue (codec : JsonCodec) (bytes : Bytes) : Json :=
  match codec.fromSlice bytes with
  | .ok value => value
  | .error _ => .string (codec.fromUtf8Lossy bytes)

/-- Resolves an `emit` record. -/
def resolveEmission (codec : JsonCodec) (captured : Captured) (emit : IrEmit) (seq : Nat) :
    EmissionRecord :=
  match emit.value with
  | .literal value =>
    { seq, name := emit.name, kind := emit.kind, value, sourceBinding := none, error := none }
  | .binding binding =>
    match captured.lookup binding with
    | some result =>
      { seq
        name := emit.name
        kind := emit.kind
        value := decodeEmittedValue codec result.value
        sourceBinding := some binding
        error := none }
    | none =>
      { seq
        name := emit.name
        kind := emit.kind
        value := .null
        sourceBinding := some binding
        error := some ("binding '" ++ binding ++
          "' was not captured; producer may have failed or skipped") }

/-- An entry of the ability graph. -/
def abilityGraphEntry (trace : StepTrace) : Option Json :=
  trace.invocation.map fun projection =>
    match projection with
    | .object fields => .object (insertByKey "step_id" (.string trace.stepId) fields)
    | other => other

/-- What a run reports. -/
structure ExecutionReport where
  missionName : String
  phaseCount : Nat
  stepsCompleted : Nat
  stepsFailed : Nat
  stepsSkipped : Nat
  outcome : MissionOutcome
  stepTraces : List StepTrace
  abilityGraph : List Json
  emissions : List EmissionRecord
  tracesTruncated : Nat
  outputs : String → Option Json

/-- The outcome of a mission. -/
def missionOutcome (st : PhaseRunState) : MissionOutcome :=
  if st.aborted then .aborted else if 0 < st.failed then .partialOutcome else .completed

/-- The report of a final state. -/
def reportOf (codec : JsonCodec) (ir : MissionIr) (st : PhaseRunState) : ExecutionReport where
  missionName := ir.name
  phaseCount := ir.phases.length
  stepsCompleted := st.completed
  stepsFailed := st.failed
  stepsSkipped := st.skipped
  outcome := missionOutcome st
  stepTraces := st.allTraces.entries
  abilityGraph := st.allTraces.entries.filterMap abilityGraphEntry
  emissions := ir.emits.zipIdx.map fun p => resolveEmission codec st.captured p.1 (p.2 + 1)
  tracesTruncated := st.allTraces.dropped
  outputs := fun binding => (st.captured.lookup binding).map fun result =>
    decodeEmittedValue codec result.value

/-- Runs a mission and reports on it. -/
def executeMission (env : RunEnv) (ir : MissionIr) : ExecutionReport :=
  reportOf env.codec ir (execute env ir).1

end EasyNetDaemon.Eal
