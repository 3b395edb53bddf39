import EasyNetDaemon.Eal.Ir
import Mathlib.Data.List.Sort

/-!
# One step of a mission

The model of `eal/interpreter/retry.rs` and `trace.rs`: the arguments of a call are filled in from
captured outputs (`resolveArguments`), the call is dispatched, again if its policy says so
(`executeStepWithRetry`), and its result is classified and recorded (`stepTrace`). The
dispatcher, the clock and serde_json are parameters (`RunEnv`); the dispatcher may answer by
everything dispatched before, which the log holds.
-/

namespace EasyNetDaemon.Eal

open Library EasyNetDaemon.Core

/-! ## Dispatching -/

/-- A JSON text as bytes. -/
abbrev Bytes := List UInt8

/-- serde_json and SHA-256, as the interpreter uses them. -/
structure JsonCodec where
  toVec : Json → Except String Bytes
  fromSlice : Bytes → Except String Json
  fromStr : String → Except String Json
  fromUtf8Lossy : Bytes → String
  sha256Hex : Bytes → String

/-- The errors of a dispatcher. -/
inductive EalError
  | validation (message : String)
  | notFound (message : String)
  | unavailable (message : String)
  | deadlineExceeded (message : String)
  | internal (message : String)

/-- An error as it is stored in a trace. -/
def EalError.text : EalError → String
  | .validation m => "validation_error: " ++ m
  | .notFound m => "not_found: " ++ m
  | .unavailable m => "unavailable: " ++ m
  | .deadlineExceeded m => "deadline_exceeded: " ++ m
  | .internal m => "internal_error: " ++ m

/-- The receipt that ends an invocation. -/
structure ReceiptAnchor where
  invocationUra : String
  receiptUra : String
  receiptHash : Bytes

/-- The record of a child invocation: its terminal receipt and what traces show of it. -/
structure ChildInvocationRecord where
  terminalReceipt : ReceiptAnchor
  projection : Json

/-- What a dispatcher is asked. -/
structure DispatchRequest where
  target : IrTarget
  ability : AbilityName
  arguments : Json
  timeoutMs : Option Nat
  dependencyReceipts : List ReceiptAnchor

/-- What a successful dispatch returns. -/
structure StepDispatchOutcome where
  value : Json
  invocation : ChildInvocationRecord

/-- One call of the dispatcher, with the step and the phase that it was made for. -/
structure DispatchRecord where
  call : IrCall
  phase : Nat
  request : DispatchRequest
  result : Except EalError StepDispatchOutcome

/-- The dispatches of a run, in order. -/
abbrev DispatchLog := List DispatchRecord

/-- Whether a dispatcher can work in parallel. -/
inductive StepDispatchConcurrency
  | sequential
  | parallel
  deriving DecidableEq, Repr

/-- What a run finds around it: the dispatcher and its clones for worker threads (`some i` is the
worker of the step at position `i` of a batch), the deadline of the run and the clock, and the order
in which the workers of a batch get to make their attempts. -/
structure RunEnv where
  codec : JsonCodec
  concurrency : StepDispatchConcurrency
  dispatch : Option Nat → DispatchLog → DispatchRequest → Except EalError StepDispatchOutcome
  cloneForThread : DispatchLog → Nat → Except EalError Unit
  deadline : Option Nat
  now : Option Nat → DispatchLog → Nat
  picks : DispatchLog → List Nat

/-! ## Retries -/

/-- A failed attempt. -/
structure RetryRecord where
  attempt : Nat
  error : String

/-- The result of executing a step. -/
inductive StepExecResult
  | ok (resultBytes : Bytes) (retryCount : Nat) (retryHistory : List RetryRecord)
      (invocation : ChildInvocationRecord)
  | error (message : String) (retryCount : Nat) (retryHistory : List RetryRecord)
  | skippedByDependency (message : String)

/-- The attempts of a call: one, and its retries under the policy `retry`. -/
def maxAttempts (call : IrCall) : Nat :=
  if call.onFailure = .retry ∧ 0 < call.maxRetries then 1 + call.maxRetries.toNat else 1

/-- The timeout of one dispatch: that of the step, cut to what remains of the run. -/
def effectiveDispatchTimeoutMs (stepTimeoutMs deadline : Option Nat) (now : Nat) :
    Except EalError (Option Nat) :=
  match deadline with
  | none => .ok stepTimeoutMs
  | some limit =>
    if limit ≤ now then
      .error (.deadlineExceeded "mission run timeout expired before dispatch")
    else
      match stepTimeoutMs with
      | some timeout => .ok (some (min timeout (max (limit - now) 1)))
      | none => .ok (some (max (limit - now) 1))

/-- The timeout option of a call in milliseconds. -/
def stepTimeoutMs (call : IrCall) : Option Nat :=
  if 0 < call.timeoutSeconds then some (call.timeoutSeconds.toNat * 1000) else none

/-- A call ready to be dispatched. -/
structure PreparedCall where
  call : IrCall
  phase : Nat
  arguments : Json
  dependencyReceipts : List ReceiptAnchor

/-- The request of a prepared call. -/
def PreparedCall.request (task : PreparedCall) (timeoutMs : Option Nat) : DispatchRequest where
  target := task.call.target
  ability := task.call.ability
  arguments := task.arguments
  timeoutMs
  dependencyReceipts := task.dependencyReceipts

/-- How an attempt ends: with a result, or with another attempt after it. -/
inductive AttemptEnd
  | done (result : StepExecResult)
  | again (retryHistory : List RetryRecord)

/-- What follows from the answer of the dispatcher to attempt number `attempt`. -/
def attemptEnd (codec : JsonCodec) (task : PreparedCall) (attempt : Nat)
    (history : List RetryRecord) : Except EalError StepDispatchOutcome → AttemptEnd
  | .ok outcome =>
    match codec.toVec outcome.value with
    | .ok bytes => .done (.ok bytes attempt history outcome.invocation)
    | .error e =>
      .done (.error (EalError.internal ("step result not JSON-serializable: " ++ e)).text attempt
        history)
  | .error e =>
    let history := history ++ [{ attempt := attempt + 1, error := e.text }]
    if maxAttempts task.call ≤ attempt + 1 then .done (.error e.text attempt history)
    else .again history

/-- One attempt of a worker, which makes at most one dispatch. -/
def runAttempt (env : RunEnv) (worker : Option Nat) (task : PreparedCall) (attempt : Nat)
    (history : List RetryRecord) (log : DispatchLog) : AttemptEnd × DispatchLog :=
  match effectiveDispatchTimeoutMs (stepTimeoutMs task.call) env.deadline (env.now worker log) with
  | .error e => (.done (.error e.text attempt history), log)
  | .ok timeoutMs =>
    let request := task.request timeoutMs
    let result := env.dispatch worker log request
    (attemptEnd env.codec task attempt history result,
      log ++ [{ call := task.call, phase := task.phase, request, result }])

/-- The attempts of a worker until its step has a result; `left` of them remain. -/
def runAttempts (env : RunEnv) (worker : Option Nat) (task : PreparedCall) :
    Nat → Nat → List RetryRecord → DispatchLog → StepExecResult × DispatchLog
  | 0, _, history, log =>
    (.error "exhausted all retry attempts" (maxAttempts task.call - 1) history, log)
  | left + 1, attempt, history, log =>
    match runAttempt env worker task attempt history log with
    | (.done result, log') => (result, log')
    | (.again history', log') => runAttempts env worker task left (attempt + 1) history' log'

/-- Dispatches a call with its retries. -/
def executeStepWithRetry (env : RunEnv) (worker : Option Nat) (task : PreparedCall)
    (log : DispatchLog) : StepExecResult × DispatchLog :=
  runAttempts env worker task (maxAttempts task.call) 0 [] log

/-! ## Arguments -/

/-- The captured output of a step. -/
structure CapturedResult where
  value : Bytes
  invocation : ChildInvocationRecord

/-- Captured outputs by binding; a later entry replaces an earlier one and stands before it. -/
abbrev Captured := List (String × CapturedResult)

/-- Why arguments cannot be resolved. -/
inductive ResolveError
  | upstreamSkipped (binding arg : String)
  | other (message : String)

/-- The message for a reference without a captured output. -/
def unresolvedRef (binding : String) : String :=
  "unresolved ref `" ++ binding ++
    "` (neither captured nor skipped — likely an analyzer/planner bug)"

/-- The message for a captured output that is no JSON. -/
def invalidRef (key binding e : String) : String :=
  "input ref `" ++ key ++ "` from binding `" ++ binding ++ "` is not valid JSON: " ++ e ++
    ". Upstream step likely returned a malformed result."

/-- Fills the references into the arguments, in key order. -/
def resolveRefs (codec : JsonCodec) (captured : Captured) (skipped : List String) :
    List (String × String) → List (String × Json) → Except ResolveError Json
  | [], args => .ok (.object args)
  | (key, binding) :: rest, args =>
    if skipped.contains binding then .error (.upstreamSkipped binding key)
    else
      match captured.lookup binding with
      | none => .error (.other (unresolvedRef binding))
      | some result =>
        match codec.fromSlice result.value with
        | .error e => .error (.other (invalidRef key binding e))
        | .ok value => resolveRefs codec captured skipped rest (insertByKey key value args)

/-- The arguments of a call. -/
def resolveArguments (codec : JsonCodec) (call : IrCall) (captured : Captured)
    (skipped : List String) : Except ResolveError Json :=
  resolveRefs codec captured skipped call.inputRefs (call.staticArguments.asObject.getD [])

/-- The argument value that asks for the receipt graph. -/
def receiptGraphSentinel : String := "__runner_receipt_graph__"

/-- Replaces the sentinel by the receipt graph. -/
def substituteReceiptGraph (args : Json) (receiptGraph : List Json) : Json :=
  match args with
  | .object fields =>
    .object (fields.map fun field =>
      if field.2.asStr = some receiptGraphSentinel then (field.1, .array receiptGraph) else field)
  | other => other

/-- The terminal receipts of the producers of a call, each producer once. -/
def dependencyReceiptsFromCaptured (call : IrCall) (captured : Captured) : List ReceiptAnchor :=
  (call.inputRefs.map Prod.snd).eraseDups.filterMap fun binding =>
    (captured.lookup binding).map fun result => result.invocation.terminalReceipt

/-! ## Classification and traces -/

/-- What became of a step. -/
inductive StepOutcome
  | completed
  | failed
  | skipped
  deriving DecidableEq, Repr

/-- What is recorded of a step. -/
structure StepTrace where
  stepId : String
  ability : AbilityName
  target : IrTarget
  phaseIndex : Nat
  outcome : StepOutcome
  retryCount : Nat
  retryHistory : List RetryRecord
  resultSizeBytes : Option Nat
  resultSha256 : Option String
  error : Option String
  invocation : Option Json
  inputRefs : List (String × String)
  outputBinding : Option String

/-- Whether a failure of the call counts as a skip. -/
def skipsOnFailure (call : IrCall) : Bool :=
  call.optional || call.onFailure == .skip

/-- The outcome of a step. -/
def stepOutcome (call : IrCall) : StepExecResult → StepOutcome
  | .ok .. => .completed
  | .error .. => if skipsOnFailure call then .skipped else .failed
  | .skippedByDependency _ => .skipped

/-- The trace of a step. -/
def stepTrace (codec : JsonCodec) (call : IrCall) (phaseIdx : Nat) (result : StepExecResult) :
    StepTrace :=
  let base : StepTrace := {
    stepId := call.stepId
    ability := call.ability
    target := call.target
    phaseIndex := phaseIdx
    outcome := stepOutcome call result
    retryCount := 0
    retryHistory := []
    resultSizeBytes := none
    resultSha256 := none
    error := none
    invocation := none
    inputRefs := call.inputRefs
    outputBinding := call.outputBinding }
  match result with
  | .ok bytes retryCount retryHistory invocation =>
    { base with
      retryCount
      retryHistory
      resultSizeBytes := some bytes.length
      resultSha256 := some (codec.sha256Hex bytes)
      invocation := some invocation.projection }
  | .error message retryCount retryHistory =>
    { base with retryCount, retryHistory, error := some message }
  | .skippedByDependency message => { base with error := some message }

/-- The traces kept of a run: the first ones, the last ones, and how many were dropped between. -/
structure CappedTraceBuffer where
  head : List StepTrace
  tail : List StepTrace
  dropped : Nat

/-- How many first traces are kept. -/
def traceCapHead : Nat := 500

/-- How many last traces are kept. -/
def traceCapTail : Nat := 500

namespace CappedTraceBuffer

/-- A buffer before the first trace. -/
def empty : CappedTraceBuffer := { head := [], tail := [], dropped := 0 }

/-- Adds a trace; when both parts are full the oldest of the tail is dropped. -/
def push (buffer : CappedTraceBuffer) (trace : StepTrace) : CappedTraceBuffer :=
  if buffer.head.length < traceCapHead then { buffer with head := buffer.head ++ [trace] }
  else if buffer.tail.length = traceCapTail then
    { buffer with tail := buffer.tail.tail ++ [trace], dropped := buffer.dropped + 1 }
  else { buffer with tail := buffer.tail ++ [trace] }

/-- The kept traces, in order. -/
def entries (buffer : CappedTraceBuffer) : List StepTrace := buffer.head ++ buffer.tail

end CappedTraceBuffer

/-! ## Loop results -/

/-- The handler's own payload inside the envelope of the shell executor. -/
def peelShellEnvelope (codec : JsonCodec) (value : Json) : Json :=
  match value with
  | .object fields =>
    match fields.lookup "result", fields.lookup "fulfilled_by" with
    | some (.string inner), some _ =>
      match codec.fromStr inner with
      | .ok parsed => parsed
      | .error _ => .string inner
    | some inner, some _ => inner
    | _, _ => value
  | _ => value

/-- What the output of the last `verify` call says. -/
inductive VerifyDone
  | true
  | false
  | malformed
  deriving DecidableEq, Repr

/-- The field `done` of a payload. -/
def doneField : Json → VerifyDone
  | .object fields =>
    match fields.lookup "done" with
    | some (.bool b) => if b then .true else .false
    | _ => .malformed
  | _ => .malformed

/-- Reads `done` from the output of a call. -/
def verifyOutputDone (codec : JsonCodec) (bytes : Bytes) : VerifyDone :=
  match codec.fromSlice bytes with
  | .ok value => doneField (peelShellEnvelope codec value)
  | .error _ => .malformed

end EasyNetDaemon.Eal
