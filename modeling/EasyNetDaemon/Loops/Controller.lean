import EasyNetDaemon.Library.Hex
import EasyNetDaemon.Library.StepRun
import EasyNetDaemon.Loops.LoopInstance

/-!
# The loop controller

The model of `LoopService` for one loop: its controller task (`start_controller`, `drive_loop`) as a
position in the code with the locals that are live there, the calls of `cancel` that run beside it,
crashes, and restarts with `bind` and `resume_inflight`. A step is one access to shared state: a
read of the status, one `mutate` (which saves the instance it has changed), one frame of the stream,
the call of the driver or its return. The driver is the environment: it may return anything, at any
time.
-/

namespace EasyNetDaemon.Loops

open Library

/-! ## Frames, invocations, and the positions of the controller -/

/-- A frame of the loop's stream, without the loop id that all of them carry. -/
inductive LoopFrame
  | iterStarted (iter : Nat)
  | iterFinished (iter : Nat) (verifyPassed : Bool)
  /-- `body_chunk` or `verify_chunk`; a finished invocation adds its id and the hash of its
  receipt. -/
  | chunk (kind : LoopInvocationKind) (iter : Nat) (text : String)
      (receipt : Option (String × String))
  | terminal (state : LoopState)
  deriving DecidableEq, Repr

/-- The frame that ends a stream. -/
def LoopFrame.isTerminal : LoopFrame → Bool
  | .terminal _ => true
  | _ => false

/-- The invocation that the controller has decided to make. -/
structure NextInvocation where
  iter : Nat
  kind : LoopInvocationKind
  prompt : String
  parent : Option LoopInvocationRecord
  deriving DecidableEq, Repr

/-- The key of an invocation. -/
def NextInvocation.key (next : NextInvocation) : Nat × LoopInvocationKind :=
  (next.iter, next.kind)

/-- The causal parent of an invocation. -/
inductive CausalContext
  | none
  | scalar (receiptHash : ReceiptHash) (receiptUra : String)
  deriving DecidableEq

/-- Where the controller is in `drive_loop`, or in the handler of its error. -/
inductive ControllerPoint
  /-- The head of the loop. -/
  | readStatus
  /-- `fail_loop_invocation` for a reservation that a restart has found. -/
  | failReserved (record : LoopInvocationRecord) (error : String)
  /-- Write the last verify output, then end in the state. -/
  | noteOutput (text : String) (state : LoopState)
  /-- The `iter_finished` frame after a verification. -/
  | finishIteration (record : LoopInvocationRecord) (passed : Bool)
  | checkCancelled (next : NextInvocation)
  /-- Set the state to running and the counter to the iteration. -/
  | markIteration (next : NextInvocation)
  /-- The `iter_started` frame. -/
  | announceIteration (next : NextInvocation)
  | reserve (next : NextInvocation)
  | invoke (next : NextInvocation) (causalContext : CausalContext)
  /-- The driver is working. -/
  | awaitAnswer (next : NextInvocation)
  /-- Write the last output of the kind; without a receipt the invocation has failed. -/
  | keepOutput (next : NextInvocation) (text : String) (receipt : Option (String × String))
  | emitChunk (next : NextInvocation) (text : String) (receipt : Option (String × String))
  /-- The write and the frame of `record_terminal`. -/
  | recordTerminal (state : LoopState)
  | emitTerminal (state : LoopState)
  /-- `drive_loop` has returned an error; the handler reads the status. -/
  | driveFailed (detail : String)
  | failLoop (iter : Nat) (detail : String)
  | emitFailure (iter : Nat) (detail : String)
  deriving DecidableEq

/-- An invocation handed to the driver, with the answer once it has come. -/
structure HandedInvocation where
  iter : Nat
  kind : LoopInvocationKind
  workerAgent : String
  authority : DeferredInvocationAuthority
  prompt : String
  causalContext : CausalContext
  answer : Option (Except String LoopInvocationOutcome)

/-- The key of an invocation handed over. -/
def HandedInvocation.key (handed : HandedInvocation) : Nat × LoopInvocationKind :=
  (handed.iter, handed.kind)

/-! ## Helpers of the controller -/

/-- Changes the first element that satisfies `p`. -/
def modifyFirst {α : Type} (p : α → Bool) (f : α → α) : List α → List α
  | [] => []
  | a :: l => if p a then f a :: l else a :: modifyFirst p f l

/-- The `done` of a verify output. -/
def parseVerifyDone (env : LoopEnv) (output : String) : Except String Bool :=
  match env.parseJson output with
  | none => .error ("verify output must be valid JSON object with top-level done bool, got " ++
      env.debugStr output)
  | some value =>
    match value.asObject.bind (fun fields => fields.lookup "done") with
    | some (.bool done) => .ok done
    | _ => .error ("verify output missing top-level \x60done: bool\x60: " ++ output)

/-- The prompt of a verify step. -/
def renderVerifyPrompt (expr : String) (iter : Nat) (bodyOutput : String) : String :=
  "Loop verify iteration " ++ toString iter ++ ".\n\nVerify expression:\n" ++ expr ++
    "\n\nBody output:\n" ++ bodyOutput ++
    "\n\nReturn ONLY valid JSON with a top-level boolean field named \x60done\x60, for example " ++
    "\x7b\"done\": true\x7d or \x7b\"done\": false\x7d."

/-- The causal context behind a record. -/
def loopCausalContext (env : LoopEnv) : Option LoopInvocationRecord → Except String CausalContext
  | none => .ok .none
  | some parent => do
    bailIf (parent.state ≠ .completed) "loop causal parent must be a completed invocation record"
    match parent.receiptUra, parent.receiptHash with
    | none, _ => .error "loop causal parent is missing receipt URA"
    | some _, none => .error "loop causal parent is missing receipt hash"
    | some receiptUra, some receiptHash =>
      match env.hex.decode receiptHash with
      | none => .error "decode loop causal parent receipt hash"
      | some bytes =>
        if h : bytes.length = 32 then .ok (.scalar ⟨bytes, h⟩ receiptUra)
        else .error ("loop causal parent receipt hash must be 32 bytes, got " ++
          toString bytes.length)

/-- The record that `reserve_loop_invocation` pushes. -/
def reservedRecord (next : NextInvocation) : LoopInvocationRecord where
  iter := next.iter
  kind := next.kind
  state := .reserved
  invocationId := none
  receiptUra := none
  receiptHash := none
  causalParentReceiptUra := next.parent.bind LoopInvocationRecord.receiptUra
  output := none
  error := none

/-- Adds a reservation to the ledger. -/
def reserveLoopInvocation (inst : LoopInstance) (next : NextInvocation) :
    Except String LoopInstance := do
  bailIf (inst.invocationLedger.any fun record =>
      record.iter = next.iter && record.kind = next.kind)
    ("loop " ++ inst.id ++ " already has a " ++ next.kind.asStr ++ " record for iter " ++
      toString next.iter)
  return { inst with invocationLedger := inst.invocationLedger ++ [reservedRecord next] }

/-- Changes the reservation of an invocation. -/
def updateReservedLoopInvocation (inst : LoopInstance) (iter : Nat) (kind : LoopInvocationKind)
    (update : LoopInvocationRecord → LoopInvocationRecord) : Except String LoopInstance :=
  let found := fun record : LoopInvocationRecord => decide (record.iter = iter ∧ record.kind = kind)
  match inst.invocationLedger.reverse.find? found with
  | none => .error ("loop " ++ inst.id ++ " has no " ++ kind.asStr ++ " reservation for iter " ++
      toString iter)
  | some record => do
    bailIf (record.state ≠ .reserved)
      ("loop " ++ inst.id ++ " " ++ kind.asStr ++ " iter " ++ toString iter ++
        " cannot transition from " ++ record.state.debug)
    return { inst with
      invocationLedger := (modifyFirst found update inst.invocationLedger.reverse).reverse }

/-- The record of a completed invocation. -/
def completeRecord (env : LoopEnv) (outcome : LoopInvocationOutcome)
    (record : LoopInvocationRecord) : LoopInvocationRecord :=
  { record with
    state := .completed
    invocationId := some outcome.invocationId
    receiptUra := some outcome.receiptUra
    receiptHash := some (env.hex.encode outcome.receiptHash.1)
    output := some outcome.output }

/-- The record of a failed invocation. -/
def failRecord (error : String) (record : LoopInvocationRecord) : LoopInvocationRecord :=
  { record with state := .failed, error := some error }

/-- Records an answer. -/
def completeLoopInvocation (env : LoopEnv) (inst : LoopInstance) (iter : Nat)
    (kind : LoopInvocationKind) (outcome : LoopInvocationOutcome) : Except String LoopInstance :=
  updateReservedLoopInvocation inst iter kind (completeRecord env outcome)

/-- Records a failure. -/
def failLoopInvocation (inst : LoopInstance) (iter : Nat) (kind : LoopInvocationKind)
    (error : String) : Except String LoopInstance :=
  updateReservedLoopInvocation inst iter kind (failRecord error)

/-! ## The steps of the controller -/

/-- What a step of the controller does: the instance it leaves saved, the frames it adds, the
invocations it hands over, and where it stands then (`none` when the task has ended). -/
structure Advance where
  inst : LoopInstance
  frames : List LoopFrame
  handed : List HandedInvocation
  next : Option ControllerPoint

/-- The decision at the head of the loop, from the status read there. -/
def afterStatus (env : LoopEnv) (inst : LoopInstance) : Option ControllerPoint :=
  if isTerminal inst.state then none
  else
    match inst.invocationLedger.getLast? with
    | none => some (.checkCancelled ⟨1, .body, inst.bodyPrompt, none⟩)
    | some record =>
      match record.state with
      | .reserved => some (.failReserved record
          ("loop restart found ambiguous reserved " ++ record.kind.asStr ++
            " invocation at iter " ++
            toString record.iter ++ "; refusing duplicate dispatch"))
      | .failed => some (.recordTerminal .failed)
      | .completed =>
        match record.kind, record.output with
        | .body, none => some (.driveFailed "completed loop body record is missing output")
        | .body, some bodyOutput => some (.checkCancelled
            ⟨record.iter, .verify, renderVerifyPrompt inst.verifyExpr record.iter bodyOutput,
              some record⟩)
        | .verify, none => some (.driveFailed "completed loop verify record is missing output")
        | .verify, some verifyOutput =>
          match parseVerifyDone env verifyOutput with
          | .error error => some (.noteOutput (verifyOutput ++ " | parse error: " ++ error)
              .verifyMalformed)
          | .ok passed => some (.finishIteration record passed)

/-- After the `iter_finished` frame. -/
def afterIteration (inst : LoopInstance) (record : LoopInvocationRecord) (passed : Bool) :
    ControllerPoint :=
  if passed then .recordTerminal .done
  else if inst.maxIters ≤ record.iter then .recordTerminal .exhausted
  else .checkCancelled ⟨record.iter + 1, .body, inst.bodyPrompt, some record⟩

/-- Writes the last output of an invocation. -/
def LoopInstance.setLastOutput (inst : LoopInstance) (kind : LoopInvocationKind) (text : String) :
    LoopInstance :=
  match kind with
  | .body => { inst with lastBodyOutput := some text }
  | .verify => { inst with lastVerifyOutput := some text }

section SetLastOutput

variable (inst : LoopInstance) (kind : LoopInvocationKind) (text : String)

@[simp] theorem state_setLastOutput : (inst.setLastOutput kind text).state = inst.state := by
  cases kind <;> rfl

@[simp] theorem maxIters_setLastOutput :
    (inst.setLastOutput kind text).maxIters = inst.maxIters := by
  cases kind <;> rfl

@[simp] theorem invocationLedger_setLastOutput :
    (inst.setLastOutput kind text).invocationLedger = inst.invocationLedger := by
  cases kind <;> rfl

end SetLastOutput

/-- One step of the controller on its own; waiting for the driver is none. -/
def advance (env : LoopEnv) (inst : LoopInstance) : ControllerPoint → Option Advance
  | .readStatus => some ⟨inst, [], [], afterStatus env inst⟩
  | .failReserved record error =>
    match failLoopInvocation inst record.iter record.kind error with
    | .ok inst' => some ⟨inst', [], [], some (.noteOutput error .failed)⟩
    | .error detail => some ⟨inst, [], [], some (.driveFailed detail)⟩
  | .noteOutput text state =>
    some ⟨{ inst with lastVerifyOutput := some text }, [], [], some (.recordTerminal state)⟩
  | .finishIteration record passed =>
    some ⟨inst, [.iterFinished record.iter passed], [], some (afterIteration inst record passed)⟩
  | .checkCancelled next =>
    if inst.state = .cancelled then some ⟨inst, [], [], none⟩
    else if next.kind = .body then some ⟨inst, [], [], some (.markIteration next)⟩
    else some ⟨inst, [], [], some (.reserve next)⟩
  | .markIteration next =>
    some ⟨{ inst with state := .running, currentIter := next.iter }, [], [],
      some (.announceIteration next)⟩
  | .announceIteration next => some ⟨inst, [.iterStarted next.iter], [], some (.reserve next)⟩
  | .reserve next =>
    match loopCausalContext env next.parent, reserveLoopInvocation inst next with
    | .error detail, _ => some ⟨inst, [], [], some (.driveFailed detail)⟩
    | .ok _, .error detail => some ⟨inst, [], [], some (.driveFailed detail)⟩
    | .ok causalContext, .ok inst' => some ⟨inst', [], [], some (.invoke next causalContext)⟩
  | .invoke next causalContext =>
    some ⟨inst, [], [⟨next.iter, next.kind, inst.workerAgent, inst.authority, next.prompt,
      causalContext, none⟩], some (.awaitAnswer next)⟩
  | .awaitAnswer _ => none
  | .keepOutput next text receipt =>
    some ⟨inst.setLastOutput next.kind text, [], [], some (.emitChunk next text receipt)⟩
  | .emitChunk next text receipt =>
    some ⟨inst, [.chunk next.kind next.iter text receipt], [],
      some (if receipt.isSome then .readStatus else .recordTerminal .failed)⟩
  | .recordTerminal state => some ⟨{ inst with state }, [], [], some (.emitTerminal state)⟩
  | .emitTerminal state => some ⟨inst, [.terminal state], [], none⟩
  | .driveFailed detail =>
    if isTerminal inst.state then some ⟨inst, [], [], none⟩
    else some ⟨inst, [], [], some (.failLoop inst.currentIter detail)⟩
  | .failLoop iter detail =>
    some ⟨{ inst with state := .failed, lastVerifyOutput := some detail }, [], [],
      some (.emitFailure iter detail)⟩
  | .emitFailure iter detail =>
    some ⟨inst, [.chunk .verify iter detail none], [], some (.recordTerminal .failed)⟩

/-- The driver has returned, and the controller writes the end of the invocation. -/
def onAnswer (env : LoopEnv) (inst : LoopInstance) (next : NextInvocation)
    (answer : Except String LoopInvocationOutcome) : Advance :=
  match answer with
  | .ok outcome =>
    match completeLoopInvocation env inst next.iter next.kind outcome with
    | .ok inst' => ⟨inst', [], [], some (.keepOutput next outcome.output
        (some (outcome.invocationId, env.hex.encode outcome.receiptHash.1)))⟩
    | .error detail => ⟨inst, [], [], some (.driveFailed detail)⟩
  | .error error =>
    let detail := "[" ++ next.kind.asStr ++ "_error] " ++ error
    match failLoopInvocation inst next.iter next.kind detail with
    | .ok inst' => ⟨inst', [], [], some (.keepOutput next detail none)⟩
    | .error detail => ⟨inst, [], [], some (.driveFailed detail)⟩

/-! ## The service -/

/-- What a running process holds besides the instance. -/
structure Process where
  history : List LoopFrame
  /-- The controller task, if there is one. -/
  controller : Option ControllerPoint
  /-- Calls of `cancel` that have cancelled the loop and have not added their frame yet. -/
  cancelling : Nat

/-- One loop of the service: the instance as it is saved, the process, and what the driver has been
asked since the loop was created. -/
structure LoopService where
  inst : LoopInstance
  process : Option Process
  handed : List HandedInvocation

/-- What happens to a loop. -/
inductive LoopEvent
  | advance
  | answer (result : Except String LoopInvocationOutcome)
  | cancel
  /-- The frame at the end of a `cancel` call. -/
  | cancelFrame
  | crash
  /-- A restart, with a driver installed or not. -/
  | boot (driver : Bool)

/-- `start_controller` in a new process: nothing without a driver or in a terminal state. -/
def startController (inst : LoopInstance) (driver : Bool) : Process where
  history := []
  controller := if driver && !isTerminal inst.state then some .readStatus else none
  cancelling := 0

/-- The service right after the loop was created, or taken over from the store. -/
def LoopService.start (inst : LoopInstance) (driver : Bool) : LoopService where
  inst
  process := some (startController inst driver)
  handed := []

/-- Performs a step of the controller in the process `p`. -/
def LoopService.apply (s : LoopService) (p : Process) (a : Advance) : LoopService where
  inst := a.inst
  process := some { p with history := p.history ++ a.frames, controller := a.next }
  handed := s.handed ++ a.handed

/-- Notes the answer to the last invocation handed over. -/
def noteAnswer (result : Except String LoopInvocationOutcome) (l : List HandedInvocation) :
    List HandedInvocation :=
  l.modifyLast fun handed => { handed with answer := some result }

/-- One step of a loop. -/
def LoopService.step (env : LoopEnv) (s : LoopService) : LoopEvent → Option LoopService
  | .advance => do
    let p ← s.process
    let point ← p.controller
    let a ← Loops.advance env s.inst point
    return s.apply p a
  | .answer result => do
    let p ← s.process
    match p.controller with
    | some (.awaitAnswer next) =>
      return { s with handed := noteAnswer result s.handed }.apply p
        (onAnswer env s.inst next result)
    | _ => none
  | .cancel => do
    let p ← s.process
    if isTerminal s.inst.state then return s
    else return { s with
      inst := { s.inst with state := .cancelled }
      process := some { p with cancelling := p.cancelling + 1 } }
  | .cancelFrame => do
    let p ← s.process
    if p.cancelling = 0 then none
    else return { s with process := some { p with
      history := p.history ++ [.terminal .cancelled]
      cancelling := p.cancelling - 1 } }
  | .crash => do
    let _ ← s.process
    return { s with process := none }
  | .boot driver =>
    match s.process, bind env [s.inst] with
    | some _, _ => none
    | none, .ok () => some { s with process := some (startController s.inst driver) }
    | none, .error _ => some s

/-- The service after a list of events. -/
abbrev LoopService.run (env : LoopEnv) : LoopService → List LoopEvent → Option LoopService :=
  runSteps (LoopService.step env)

/-! ## What a step can do -/

/-- The steps of the service. -/
inductive LoopService.Step (env : LoopEnv) (s : LoopService) : LoopEvent → LoopService → Prop
  | advance {p : Process} {point : ControllerPoint} {a : Advance} (hp : s.process = some p)
      (hpoint : p.controller = some point) (ha : Loops.advance env s.inst point = some a) :
      Step env s .advance (s.apply p a)
  | answer {p : Process} {next : NextInvocation} (result : Except String LoopInvocationOutcome)
      (hp : s.process = some p) (hpoint : p.controller = some (.awaitAnswer next)) :
      Step env s (.answer result) ({ s with handed := noteAnswer result s.handed }.apply p
        (onAnswer env s.inst next result))
  | cancelled {p : Process} (hp : s.process = some p) (hopen : isTerminal s.inst.state = false) :
      Step env s .cancel { s with
        inst := { s.inst with state := .cancelled }
        process := some { p with cancelling := p.cancelling + 1 } }
  | cancelledBefore {p : Process} (hp : s.process = some p)
      (hterminal : isTerminal s.inst.state = true) : Step env s .cancel s
  | cancelFrame {p : Process} (hp : s.process = some p) (howed : p.cancelling ≠ 0) :
      Step env s .cancelFrame { s with process := some { p with
        history := p.history ++ [.terminal .cancelled]
        cancelling := p.cancelling - 1 } }
  | crash {p : Process} (hp : s.process = some p) : Step env s .crash { s with process := none }
  | boot (driver : Bool) (hp : s.process = none) (haccepted : bind env [s.inst] = .ok ()) :
      Step env s (.boot driver) { s with process := some (startController s.inst driver) }
  | bootRejected {message : String} (driver : Bool) (hp : s.process = none)
      (hrejected : bind env [s.inst] = .error message) : Step env s (.boot driver) s

theorem LoopService.step_of_eq_some {env : LoopEnv} {s s' : LoopService} {e : LoopEvent}
    (h : s.step env e = some s') : Step env s e s' := by
  cases e with
  | advance =>
    obtain ⟨p, hp, h⟩ := Option.bind_eq_some_iff.1 h
    obtain ⟨point, hpoint, h⟩ := Option.bind_eq_some_iff.1 h
    obtain ⟨a, ha, h⟩ := Option.bind_eq_some_iff.1 h
    cases h
    exact .advance hp hpoint ha
  | answer result =>
    obtain ⟨p, hp, h⟩ := Option.bind_eq_some_iff.1 h
    split at h
    · rename_i next hpoint
      cases h
      exact .answer result hp hpoint
    · cases h
  | cancel =>
    obtain ⟨p, hp, h⟩ := Option.bind_eq_some_iff.1 h
    split at h
    · rename_i hterminal
      cases h
      exact .cancelledBefore hp hterminal
    · rename_i hopen
      cases h
      exact .cancelled hp (Bool.eq_false_iff.2 hopen)
  | cancelFrame =>
    obtain ⟨p, hp, h⟩ := Option.bind_eq_some_iff.1 h
    split at h
    · cases h
    · rename_i howed
      cases h
      exact .cancelFrame hp howed
  | crash =>
    obtain ⟨p, hp, h⟩ := Option.bind_eq_some_iff.1 h
    cases h
    exact .crash hp
  | boot driver =>
    simp only [step] at h
    split at h
    · cases h
    · rename_i hp haccepted
      cases h
      exact .boot driver hp haccepted
    · rename_i hp hrejected
      cases h
      exact .bootRejected driver hp hrejected

/-! ## Updates of the last record -/

section Update

variable {inst : LoopInstance} {pre : List LoopInvocationRecord} {record : LoopInvocationRecord}

/-- A reservation at the end of the ledger is the one that is updated. -/
theorem updateReservedLoopInvocation_concat (hledger : inst.invocationLedger = pre ++ [record])
    (hstate : record.state = .reserved) (update : LoopInvocationRecord → LoopInvocationRecord) :
    updateReservedLoopInvocation inst record.iter record.kind update =
      .ok { inst with invocationLedger := pre ++ [update record] } := by
  simp [updateReservedLoopInvocation, hledger, hstate, modifyFirst, bailIf, pure, Except.pure,
    Bind.bind, Except.bind]

end Update

/-! ## A loop to run -/

def sampleHexCodec : HexCodec where
  encode bytes := String.ofList (hexEncode bytes)
  decode text := hexDecode text.toList
  decode_encode bytes := by simp [hexDecode_hexEncode]

def sampleParseUra (ura : String) : Except String PrincipalUra :=
  if ura = "easynet:///r/test/user/alice" then .ok ⟨.user, "test", some "alice", none, none, none⟩
  else if ura = "easynet:///r/test/device/dev-1" then
    .ok ⟨.device, "test", none, some "dev-1", none, none⟩
  else if ura = "easynet:///r/test/agent/device.dev-1.automation" then
    .ok ⟨.agent, "test", none, none, some ("dev-1", "automation"), none⟩
  else if ura = "easynet:///r/test/agent/alice.worker" then
    .ok ⟨.agent, "test", none, none, none, some ("alice", "worker")⟩
  else .error "unsupported URA"

/-- A verify output that ends the loop. -/
def doneTrue : String := "\x7b\"done\": true\x7d"

/-- A verify output that goes on. -/
def doneFalse : String := "\x7b\"done\": false\x7d"

def sampleEnv : LoopEnv where
  parseUra := sampleParseUra
  userUra realm user := "easynet:///r/" ++ realm ++ "/user/" ++ user
  hex := sampleHexCodec
  parseJson text :=
    if text = doneTrue then some (.object [("done", .bool true)])
    else if text = doneFalse then some (.object [("done", .bool false)])
    else none
  debugStr text := "\"" ++ text ++ "\""

def sampleSpec : LoopSpec where
  id := "loop-1"
  tenant := "test"
  workerAgent := "worker"
  authority := {
    accountableUserUra := "easynet:///r/test/user/alice"
    creatorInvocationId := "inv-1"
    controllerCalleeUra := "easynet:///r/test/agent/device.dev-1.automation"
    targetCalleeUra := "easynet:///r/test/agent/alice.worker"
    executionHostUra := "easynet:///r/test/device/dev-1" }
  verifyExpr := "tests pass"
  maxIters := 2
  bodyPrompt := "fix the tests"

/-- The sample loop after `create`. -/
def sampleInstance : LoopInstance where
  id := sampleSpec.id
  tenant := sampleSpec.tenant
  workerAgent := sampleSpec.workerAgent
  authority := sampleSpec.authority
  verifyExpr := sampleSpec.verifyExpr
  bodyPrompt := sampleSpec.bodyPrompt
  maxIters := sampleSpec.maxIters
  currentIter := 0
  state := .pending
  invocationLedger := []
  lastBodyOutput := none
  lastVerifyOutput := none

theorem create_sampleSpec : create sampleEnv sampleSpec = .ok sampleInstance := rfl

/-- An answer of the driver. -/
def sampleOutcome (output : String) : LoopInvocationOutcome where
  output
  invocationId := "inv-2"
  receiptUra := "easynet:///r/test/agent/alice.worker/invocation/inv-2/receipt/3"
  receiptHash := ⟨List.replicate 32 7, rfl⟩

end EasyNetDaemon.Loops
