import EasyNetDaemon.Eal.Ast
import EasyNetDaemon.Eal.Ir
import Mathlib.Data.List.Sort

/-!
# The EAL compile pass

The model of `eal/runtime/planner.rs`: one walk over the statements analyses them into items
(`analyzeStatementsInner`), a depth-first search looks for cycles, the items are put into phases
(`assignPhases`, or one phase for each item when a loop is among them), lowered in phase order, and
the ranges of the phases are emitted beside them (`compile`).
-/

namespace EasyNetDaemon.Eal

open Library EasyNetDaemon.Core

/-! ## Analysed items -/

/-- A call with its id and the bindings that it depends on. -/
structure AnalyzedStep where
  stepId : String
  binding : Option String
  call : CallExpr
  deps : List String

/-- An item of a mission or of a block. The blocks of a loop are lowered when it is analysed. -/
inductive AnalyzedItem
  | call (step : AnalyzedStep)
  | loop (lp : IrLoop)

namespace AnalyzedItem

/-- The binding that an item exports to the scope around it. -/
def binding : AnalyzedItem → Option String
  | .call step => step.binding
  | .loop lp => lp.resultBinding

/-- The bindings of the scope around it that an item refers to; loops are hermetic. -/
def outerDeps : AnalyzedItem → List String
  | .call step => step.deps
  | .loop _ => []

/-- How messages call an item. -/
def label : AnalyzedItem → String
  | .call step => step.stepId
  | .loop lp => lp.name.getD "<anonymous-loop>"

/-- Whether an item is a loop. -/
def isLoop : AnalyzedItem → Bool
  | .call _ => false
  | .loop _ => true

end AnalyzedItem

/-! ## Values -/

/-- Whether a value refers to the output of another statement. -/
def FieldValue.isVarRef : FieldValue → Bool
  | .varRef _ => true
  | _ => false

/-- Why a reference inside an object is refused. -/
def nestedReferenceError (key : String) : String :=
  "field '" ++ key ++ "' uses `<var>.output` inside a nested object, which is not supported " ++
    "(variable references must be top-level args so the planner can wire dependency edges)"

mutual

/-- The JSON value of a literal. -/
def fieldValueToJson : FieldValue → Except String Json
  | .string s => .ok (.string s)
  | .int n => .ok (.int n)
  | .float text => .ok (.decimal text)
  | .bool b => .ok (.bool b)
  | .object fields => do
    let members ← objectMembers fields []
    return .object members
  | .varRef varName =>
    .error ("internal: `<var>.output` (" ++ varName ++ ") reached field_value_to_json; " ++
      "should have been handled by the top-level VarRef arm in lower_call")

/-- The members of an object literal, inserted one by one. -/
def objectMembers :
    List Field → List (String × Json) → Except String (List (String × Json))
  | [], members => .ok members
  | ⟨key, value⟩ :: rest, members => do
    bailIf value.isVarRef (nestedReferenceError key)
    let json ← fieldValueToJson value
    objectMembers rest (insertByKey key json members)

end

/-! ## Lowering -/

/-- The static arguments and the references of a call, inserted in argument order. -/
def splitArguments :
    List Field → List (String × Json) → List (String × String) →
      Except String (List (String × Json) × List (String × String))
  | [], staticArgs, inputRefs => .ok (staticArgs, inputRefs)
  | ⟨key, .varRef varName⟩ :: rest, staticArgs, inputRefs =>
    splitArguments rest staticArgs (insertByKey key varName inputRefs)
  | ⟨key, value⟩ :: rest, staticArgs, inputRefs => do
    let json ← fieldValueToJson value
    splitArguments rest (insertByKey key json staticArgs) inputRefs

/-- The target of a call, chosen by its surface form. -/
def lowerTarget (step : AnalyzedStep) : Except String IrTarget :=
  match step.call.targetKind, step.call.targetNode with
  | .agent, none =>
    .error ("step '" ++ step.stepId ++ "': member-call form has no agent target (parser bug)")
  | .agent, some raw =>
    match AgentId.parse raw with
    | .ok id => .ok (.agent id)
    | .error e =>
      .error ("step '" ++ step.stepId ++ "': agent target '" ++ raw ++
        "' is not a valid agent id: " ++ e.text)
  | .device, none =>
    .error ("step '" ++ step.stepId ++
      "': traditional call form requires explicit `on \"device\"` target")
  | .device, some nodeId => .ok (.device nodeId)

/-- The ability of a call. -/
def lowerAbility (step : AnalyzedStep) : Except String AbilityName :=
  match AbilityName.parse step.call.functionName with
  | .ok name => .ok name
  | .error e =>
    .error ("step '" ++ step.stepId ++ "': ability name '" ++ step.call.functionName ++
      "' is not valid: " ++ e.text)

/-- The failure policy of the IR; without one the mission goes on. -/
def lowerPolicy : Option FailurePolicy → IrFailurePolicy
  | some .abort => .abort
  | some .skip => .skip
  | some .retry => .retry
  | some .continue => .continue
  | none => .continue

/-- Lowers an analysed call. -/
def lowerCall (step : AnalyzedStep) : Except String IrCall := do
  let arguments ← splitArguments step.call.arguments [] []
  let target ← lowerTarget step
  let ability ← lowerAbility step
  return {
    stepId := step.stepId
    stepName := step.stepId
    ability
    target
    staticArguments := .object arguments.1
    inputRefs := arguments.2
    outputBinding := step.binding
    timeoutSeconds := step.call.options.timeoutSeconds.getD 0
    maxRetries := step.call.options.maxRetries.getD 0
    onFailure := lowerPolicy step.call.options.onFailure
    optional := step.call.options.optional
    contentType := "application/json" }

/-- Lowers an item. -/
def lowerItem : AnalyzedItem → Except String IrStep
  | .call step => do
    let c ← lowerCall step
    return .call c
  | .loop lp => .ok (.loop lp)

/-- Lowers the items of a list, in order. -/
def lowerItems : List AnalyzedItem → Except String (List IrStep)
  | [] => .ok []
  | item :: rest => do
    let step ← lowerItem item
    let steps ← lowerItems rest
    return step :: steps

/-! ## Analysis of the statements -/

/-- The generated id of the `n`-th call without a binding. -/
def anonId (n : Nat) : String := "__anon_" ++ toString n

/-- The id of a call: its binding, or a generated one. -/
def stepIdOf (binding : Option String) (anon : Nat) : String :=
  match binding with
  | some name => name
  | none => anonId (anon + 1)

/-- `on_failure retry` without a positive number of retries. -/
def retryWithoutRetries (options : StepOptions) : Bool :=
  options.onFailure == some .retry && options.maxRetries.getD 0 ≤ 0

/-- Both `optional` and `on_failure abort`. -/
def optionalAndAbort (options : StepOptions) : Bool :=
  options.optional && options.onFailure == some .abort

/-- Analyses one call in a scope whose names are `symbols`. -/
def analyzeCall (binding : Option String) (call : CallExpr) (symbols : List String) (anon : Nat) :
    Except String AnalyzedStep := do
  bailIf (binding.any (symbols.contains ·)) ("duplicate binding '" ++ binding.getD "" ++ "'")
  let stepId := stepIdOf binding anon
  bailIf (retryWithoutRetries call.options)
    ("step '" ++ stepId ++ "': on_failure retry requires `retries N` with N > 0")
  bailIf (optionalAndAbort call.options)
    ("step '" ++ stepId ++ "': `optional` and `on_failure abort` are contradictory; pick one " ++
      "(use `optional` for best-effort, `on_failure abort` for mission-critical)")
  checkAll (fun varName => bailIf (!symbols.contains varName)
    ("step '" ++ stepId ++ "': undefined variable '" ++ varName ++ "'")) call.references
  return { stepId, binding, call, deps := call.references }

/-- Analyses an `emit` record. -/
def analyzeEmit (emit : EmitStatement) (symbols : List String) : Except String IrEmit :=
  match emit.value with
  | .varRef varName => do
    bailIf (!symbols.contains varName)
      ("emit '" ++ emit.name ++ "': undefined variable '" ++ varName ++ "'")
    return { name := emit.name, kind := emit.kind, value := .binding varName }
  | value => do
    let json ← fieldValueToJson value
    return { name := emit.name, kind := emit.kind, value := .literal json }

/-- What the walk over the statements of one scope has gathered. -/
structure Scope where
  symbols : List String
  anon : Nat
  items : List AnalyzedItem
  emits : List IrEmit

/-- The names of a scope after an item was added to it. -/
def addSymbol (binding : Option String) (symbols : List String) : List String :=
  match binding with
  | some name => name :: symbols
  | none => symbols

/-- How the loops of a scope are analysed: the loop and the counter of generated ids. -/
abbrev LoopAnalysis := LoopBlock → Nat → Except String (IrLoop × Nat)

/-- One statement of a scope. -/
def analyzeStatement (onLoop : LoopAnalysis) (allowEmit : Bool) (scope : Scope) :
    Statement → Except String Scope
  | .letCall name call => do
    let step ← analyzeCall (some name) call scope.symbols scope.anon
    return { scope with symbols := name :: scope.symbols, items := scope.items ++ [.call step] }
  | .call call => do
    let step ← analyzeCall none call scope.symbols scope.anon
    return { scope with anon := scope.anon + 1, items := scope.items ++ [.call step] }
  | .loop block => do
    let (lp, anon) ← onLoop block scope.anon
    bailIf (lp.resultBinding.any (scope.symbols.contains ·))
      ("duplicate binding '" ++ lp.resultBinding.getD "" ++ "' from loop result")
    return { scope with
      symbols := addSymbol lp.resultBinding scope.symbols
      anon
      items := scope.items ++ [.loop lp] }
  | .emit emit => do
    bailIf (!allowEmit)
      ("emit '" ++ emit.name ++ "' is only supported at top-level mission scope in EAL v1")
    let record ← analyzeEmit emit scope.symbols
    return { scope with emits := scope.emits ++ [record] }

/-! ## Cycles -/

/-- The index of the item that exports a binding; a later item replaces an earlier one. -/
def bindingIndex (items : List AnalyzedItem) : List (String × Nat) :=
  (items.zipIdx.filterMap fun p => p.1.binding.map fun b => (b, p.2)).reverse

/-- The items that the search has seen, and those on the current path. -/
structure DfsState where
  visited : List Nat
  inStack : List Nat

/-- The search from one item. Every call marks one more item, so that the number of items bounds
the depth. -/
def dfs (items : List AnalyzedItem) (index : List (String × Nat)) :
    Nat → Nat → DfsState → Except String DfsState
  | 0, _, st => .ok st
  | depth + 1, idx, st => do
    let item := items[idx]?
    let st ← foldChecked (fun st dep =>
      match index.lookup dep with
      | none => .ok st
      | some di =>
        if !st.visited.contains di then dfs items index depth di st
        else if st.inStack.contains di then
          .error ("cycle involving '" ++ (item.map AnalyzedItem.label).getD "" ++ "' and '" ++ dep
            ++ "'")
        else .ok st)
      { visited := idx :: st.visited, inStack := idx :: st.inStack }
      ((item.map AnalyzedItem.outerDeps).getD [])
    return { st with inStack := st.inStack.erase idx }

/-- Refuses items that depend on each other in a circle. -/
def detectCycles (items : List AnalyzedItem) : Except String Unit := do
  let index := bindingIndex items
  let _ ← foldChecked (fun st i =>
    if st.visited.contains i then .ok st else dfs items index items.length i st)
    { visited := [], inStack := [] } (List.range items.length)
  return ()

/-- The walk over the statements of one scope, which starts with the names of `seed`. -/
def analyzeStatementsInner (onLoop : LoopAnalysis) (stmts : List Statement) (anon : Nat)
    (seed : List String) (allowEmit : Bool) : Except String Scope := do
  let scope ← foldChecked (analyzeStatement onLoop allowEmit)
    { symbols := seed, anon, items := [], emits := [] } stmts
  detectCycles scope.items
  return scope

/-! ## Loops -/

/-- Whether a statement is a loop. -/
def Statement.isLoop : Statement → Bool
  | .loop _ => true
  | _ => false

/-- How messages call a loop. -/
def LoopBlockOf.label (block : LoopBlock) : String := block.name.getD "<anonymous>"

/-- The words of a message that name an inner loop. -/
def innerLoopName : Statement → String
  | .loop block => (block.name.map fun n => " '" ++ n ++ "'").getD ""
  | _ => ""

/-- Refuses a loop inside a block. -/
def rejectNestedLoop (label : String) (stmt : Statement) : Except String Unit :=
  bailIf stmt.isLoop
    ("loop '" ++ label ++ "': nested loops are not supported in v1 (inner loop" ++
      innerLoopName stmt ++ " — RFC §4.2 static depth cap)")

/-- The analysis of a loop inside a block. No block with a loop gets that far. -/
def noNestedLoop : LoopAnalysis := fun _ _ => .error "nested loop"

/-- The shape of a loop that is refused before its blocks are looked at. -/
def checkLoopShape (block : LoopBlock) : Except String Unit := do
  bailIf (block.maxIters < 1)
    ("loop '" ++ block.label ++ "': max_iters must be ≥ 1 (RFC §3.1)")
  bailIf (32 < block.maxIters)
    ("loop '" ++ block.label ++ "': max_iters must be ≤ 32 (RFC §3.1)")
  bailIf block.body.isEmpty
    ("loop '" ++ block.label ++ "': `body` sub-block must contain at least one statement")
  bailIf block.verify.isEmpty
    ("loop '" ++ block.label ++
      "': `verify` sub-block must contain at least one statement (RFC §4.4)")
  checkAll (rejectNestedLoop block.label) (block.body ++ block.verify)

/-- Whether the last item of a block is a call. -/
def endsWithCall (items : List AnalyzedItem) : Bool :=
  items.getLast?.any (!·.isLoop)

/-- The binding under which a loop exports its result. -/
def loopResultBinding (name : Option String) : Option String := name.map (· ++ ".result")

/-- Analyses a loop: `body` in an empty scope, `verify` in one that has the bindings of `body`. -/
def analyzeLoop : LoopAnalysis := fun block anon => do
  checkLoopShape block
  let body ← analyzeStatementsInner noNestedLoop block.body anon [] false
  let bodyBindings := body.items.filterMap AnalyzedItem.binding
  let verify ← analyzeStatementsInner noNestedLoop block.verify body.anon bodyBindings false
  bailIf (!endsWithCall verify.items)
    ("loop '" ++ block.label ++ "': the last statement of `verify` must be an ability call " ++
      "(RFC §4.4 — its output carries the `done: bool` termination predicate)")
  let bodyIr ← lowerItems body.items
  let verifyIr ← lowerItems verify.items
  return ({
    name := block.name
    maxIters := block.maxIters
    body := bodyIr
    verify := verifyIr
    resultBinding := loopResultBinding block.name }, verify.anon)

/-- Analyses the statements of a mission. -/
def analyzeMission (program : EalProgram) : Except String Scope :=
  analyzeStatementsInner analyzeLoop program.mission.statements 0 [] true

/-! ## Phases -/

/-- The phases of the producers of an item, read from the phases assigned so far; a phase that is
not assigned yet is zero. -/
def producerPhases (index : List (String × Nat)) (phase : List Nat) (item : AnalyzedItem) :
    List Nat :=
  (item.outerDeps.filterMap (index.lookup ·)).map fun di => phase.getD di 0

/-- One more than the largest phase of a producer, or zero without producers. -/
def itemPhase (index : List (String × Nat)) (phase : List Nat) (item : AnalyzedItem) : Nat :=
  match producerPhases index phase item with
  | [] => 0
  | p :: rest => rest.foldl max p + 1

/-- The phases of the items, assigned in one pass. -/
def assignPhases (items : List AnalyzedItem) : List Nat :=
  items.foldl (fun phase item => phase ++ [itemPhase (bindingIndex items) phase item]) []

/-- The items with their phases, in the order in which they are emitted: by phase, and in source
order within a phase. -/
def schedule (items : List AnalyzedItem) : List (Nat × AnalyzedItem) :=
  if items.any AnalyzedItem.isLoop then (List.range items.length).zip items
  else ((assignPhases items).zip items).insertionSort fun a b => a.1 ≤ b.1

/-- The number of phases. -/
def numPhases (scheduled : List (Nat × AnalyzedItem)) : Nat :=
  match scheduled with
  | [] => 0
  | p :: rest => rest.foldl (fun m q => max m q.1) p.1 + 1

/-- The ranges emitted so far, the current phase and where it starts. -/
structure PhaseEmission where
  phases : List PhaseRange
  curPhase : Nat
  phaseStart : Nat

/-- Ends the current phase before `outIdx`. -/
def PhaseEmission.close (outIdx : Nat) (em : PhaseEmission) : PhaseEmission :=
  { phases := em.phases ++ [⟨em.phaseStart, outIdx⟩]
    curPhase := em.curPhase + 1
    phaseStart := outIdx }

/-- Ends phases until `phase` is the current one. -/
def PhaseEmission.advance (phase outIdx : Nat) (em : PhaseEmission) : PhaseEmission :=
  (PhaseEmission.close outIdx)^[phase - em.curPhase] em

/-- The walk over the phases of the scheduled steps. -/
def emitPhases (em : PhaseEmission) (outIdx : Nat) : List Nat → PhaseEmission
  | [] => em
  | phase :: rest => emitPhases (em.advance phase outIdx) (outIdx + 1) rest

/-- The ranges of the phases, the last one included, padded to the number of phases. -/
def phaseRanges (levels : List Nat) (count : Nat) : List PhaseRange :=
  let em := emitPhases { phases := [], curPhase := 0, phaseStart := 0 } 0 levels
  let ranges := if levels.isEmpty then em.phases else em.phases ++ [⟨em.phaseStart, levels.length⟩]
  ranges ++ List.replicate (count - ranges.length) ⟨levels.length, levels.length⟩

/-! ## The pass -/

/-- Compiles a program to the mission IR. -/
def compile (program : EalProgram) : Except String MissionIr := do
  let analyzed ← analyzeMission program
  let scheduled := schedule analyzed.items
  let steps ← lowerItems (scheduled.map Prod.snd)
  let totalBound := (steps.map IrStep.staticCallBound).sum
  bailIf (defaultMaxCalls < totalBound)
    ("mission '" ++ program.mission.name ++ "' worst-case static call count " ++
      toString totalBound ++ " exceeds cap " ++ toString defaultMaxCalls ++
      " (RFC §4.1); reduce `max_iters` or shrink the loop body")
  return {
    name := program.mission.name
    steps
    phases := phaseRanges (scheduled.map Prod.fst) (numPhases scheduled)
    emits := analyzed.emits }

end EasyNetDaemon.Eal
