import EasyNetDaemon.Core.AgentId
import EasyNetDaemon.Library.JsonValue
import Mathlib.Algebra.Ring.Nat

/-!
# The mission IR

What the planner emits and the interpreter runs: calls with their static arguments, the references
that are filled in from captured outputs, and their failure policy; loops of calls; and the ranges
of steps that form the phases of the schedule.
-/

namespace EasyNetDaemon.Eal

open Library EasyNetDaemon.Core

/-- Where a step is dispatched to. -/
inductive IrTarget
  | agent (id : AgentId)
  | device (nodeId : String)
  deriving DecidableEq, Repr

/-- What happens when a step fails. -/
inductive IrFailurePolicy
  | continue
  | abort
  | skip
  | retry
  deriving DecidableEq, Repr

/-- One invocation of an ability. `inputRefs` maps argument keys to bindings, in key order. -/
structure IrCall where
  stepId : String
  stepName : String
  ability : AbilityName
  target : IrTarget
  staticArguments : Json
  inputRefs : List (String × String)
  outputBinding : Option String
  timeoutSeconds : Int
  maxRetries : Int
  onFailure : IrFailurePolicy
  optional : Bool
  contentType : String

/-- A loop over blocks of steps. -/
structure IrLoopOf (S : Type) where
  name : Option String
  maxIters : Nat
  body : List S
  verify : List S
  resultBinding : Option String

/-- A step of a mission. -/
inductive IrStep
  | loop (lp : IrLoopOf IrStep)
  | call (c : IrCall)

/-- A loop of compiled steps. -/
abbrev IrLoop := IrLoopOf IrStep

mutual

/-- Every call inside a step, in source order. -/
def IrStep.walkCalls : IrStep → List IrCall
  | .call c => [c]
  | .loop ⟨_, _, body, verify, _⟩ => walkCallsAll body ++ walkCallsAll verify

/-- The calls of a block. -/
def walkCallsAll : List IrStep → List IrCall
  | [] => []
  | step :: rest => step.walkCalls ++ walkCallsAll rest

end

/-- The number of calls that a step makes at most, retries not counted. -/
def IrStep.staticCallBound : IrStep → Nat
  | .call _ => 1
  | .loop lp => lp.maxIters * ((walkCallsAll lp.body).length + (walkCallsAll lp.verify).length)

/-- The binding that a step exports to the scope around it. -/
def IrStep.exportedBinding : IrStep → Option String
  | .call c => c.outputBinding
  | .loop lp => lp.resultBinding

/-- The value of an `emit` record. -/
inductive IrEmitValue
  | literal (value : Json)
  | binding (name : String)

/-- An `emit` record. -/
structure IrEmit where
  name : String
  kind : String
  value : IrEmitValue

/-- The steps `start .. end` of one phase. -/
structure PhaseRange where
  start : Nat
  stop : Nat
  deriving DecidableEq, Repr

/-- A compiled mission. -/
structure MissionIr where
  name : String
  steps : List IrStep
  phases : List PhaseRange
  emits : List IrEmit

/-- The cap on the worst-case number of calls of a mission. -/
def defaultMaxCalls : Nat := 256

/-- Every call of a mission. -/
def MissionIr.walkCalls (ir : MissionIr) : List IrCall := walkCallsAll ir.steps

/-- The sum of the bounds of its steps. -/
def MissionIr.staticCallBound (ir : MissionIr) : Nat :=
  (ir.steps.map IrStep.staticCallBound).sum

end EasyNetDaemon.Eal
