import Mathlib.Data.List.Basic

/-!
# The syntax of EAL

The abstract syntax of a mission, as the parser builds it and the planner reads it: a mission is a
list of statements, each a call, a call whose output is bound to a name, an `emit` record or a loop
with a `body` and a `verify` block. Arguments are literals, references to the output of another
statement, or nested objects.
-/

namespace EasyNetDaemon.Eal

/-- A named argument. -/
structure FieldOf (V : Type) where
  key : String
  value : V

/-- The value of an argument. -/
inductive FieldValue
  | string (s : String)
  | int (n : Int)
  | float (text : String)
  | bool (b : Bool)
  | varRef (varName : String)
  | object (fields : List (FieldOf FieldValue))

/-- A named value. -/
abbrev Field := FieldOf FieldValue

/-- The surface form of a call: `agent.ability(..)` or `call ".." on ".."`. -/
inductive TargetKind
  | agent
  | device
  deriving DecidableEq, Repr

/-- What to do when a step fails. -/
inductive FailurePolicy
  | abort
  | skip
  | retry
  | continue
  deriving DecidableEq, Repr

/-- The options written after a call. -/
structure StepOptions where
  timeoutSeconds : Option Int := none
  maxRetries : Option Int := none
  onFailure : Option FailurePolicy := none
  optional : Bool := false
  deriving DecidableEq, Repr

/-- A call of an ability. -/
structure CallExpr where
  functionName : String
  targetNode : Option String
  targetKind : TargetKind
  arguments : List Field
  options : StepOptions

/-- `emit "<name>" kind "<kind>" value <value>`. -/
structure EmitStatement where
  name : String
  kind : String
  value : FieldValue

/-- `loop "<name>" max_iters: N` with its two blocks of statements. -/
structure LoopBlockOf (S : Type) where
  name : Option String
  maxIters : Nat
  body : List S
  verify : List S

/-- A statement of a mission or of a block. -/
inductive Statement
  | letCall (binding : String) (call : CallExpr)
  | call (call : CallExpr)
  | emit (emit : EmitStatement)
  | loop (block : LoopBlockOf Statement)

/-- A loop of statements. -/
abbrev LoopBlock := LoopBlockOf Statement

/-- `mission "<name>" { .. }`. -/
structure MissionDecl where
  name : String
  statements : List Statement

/-- A parsed source. -/
structure EalProgram where
  mission : MissionDecl

/-- The bindings that the arguments of a call refer to. -/
def CallExpr.references (call : CallExpr) : List String :=
  call.arguments.filterMap fun field =>
    match field.value with
    | .varRef varName => some varName
    | _ => none

end EasyNetDaemon.Eal
