import EasyNetDaemon.Eal.Ast
import EasyNetDaemon.Library.CountedReads
import Mathlib.Algebra.Group.Int.Defs
import Mathlib.Algebra.Group.Nat.Defs

/-!
# The EAL parser

The model of `eal/parser/mod.rs`: a recursive descent over a position in the token stream that is
looked at (`peek`) and moved (`advance`), with every look counted as a step. Every call of a
function and every round of a loop makes a look, so nothing the parser does goes uncounted. Past the
last token every look finds the end of input. Functions that call each other in a circle take a
bound on the number of nested calls.
-/

namespace EasyNetDaemon.Eal

open Library

/-- A token. Float literals are kept as their text. -/
inductive Token
  | mission
  | letKw
  | call
  | emit
  | on
  | withKw
  | timeout
  | retries
  | onFailure
  | optional
  | abort
  | skip
  | retry
  | continueKw
  | loop
  | body
  | verify
  | stringLit (s : String)
  | intLit (n : Int)
  | floatLit (text : String)
  | boolLit (b : Bool)
  | ident (s : String)
  | lBrace
  | rBrace
  | lParen
  | rParen
  | lBracket
  | rBracket
  | eq
  | colon
  | comma
  | dot
  | eof
  deriving DecidableEq, Repr

/-- Where a value stands: an argument of a member call, or a field of a `with` block. -/
inductive ValueSite
  | argument
  | field
  deriving DecidableEq, Repr

/-- Why tokens are not parsed; `nesting` is the bound on calls that the model carries. -/
inductive ParseError
  | expected (expected got : Token)
  | expectedString (got : Token)
  | expectedIdent (got : Token)
  | expectedInt (got : Token)
  | notABlockForm (word : String)
  | emitKind (got : Token)
  | contextualIdent (expected : String) (got : Token)
  | negativeInteger (n : Int)
  | outOfU32Range (n : Int)
  | integerLiteral (got : Token)
  | rhs (got : Token)
  | memberCallAgent (got : Token)
  | unknownAccessor (site : ValueSite) (accessor : String)
  | bareIdentifier (site : ValueSite) (ident : String)
  | value (site : ValueSite) (got : Token)
  | duplicateBody
  | duplicateVerify
  | subBlock (got : Token)
  | missingBody
  | missingVerify
  | outOfRange (field : String) (n : Int)
  | failurePolicy (got : Token)
  | nesting
  deriving DecidableEq, Repr

/-- The blocks of a loop that were seen. -/
structure SubBlocks where
  body : Option (List Statement) := none
  verify : Option (List Statement) := none

/-- The loop of two blocks; both have to be there. -/
def SubBlocks.toLoop (name : Option String) (maxIters : Nat) (blocks : SubBlocks) :
    Except ParseError LoopBlock :=
  match blocks.body, blocks.verify with
  | none, _ => .error .missingBody
  | some _, none => .error .missingVerify
  | some body, some verify => .ok { name, maxIters, body, verify }

/-- The words that an earlier draft of the language used for blocks. -/
def isDraftBlockWord (s : String) : Bool := s == "chat" || s == "handoff" || s == "discuss"

/-- Parsers that count their looks at tokens. -/
abbrev Reads : Type → Type := CountedReader Token ParseError

namespace Parser

/-! ## Single tokens -/

/-- Looks at the next token. -/
def peek : Reads Token := CountedReader.peek .eof

/-- Looks further ahead. -/
def peekAt (offset : Nat) : Reads Token := CountedReader.peekAt .eof offset

/-- Takes a token. -/
def advance : Reads Token := CountedReader.advance .eof

/-- Fails. -/
def bail {α : Type} (e : ParseError) : Reads α := CountedReader.fail e

/-- Takes the token that must come next. -/
def expect (expected : Token) : Reads Unit := do
  let t ← advance
  if t = expected then return () else bail (.expected expected t)

/-- Takes a string. -/
def expectString : Reads String := do
  match ← advance with
  | .stringLit s => return s
  | t => bail (.expectedString t)

/-- Takes an identifier. -/
def expectIdent : Reads String := do
  match ← advance with
  | .ident s => return s
  | t => bail (.expectedIdent t)

/-- Takes an integer. -/
def expectInt : Reads Int := do
  match ← advance with
  | .intLit n => return n
  | t => bail (.expectedInt t)

/-- Takes an identifier that is a keyword here. -/
def expectContextualIdent (expected : String) : Reads Unit := do
  let t ← peek
  if t = .ident expected then
    let _ ← advance
    return ()
  else bail (.contextualIdent expected t)

/-- Takes the kind of an `emit`. -/
def expectEmitKind : Reads String := do
  match ← advance with
  | .stringLit s => return s
  | .ident s => return s
  | t => bail (.emitKind t)

/-- Takes the name of a block if it has one. -/
def parseOptionalBlockName : Reads (Option String) := do
  match ← peek with
  | .stringLit _ =>
    let s ← expectString
    return some s
  | _ => return none

/-- Takes an integer that fits in `u32`. -/
def expectU32 : Reads Nat := do
  match ← peek with
  | .intLit n =>
    let _ ← advance
    if n < 0 then bail (.negativeInteger n)
    else if 2 ^ 32 ≤ n then bail (.outOfU32Range n)
    else return n.toNat
  | t => bail (.integerLiteral t)

/-- Takes an integer from 0 to the largest `i32`. -/
def expectI32InRange (field : String) : Reads Int := do
  let n ← expectInt
  if n < 0 || 2 ^ 31 ≤ n then bail (.outOfRange field n) else return n

/-- Takes a failure policy. -/
def parsePolicy : Reads FailurePolicy := do
  match ← advance with
  | .abort => return .abort
  | .skip => return .skip
  | .retry => return .retry
  | .continueKw => return .continue
  | t => bail (.failurePolicy t)

/-! ## Values -/

/-- Whether a token is an identifier. -/
def isIdent : Token → Bool
  | .ident _ => true
  | _ => false

/-- A reference `<ident>.output` or `<ident>.result`. -/
def parseReference (site : ValueSite) : Reads FieldValue := do
  let ident ← expectIdent
  let t ← peek
  if t = .dot then
    let _ ← advance
    let acc ← expectIdent
    if acc = "output" then return .varRef ident
    else if acc = "result" then return .varRef (ident ++ ".result")
    else bail (.unknownAccessor site acc)
  else bail (.bareIdentifier site ident)

/-- Takes a literal. -/
def parseLiteral (site : ValueSite) : Reads FieldValue := do
  match ← advance with
  | .stringLit s => return .string s
  | .intLit n => return .int n
  | .floatLit text => return .float text
  | .boolLit b => return .bool b
  | t => bail (.value site t)

/-- `parse_value`, and what `parse_arg_value` does when the value is no object. -/
def parseScalar (site : ValueSite) : Reads FieldValue := do
  let t ← peek
  if isIdent t then parseReference site else parseLiteral site

/-- One round of the loop over named arguments, up to the comma. -/
def parseNamedArg (argValue : Reads FieldValue) : Reads Field := do
  let key ← expectIdent
  expect .colon
  let value ← argValue
  return { key, value }

mutual

/-- The value of a named argument. -/
def parseArgValue : Nat → Reads FieldValue
  | 0 => bail .nesting
  | fuel + 1 => do
    let t ← peek
    if t = .lBrace then
      let _ ← advance
      let fields ← parseNamedArgs .rBrace fuel
      expect .rBrace
      return .object fields
    else parseScalar .argument

/-- Named arguments up to `close`. -/
def parseNamedArgs (close : Token) : Nat → Reads (List Field)
  | 0 => bail .nesting
  | fuel + 1 => do
    let t ← peek
    if t = close then return []
    else
      let t ← peek
      if t = .eof then return []
      else
        let field ← parseNamedArg (parseArgValue fuel)
        let t ← peek
        if t = .comma then
          let _ ← advance
          let fields ← parseNamedArgs close fuel
          return field :: fields
        else return [field]

end

/-- One round of the loop over the fields of a `with` block. -/
def parseField : Reads Field := do
  let key ← expectIdent
  expect .eq
  let value ← parseScalar .field
  let t ← peek
  if t = .comma then
    let _ ← advance
    return { key, value }
  else return { key, value }

/-- The fields of a `with` block. -/
def parseFields : Nat → Reads (List Field)
  | 0 => bail .nesting
  | fuel + 1 => do
    let t ← peek
    if t = .rBrace then return []
    else
      let t ← peek
      if t = .eof then return []
      else
        let field ← parseField
        let fields ← parseFields fuel
        return field :: fields

/-! ## Calls -/

/-- One round of the loop over options: the options after it, or none where the loop ends. -/
def parseOption (opts : StepOptions) : Reads (Option StepOptions) := do
  match ← peek with
  | .timeout =>
    let _ ← advance
    let n ← expectI32InRange "timeout"
    return some { opts with timeoutSeconds := some n }
  | .retries =>
    let _ ← advance
    let n ← expectI32InRange "retries"
    return some { opts with maxRetries := some n }
  | .onFailure =>
    let _ ← advance
    let policy ← parsePolicy
    return some { opts with onFailure := some policy }
  | .optional =>
    let _ ← advance
    return some { opts with optional := true }
  | _ => return none

/-- The options behind a call. -/
def parseOptions : Nat → StepOptions → Reads StepOptions
  | 0, _ => bail .nesting
  | fuel + 1, opts => do
    match ← parseOption opts with
    | some opts => parseOptions fuel opts
    | none => return opts

/-- A `with` block, if there is one. -/
def parseWithBlock (fuel : Nat) : Reads (List Field) := do
  let t ← peek
  if t = .withKw then
    let _ ← advance
    expect .lBrace
    let fields ← parseFields fuel
    expect .rBrace
    return fields
  else return []

/-- `call "f" on "node"`. -/
def parseCallExpr (fuel : Nat) : Reads CallExpr := do
  expect .call
  let functionName ← expectString
  expect .on
  let targetNode ← expectString
  let arguments ← parseWithBlock fuel
  let options ← parseOptions fuel {}
  return { functionName, targetNode := some targetNode, targetKind := .device, arguments, options }

/-- The agent of a member call. -/
def parseAgent : Reads String := do
  match ← advance with
  | .ident s => return s
  | .stringLit s => return s
  | t => bail (.memberCallAgent t)

/-- `agent.ability(…)`. -/
def parseMemberCall (fuel : Nat) : Reads CallExpr := do
  let agent ← parseAgent
  expect .dot
  let ability ← expectIdent
  expect .lParen
  let arguments ← parseNamedArgs .rParen fuel
  expect .rParen
  let options ← parseOptions fuel {}
  return { functionName := ability, targetNode := some agent, targetKind := .agent, arguments,
           options }

/-- A member call, when a dot follows the agent. -/
def parseMemberCallAt (fuel : Nat) (t : Token) : Reads CallExpr := do
  let next ← peekAt 1
  if next = .dot then parseMemberCall fuel else bail (.rhs t)

/-- A call of either form. -/
def parseRhs (fuel : Nat) : Reads CallExpr := do
  match ← peek with
  | .call => parseCallExpr fuel
  | .ident s => parseMemberCallAt fuel (.ident s)
  | .stringLit s => parseMemberCallAt fuel (.stringLit s)
  | t => bail (.rhs t)

/-! ## Statements -/

/-- Whether an identifier starts a member call. -/
def isMemberCallStart : Reads Bool := do
  let t ← peekAt 1
  return t == .dot || t == .lParen

/-- `emit "name" kind k value v`. -/
def parseEmitStatement (fuel : Nat) : Reads EmitStatement := do
  expect .emit
  let name ← expectString
  expectContextualIdent "kind"
  let kind ← expectEmitKind
  expectContextualIdent "value"
  let value ← parseArgValue fuel
  return { name, kind, value }

/-- The head of a loop, up to its opening brace. -/
def parseLoopHead : Reads (Option String × Nat) := do
  expect .loop
  let name ← parseOptionalBlockName
  expectContextualIdent "max_iters"
  expect .colon
  let maxIters ← expectU32
  expect .lBrace
  return (name, maxIters)

/-- The end of a loop block, after its closing brace. -/
def finishLoop (name : Option String) (maxIters : Nat) (blocks : SubBlocks) : Reads LoopBlock :=
  match blocks.toLoop name maxIters with
  | .ok block => return block
  | .error e => bail e

/-- One round of the loop over the blocks of a loop, with the keyword that was seen. -/
def parseSubBlock (statements : Reads (List Statement)) (blocks : SubBlocks) :
    Token → Reads SubBlocks
  | .body => do
    if blocks.body.isSome then bail .duplicateBody
    else
      let _ ← advance
      expect .lBrace
      let stmts ← statements
      expect .rBrace
      return { blocks with body := some stmts }
  | .verify => do
    if blocks.verify.isSome then bail .duplicateVerify
    else
      let _ ← advance
      expect .lBrace
      let stmts ← statements
      expect .rBrace
      return { blocks with verify := some stmts }
  | t => bail (.subBlock t)

/-- A statement that begins with an identifier. -/
def parseIdentStatement (fuel : Nat) (s : String) : Reads CallExpr := do
  if isDraftBlockWord s then
    if ← isMemberCallStart then parseRhs fuel else bail (.notABlockForm s)
  else parseRhs fuel

/-- The second test of the loop over statements, which only the loop of a mission makes. -/
def inputEnded (stopAtEof : Bool) : Reads Bool := do
  if stopAtEof then
    let t ← peek
    return t == .eof
  else return false

mutual

/-- A statement. -/
def parseStatement : Nat → Reads Statement
  | 0 => bail .nesting
  | fuel + 1 => do
    match ← peek with
    | .letKw =>
      let _ ← advance
      let binding ← expectIdent
      expect .eq
      let call ← parseRhs fuel
      return .letCall binding call
    | .loop =>
      let (name, maxIters) ← parseLoopHead
      let blocks ← parseSubBlocks fuel {}
      expect .rBrace
      let block ← finishLoop name maxIters blocks
      return .loop block
    | .ident s =>
      let call ← parseIdentStatement fuel s
      return .call call
    | .emit =>
      let emit ← parseEmitStatement fuel
      return .emit emit
    | _ =>
      let call ← parseRhs fuel
      return .call call

/-- Statements up to the closing brace. -/
def parseStatements (stopAtEof : Bool) : Nat → Reads (List Statement)
  | 0 => bail .nesting
  | fuel + 1 => do
    let t ← peek
    if t = .rBrace then return []
    else
      if ← inputEnded stopAtEof then return []
      else
        let stmt ← parseStatement fuel
        let stmts ← parseStatements stopAtEof fuel
        return stmt :: stmts

/-- The body and verify blocks of a loop. -/
def parseSubBlocks : Nat → SubBlocks → Reads SubBlocks
  | 0, _ => bail .nesting
  | fuel + 1, blocks => do
    let t ← peek
    if t = .rBrace then return blocks
    else
      let t ← peek
      let blocks ← parseSubBlock (parseStatements false fuel) blocks t
      parseSubBlocks fuel blocks

end

/-- A mission. -/
def parseMission (fuel : Nat) : Reads MissionDecl := do
  expect .mission
  let name ← expectString
  expect .lBrace
  let statements ← parseStatements true fuel
  expect .rBrace
  return { name, statements }

/-- A program is one mission. -/
def parseProgram (fuel : Nat) : Reads EalProgram := do
  let mission ← parseMission fuel
  return { mission }

end Parser

end EasyNetDaemon.Eal
