import EasyNetDaemon.Library.RustText
import EasyNetDaemon.Library.Utf8
import EasyNetDaemon.ShellGuard.Ast
import Mathlib.Algebra.Group.Nat.Defs
import Mathlib.Data.List.Infix

/-!
# The walker of the shell guard

The walker reads the syntax tree of a command line into simple commands, or refuses it as too
complex. It tracks the variables that the line assigns, so that `$VAR` in a later word becomes its
value, and it takes the commands inside `$( )` out of the words as commands of their own. A value
that is known only at run time is kept as a placeholder.

The commands found so far are the state of the walk (`Walker`); a scope is passed to and returned by
the functions that change it.
-/

namespace EasyNetDaemon.ShellGuard

open Library Library.RustText

/-! ## Scopes and placeholders -/

/-- The tracked variables and their values. -/
abbrev VarScope := Text → Option Text

/-- Stands for the output of a command. -/
def cmdsubPlaceholder : Text := "__CMDSUB_OUTPUT__".toList

/-- Stands for the value of a variable. -/
def varPlaceholder : Text := "__TRACKED_VAR__".toList

/-- The value is, or contains, something that is known only at run time. -/
def containsAnyPlaceholder (value : Text) : Bool :=
  decide (cmdsubPlaceholder <:+: value) || decide (varPlaceholder <:+: value)

/-- Variables that bash sets by itself. -/
def safeEnvVars : List String :=
  ["HOME", "PWD", "OLDPWD", "USER", "LOGNAME", "SHELL", "PATH", "HOSTNAME", "UID", "EUID", "PPID",
   "RANDOM", "SECONDS", "LINENO", "TMPDIR", "BASH_VERSION", "BASHPID", "SHLVL", "HISTFILE", "IFS"]

/-- The special parameters. -/
def specialVarNames : List String := ["?", "$", "!", "#", "0", "-"]

/-- Characters that change the words when an unquoted `$VAR` expands to them. -/
def bareVarUnsafe (value : Text) : Bool :=
  value.any fun c => c = ' ' || c = '\t' || c = '\n' || c = '*' || c = '?' || c = '['

/-- The name of a variable. -/
def isValidVarName : Text → Bool
  | [] => false
  | c :: cs => (c.isAlpha || c = '_') && cs.all fun c => c.isAlphanum || c = '_'

/-- A value with a placeholder in it is stored as the placeholder of a variable. -/
def applyAssignmentToScope (scope : VarScope) (assign : EnvAssignment) : VarScope :=
  let value := if containsAnyPlaceholder assign.value then varPlaceholder else assign.value
  fun name => if name = assign.name then some value else scope name

/-! ## Texts of single nodes -/

/-- `parse::<u32>()`. -/
def parseU32 (digits : Text) : Option Nat :=
  let digits := (stripPrefixChar '+' digits).getD digits
  if digits.isEmpty || !digits.all Char.isDigit then none
  else
    let value := digits.foldl (fun n c => 10 * n + (c.toNat - '0'.toNat)) 0
    if value < 2 ^ 32 then some value else none

/-- One layer of matching quotes is stripped from the target. -/
def unquoteRedirectTarget (raw : Text) : Text :=
  if 2 ≤ byteLen raw && (raw.head? = some '"' && raw.getLast? = some '"' ||
      raw.head? = some '\'' && raw.getLast? = some '\'') then
    raw.tail.dropLast
  else raw

/-- The text of a single-quoted string. -/
def unquoteRawString (raw : Text) : Text :=
  if 2 ≤ byteLen raw && raw.head? = some '\'' && raw.getLast? = some '\'' then raw.tail.dropLast
  else raw

/-- The characters that a backslash escapes inside double quotes. -/
def isDoubleQuoteEscape (c : Char) : Bool := c = '$' || c = '\x60' || c = '"' || c = '\\'

/-- The loop over the bytes; each byte becomes a character of its own. -/
def unescapeBytes : List UInt8 → Text
  | [] => []
  | byte :: next :: rest =>
    if byteChar byte = '\\' && isDoubleQuoteEscape (byteChar next) then
      byteChar next :: unescapeBytes rest
    else byteChar byte :: unescapeBytes (next :: rest)
  | [byte] => [byteChar byte]

/-- The text between double quotes. -/
def unescapeDoubleQuoted (s : Text) : Text := unescapeBytes (utf8 s)

/-- The variable's name, and whether it is a special one. -/
def expansionName : List Node → Option (Text × Bool)
  | [] => none
  | child :: rest =>
    match child.kind with
    | .variableName => some (child.text, false)
    | .specialVariableName => some (child.text, true)
    | _ => expansionName rest

/-- The value of `$VAR`; inside a string nothing is split or expanded further. -/
def resolveSimpleExpansion (node : Node) (scope : VarScope) (insideString : Bool) :
    Except TooComplex Text :=
  match expansionName node.children with
  | none => .error ⟨"simple_expansion with no variable name", "simple_expansion"⟩
  | some (name, isSpecial) =>
    match scope name with
    | some value =>
      if containsAnyPlaceholder value then
        if insideString then .ok varPlaceholder
        else .error ⟨"Bare $" ++ String.ofList name ++ " resolves to a runtime-unknown value",
          "simple_expansion"⟩
      else if !insideString && value.isEmpty then
        .error ⟨"Bare $" ++ String.ofList name ++
          " resolves to empty (would shift positional args)", "simple_expansion"⟩
      else if !insideString && bareVarUnsafe value then
        .error ⟨"Bare $" ++ String.ofList name ++
          " resolves to value containing IFS or glob char", "simple_expansion"⟩
      else .ok value
    | none =>
      if insideString && ((safeEnvVars.any fun n => n.toList == name) ||
          isSpecial &&
            ((specialVarNames.any fun n => n.toList == name) || name.all Char.isDigit)) then
        .ok varPlaceholder
      else .error ⟨"Untracked variable $" ++ String.ofList name, "simple_expansion"⟩

/-! ## Redirects -/

/-- The redirections. -/
def redirectOperators : List String := [">", ">>", "<", "<<", ">&", "<&", ">|", "&>", "&>>", "<<<"]

/-- The loop over the children of a redirect. -/
def parseFileRedirectLoop (op target : Option Text) (fd : Option Nat) :
    List Node → Except TooComplex (Option Text × Option Text × Option Nat)
  | [] => .ok (op, target, fd)
  | child :: rest =>
    match child.kind with
    | .fileDescriptor =>
      let fd := match parseU32 child.text with
        | some n => some n
        | none => fd
      parseFileRedirectLoop op target fd rest
    | .word | .string | .rawString | .concatenation | .number =>
      parseFileRedirectLoop op (some (unquoteRedirectTarget child.text)) fd rest
    | .commandSubstitution | .simpleExpansion | .expansion =>
      .error ⟨"Redirect target uses disallowed expansion `" ++ child.kind.name ++ "`",
        child.kind.name⟩
    | .other token =>
      if redirectOperators.contains token then
        parseFileRedirectLoop (some token.toList) target fd rest
      else parseFileRedirectLoop op target fd rest
    | _ => parseFileRedirectLoop op target fd rest

/-- A redirection to a file. -/
def parseFileRedirect (node : Node) : Except TooComplex Redirect := do
  let (op, target, fd) ← parseFileRedirectLoop none none none node.children
  match op, target with
  | none, _ => .error ⟨"file_redirect with no operator token", "file_redirect"⟩
  | some _, none => .error ⟨"file_redirect with no target word", "file_redirect"⟩
  | some op, some target => .ok ⟨op, target, fd⟩

/-! ## The walk -/

/-- A part of the walk: it appends to the commands found so far, or refuses the line. -/
abbrev Walker (α : Type) := StateT (List SimpleCommand) (Except TooComplex) α

/-- `ParseForSecurityResult::too_complex_node`. -/
def tooComplex {α : Type} (reason nodeType : String) : Walker α := throw ⟨reason, nodeType⟩

/-- `commands.push(cmd)`. -/
def pushCommand (cmd : SimpleCommand) : Walker Unit := modify (· ++ [cmd])

/-- The tokens between commands. -/
def separators : List String := ["&&", "||", "|", ";", "&", "|&", "\n"]

/-- The token is a separator. -/
def isSeparatorKind : Kind → Bool
  | .other token => separators.contains token
  | _ => false

/-- The separators behind which the assignments before may not be visible. -/
def resetsScope : Kind → Bool
  | .other token => ["||", "|", "|&", "&"].contains token
  | _ => false

/-- A `||` or `&` among the children, for which the scope is kept aside. -/
def needsSnapshot (children : List Node) : Bool :=
  children.any fun child => child.kind = .other "||" || child.kind = .other "&"

/-- The kind is a token without letters and digits, which an assignment may contain. -/
def isPlainToken (kind : Kind) : Bool :=
  let name := kind.name.toList
  (trimChars name).isEmpty || name.all fun c => !c.isAlphanum

/-- White space between nodes. -/
def isSkipUnnamed (kind : Kind) : Bool := ["", " ", "\t", "\n"].contains kind.name

/-- The builtins that declare variables. -/
def declarationBuiltins : List String := ["export", "local", "readonly", "declare", "typeset"]

/-- The name and the value of an assignment, after the loop over its children. -/
def finishAssignment (name value : Option Text) : Walker EnvAssignment :=
  match name with
  | none => tooComplex "variable_assignment with no name" "variable_assignment"
  | some name =>
    if !isValidVarName name then
      tooComplex ("Invalid variable name (bash treats as command): " ++ String.ofList name)
        "variable_assignment"
    else if name = "IFS".toList then
      tooComplex "IFS assignment changes word-splitting — cannot model statically"
        "variable_assignment"
    else pure ⟨name, value.getD []⟩

/-- The string, unless all of it is known only at run time. -/
def finishDoubleString (out : Text) (sawDynamicPlaceholder sawLiteralContent : Bool) :
    Walker Text :=
  if sawDynamicPlaceholder && !sawLiteralContent then
    tooComplex "Double-quoted string contains only a $() placeholder" "string"
  else pure out

mutual

/-- Walks a statement in the scope before it and returns the scope behind it. -/
def collectCommands (scope : VarScope) : Node → Walker VarScope
  | .mk kind _ text children =>
    match kind with
    | .program | .list =>
      collectSequence (if needsSnapshot children then scope else fun _ => none) scope children
    | .pipeline => do
      -- every stage is a subshell: its assignments do not come back
      let _ ← collectSequence scope scope children
      return scope
    | .redirectedStatement => do
      let (cmd, scope) ← walkRedirectedLoop scope none [] children
      match cmd with
      | (none, _) =>
        tooComplex "redirected_statement with no inner command" "redirected_statement"
      | (some cmd, redirects) =>
        pushCommand { cmd with redirects := redirects, text := text }
        return scope
    | .command => do
      let (argv, envVars) ← walkCommandLoop scope [] [] children
      if argv.isEmpty then tooComplex "command with no argv" "command"
      else
        pushCommand ⟨argv, envVars, [], text⟩
        return scope
    | .declarationCommand => do
      let (argv, envVars, scope) ← walkDeclarationLoop scope [] [] children
      if argv.isEmpty then tooComplex "declaration_command with no argv" "declaration_command"
      else
        pushCommand ⟨argv, envVars, [], text⟩
        return scope
    | .negatedCommand => collectEach (fun kind => kind = .other "!") scope children
    | .variableAssignment => do
      let assign ← walkAssignmentLoop scope none none children
      return applyAssignmentToScope scope assign
    | .comment => return scope
    | other => tooComplex ("Disallowed node type `" ++ other.name ++ "`") other.name

/-- The loop over the children of a sequence; a separator may put the scope back. -/
def collectSequence (reset scope : VarScope) : List Node → Walker VarScope
  | [] => return scope
  | child :: rest =>
    if isSeparatorKind child.kind then
      collectSequence reset (if resetsScope child.kind then reset else scope) rest
    else do
      let scope ← collectCommands scope child
      collectSequence reset scope rest

/-- The loop over all children but the tokens to skip. -/
def collectEach (skip : Kind → Bool) (scope : VarScope) : List Node → Walker VarScope
  | [] => return scope
  | child :: rest =>
    if skip child.kind then collectEach skip scope rest
    else do
      let scope ← collectCommands scope child
      collectEach skip scope rest

/-- The loop over the children of a redirected statement. -/
def walkRedirectedLoop (scope : VarScope) (innerCmd : Option SimpleCommand)
    (redirects : List Redirect) :
    List Node → Walker ((Option SimpleCommand × List Redirect) × VarScope)
  | [] => return ((innerCmd, redirects), scope)
  | child :: rest =>
    if !child.named then walkRedirectedLoop scope innerCmd redirects rest
    else
      match child.kind with
      | .command =>
        if innerCmd.isSome then
          tooComplex "redirected_statement with multiple inner commands" "redirected_statement"
        else do
          let cmd ← walkCommand scope child
          walkRedirectedLoop scope (some cmd) redirects rest
      | .declarationCommand =>
        if innerCmd.isSome then
          tooComplex "redirected_statement with multiple inner commands" "redirected_statement"
        else do
          let (cmd, scope) ← walkDeclarationCommand scope child
          walkRedirectedLoop scope (some cmd) redirects rest
      | .fileRedirect => do
        let redirect ← parseFileRedirect child
        walkRedirectedLoop scope innerCmd (redirects ++ [redirect]) rest
      | .heredocRedirect | .herestringRedirect =>
        tooComplex ("Disallowed redirect type `" ++ child.kind.name ++ "`") child.kind.name
      | .comment => walkRedirectedLoop scope innerCmd redirects rest
      | other =>
        tooComplex ("Disallowed child of redirected_statement `" ++ other.name ++ "`") other.name

/-- A simple command; its leading assignments are in scope for its own words only. -/
def walkCommand (scope : VarScope) : Node → Walker SimpleCommand
  | .mk _ _ text children => do
    let (argv, envVars) ← walkCommandLoop scope [] [] children
    if argv.isEmpty then tooComplex "command with no argv" "command"
    else return ⟨argv, envVars, [], text⟩

/-- The loop over the children of a command; the scope is the one of this command. -/
def walkCommandLoop (localScope : VarScope) (argv : List Text) (envVars : List EnvAssignment) :
    List Node → Walker (List Text × List EnvAssignment)
  | [] => return (argv, envVars)
  | child :: rest =>
    if !child.named then walkCommandLoop localScope argv envVars rest
    else
      match child.kind with
      | .variableAssignment => do
        let assign ← walkVariableAssignment localScope child
        walkCommandLoop (applyAssignmentToScope localScope assign) argv (envVars ++ [assign]) rest
      | .commandName => do
        let args ← walkCommandName localScope child
        walkCommandLoop localScope (argv ++ args) envVars rest
      | .word | .string | .rawString | .number | .concatenation | .simpleExpansion => do
        let arg ← walkArgument localScope child
        walkCommandLoop localScope (argv ++ [arg]) envVars rest
      | .comment => walkCommandLoop localScope argv envVars rest
      | other => tooComplex ("Disallowed child of command `" ++ other.name ++ "`") other.name

/-- The word or words under a command name. -/
def walkCommandName (scope : VarScope) : Node → Walker (List Text)
  | .mk _ _ _ children => do
    let args ← walkArguments scope children
    if args.isEmpty then tooComplex "command_name with no inner word" "command_name"
    else return args

/-- The arguments of the named children. -/
def walkArguments (scope : VarScope) : List Node → Walker (List Text)
  | [] => return []
  | child :: rest =>
    if !child.named then walkArguments scope rest
    else do
      let arg ← walkArgument scope child
      let args ← walkArguments scope rest
      return arg :: args

/-- The name and the value of an assignment. -/
def walkVariableAssignment (scope : VarScope) : Node → Walker EnvAssignment
  | .mk _ _ _ children => walkAssignmentLoop scope none none children

/-- The loop over the children of an assignment. -/
def walkAssignmentLoop (scope : VarScope) (name value : Option Text) :
    List Node → Walker EnvAssignment
  | [] => finishAssignment name value
  | child :: rest =>
    match child.kind with
    | .variableName => walkAssignmentLoop scope (some child.text) value rest
    | .other "=" => walkAssignmentLoop scope name value rest
    | .word | .string | .rawString | .number | .concatenation => do
      let arg ← walkArgument scope child
      walkAssignmentLoop scope name (some arg) rest
    | .commandSubstitution => do
      collectCommandSubstitution scope child
      walkAssignmentLoop scope name (some cmdsubPlaceholder) rest
    | .simpleExpansion => do
      let v ← resolveSimpleExpansion child scope true
      walkAssignmentLoop scope name (some v) rest
    | .expansion | .processSubstitution | .arithmeticExpansion =>
      tooComplex ("Variable assignment value uses `" ++ child.kind.name ++ "`") child.kind.name
    | other =>
      if isPlainToken other then walkAssignmentLoop scope name value rest
      else
        tooComplex ("Variable assignment uses unsupported child `" ++ other.name ++ "`") other.name

/-- The text of one argument word. -/
def walkArgument (scope : VarScope) : Node → Walker Text
  | .mk kind named text children =>
    match kind with
    | .word | .number => return text
    | .rawString => return unquoteRawString text
    | .string => walkDoubleString scope [] false false children
    | .simpleExpansion =>
      resolveSimpleExpansion (.mk .simpleExpansion named text children) scope false
    | .concatenation => do
      let parts ← walkArguments scope children
      return parts.flatten
    | .commandSubstitution | .expansion | .processSubstitution | .arithmeticExpansion
    | .other "subshell" | .other "brace_expression" | .other "ansi_c_string"
    | .other "translated_string" => tooComplex ("Argument uses `" ++ kind.name ++ "`") kind.name
    | other => tooComplex ("Argument uses unsupported node `" ++ other.name ++ "`") other.name

/-- The loop over the children of a double-quoted string. -/
def walkDoubleString (scope : VarScope) (out : Text) (sawDynamic sawLiteral : Bool) :
    List Node → Walker Text
  | [] => finishDoubleString out sawDynamic sawLiteral
  | child :: rest =>
    match child.kind with
    | .other "\"" => walkDoubleString scope out sawDynamic sawLiteral rest
    | .stringContent =>
      walkDoubleString scope (out ++ unescapeDoubleQuoted child.text) sawDynamic true rest
    | .commandSubstitution => do
      collectCommandSubstitution scope child
      walkDoubleString scope (out ++ cmdsubPlaceholder) true sawLiteral rest
    | .simpleExpansion => do
      let v ← resolveSimpleExpansion child scope true
      if v = varPlaceholder then walkDoubleString scope (out ++ v) true sawLiteral rest
      else walkDoubleString scope (out ++ v) sawDynamic true rest
    | .expansion | .processSubstitution | .arithmeticExpansion =>
      tooComplex ("Double-quoted string uses `" ++ child.kind.name ++ "`") child.kind.name
    | _ => walkDoubleString scope (out ++ child.text) sawDynamic (sawLiteral || !child.text.isEmpty)
        rest

/-- The commands inside `$( )`; what they assign stays inside. -/
def collectCommandSubstitution (scope : VarScope) : Node → Walker Unit
  | .mk _ _ _ children => do
    let _ ← collectEach
      (fun kind => kind = .other "$(" || kind = .other "\x60" || kind = .other ")")
      scope children
    return ()

/-- `export` and its like, whose assignments stay in scope. -/
def walkDeclarationCommand (scope : VarScope) : Node → Walker (SimpleCommand × VarScope)
  | .mk _ _ text children => do
    let (argv, envVars, scope) ← walkDeclarationLoop scope [] [] children
    if argv.isEmpty then tooComplex "declaration_command with no argv" "declaration_command"
    else return (⟨argv, envVars, [], text⟩, scope)

/-- The loop over the children of a declaration. -/
def walkDeclarationLoop (scope : VarScope) (argv : List Text) (envVars : List EnvAssignment) :
    List Node → Walker (List Text × List EnvAssignment × VarScope)
  | [] => return (argv, envVars, scope)
  | child :: rest =>
    match child.kind with
    | .word | .number | .string | .rawString | .concatenation => do
      let arg ← walkArgument scope child
      walkDeclarationLoop scope (argv ++ [arg]) envVars rest
    | .variableAssignment => do
      let assign ← walkVariableAssignment scope child
      walkDeclarationLoop (applyAssignmentToScope scope assign)
        (argv ++ [assign.name ++ '=' :: assign.value]) (envVars ++ [assign]) rest
    | .comment => walkDeclarationLoop scope argv envVars rest
    | other =>
      if declarationBuiltins.contains other.name then
        walkDeclarationLoop scope (argv ++ [other.name.toList]) envVars rest
      else if isSkipUnnamed other then walkDeclarationLoop scope argv envVars rest
      else
        tooComplex ("Disallowed child of declaration_command `" ++ other.name ++ "`") other.name

end

end EasyNetDaemon.ShellGuard
