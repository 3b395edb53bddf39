import Mathlib.Data.List.Basic

/-!
# What the shell guard knows of a command line

The guard reads a bash command line into a flat list of simple commands, each with its argument
words, its leading assignments and its redirects. The later stages look only at these. A text is its
list of characters, which is what the offsets of the detectors are about.
-/

namespace EasyNetDaemon.ShellGuard

/-- A Rust `String` of the guard, as its characters. -/
abbrev Text := List Char

/-- A redirect operator and its target word. -/
structure Redirect where
  op : Text
  target : Text
  fd : Option Nat
  deriving DecidableEq, Repr

/-- One leading `NAME=value` assignment of a simple command. -/
structure EnvAssignment where
  name : Text
  value : Text
  deriving DecidableEq, Repr

/-- A leaf command: command name and arguments, leading assignments, redirects and source text. -/
structure SimpleCommand where
  argv : List Text
  envVars : List EnvAssignment
  redirects : List Redirect
  text : Text
  deriving DecidableEq, Repr

/-! ## Syntax trees -/

/-- The kind of a syntax node. The kinds that the walker knows by name are constructors; all other
node types and the tokens of the grammar are `other`. -/
inductive Kind
  | program
  | list
  | pipeline
  | redirectedStatement
  | command
  | declarationCommand
  | negatedCommand
  | variableAssignment
  | comment
  | commandName
  | word
  | string
  | rawString
  | number
  | concatenation
  | simpleExpansion
  | commandSubstitution
  | expansion
  | processSubstitution
  | arithmeticExpansion
  | stringContent
  | variableName
  | specialVariableName
  | fileRedirect
  | heredocRedirect
  | herestringRedirect
  | fileDescriptor
  | other (name : String)
  deriving DecidableEq, Repr

/-- The name that the grammar gives to the kind. -/
def Kind.name : Kind → String
  | .program => "program"
  | .list => "list"
  | .pipeline => "pipeline"
  | .redirectedStatement => "redirected_statement"
  | .command => "command"
  | .declarationCommand => "declaration_command"
  | .negatedCommand => "negated_command"
  | .variableAssignment => "variable_assignment"
  | .comment => "comment"
  | .commandName => "command_name"
  | .word => "word"
  | .string => "string"
  | .rawString => "raw_string"
  | .number => "number"
  | .concatenation => "concatenation"
  | .simpleExpansion => "simple_expansion"
  | .commandSubstitution => "command_substitution"
  | .expansion => "expansion"
  | .processSubstitution => "process_substitution"
  | .arithmeticExpansion => "arithmetic_expansion"
  | .stringContent => "string_content"
  | .variableName => "variable_name"
  | .specialVariableName => "special_variable_name"
  | .fileRedirect => "file_redirect"
  | .heredocRedirect => "heredoc_redirect"
  | .herestringRedirect => "herestring_redirect"
  | .fileDescriptor => "file_descriptor"
  | .other name => name

/-- A node of the syntax tree, with the source text it covers. -/
inductive Node
  | mk (kind : Kind) (named : Bool) (text : Text) (children : List Node)

namespace Node

/-- The kind of a node. -/
def kind : Node → Kind
  | .mk kind _ _ _ => kind

/-- Whether a node is named. -/
def named : Node → Bool
  | .mk _ named _ _ => named

/-- `node_text`. -/
def text : Node → Text
  | .mk _ _ text _ => text

/-- The children of a node. -/
def children : Node → List Node
  | .mk _ _ _ children => children

end Node

/-- The line is too complex: the reason, and the type of the node that is to blame. -/
structure TooComplex where
  reason : String
  nodeType : String
  deriving DecidableEq, Repr

end EasyNetDaemon.ShellGuard
