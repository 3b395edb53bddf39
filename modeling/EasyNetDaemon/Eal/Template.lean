import EasyNetDaemon.Library.Fallible
import EasyNetDaemon.Library.JsonValue
import EasyNetDaemon.Library.RustText

/-!
# Templates

The model of `daemon/execution/mission/executors/template.rs`: a text is cut at its placeholders
`\x7b\x7b name \x7d\x7d` (`cut`), and each of them is replaced by the argument it names
(`renderTemplate`). Nothing is escaped on the way, and what a placeholder is replaced by is not
looked at again.
-/

namespace EasyNetDaemon.Eal

open Library

/-- A piece of a template: a character, a placeholder with the text between its braces, or the text
after braces that are never closed. -/
inductive Piece
  | text (c : Char)
  | placeholder (body : List Char)
  | unclosed (body : List Char)
  deriving DecidableEq, Repr

/-- Cuts a template; inside a placeholder the first argument holds what was read of it. -/
def cut : Option (List Char) → List Char → List Piece
  | none, [] => []
  | none, '\x7b' :: '\x7b' :: rest => cut (some []) rest
  | none, c :: rest => .text c :: cut none rest
  | some body, [] => [.unclosed body]
  | some body, '\x7d' :: '\x7d' :: rest => .placeholder body :: cut none rest
  | some body, c :: rest => cut (some (body ++ [c])) rest

/-- Why a template is not rendered. -/
inductive TemplateError
  | argsNotObject (kind : String)
  | unclosed
  | emptyPlaceholder
  | noArgs (key : String)
  | missingArg (key : String) (provided : List String)
  deriving DecidableEq, Repr

/-- The name that a placeholder gives. -/
def placeholderKey (body : List Char) : String := String.ofList (RustText.trimChars body)

section Render

-- `serde_json::Value::to_string`
variable (toJsonText : Json → String)

/-- An argument as text; strings are not quoted. -/
def stringifyArg : Json → String
  | .string s => s
  | other => toJsonText other

/-- What a piece is replaced by. -/
def renderPiece (bindings : Option (List (String × Json))) :
    Piece → Except TemplateError (List Char)
  | .text c => .ok [c]
  | .unclosed _ => .error .unclosed
  | .placeholder body => do
    let key := placeholderKey body
    bailIf (key == "") .emptyPlaceholder
    match bindings with
    | none => .error (.noArgs key)
    | some fields =>
      match fields.lookup key with
      | none => .error (.missingArg key (fields.map Prod.fst))
      | some value => .ok (stringifyArg toJsonText value).toList

/-- The pieces one after the other, up to the first that cannot be replaced. -/
def renderWithBindings (bindings : Option (List (String × Json))) :
    List Piece → Except TemplateError (List Char)
  | [] => .ok []
  | piece :: rest => do
    let text ← renderPiece toJsonText bindings piece
    let out ← renderWithBindings bindings rest
    return text ++ out

/-- How messages call a value that is no object. -/
def shortKind : Json → String
  | .null => "null"
  | .bool _ => "bool"
  | .int _ => "number"
  | .decimal _ => "number"
  | .string _ => "string"
  | .array _ => "array"
  | .object _ => "object"

/-- Renders a template. -/
def renderTemplate (template : String) (args : Json) : Except TemplateError String := do
  let bindings ←
    match args with
    | .object fields => .ok (some fields)
    | .null => .ok none
    | other => .error (.argsNotObject (shortKind other))
  let out ← renderWithBindings toJsonText bindings (cut none template.toList)
  return String.ofList out

end Render

/-! ## The pieces of a text -/

/-- The text that a piece was cut from. -/
def Piece.source : Piece → List Char
  | .text c => [c]
  | .placeholder body => ['\x7b', '\x7b'] ++ body ++ ['\x7d', '\x7d']
  | .unclosed body => ['\x7b', '\x7b'] ++ body

/-- `rest.find`: the text before the first two closing braces, and the text after them. -/
def splitClose : List Char → Option (List Char × List Char)
  | [] => none
  | '\x7d' :: '\x7d' :: rest => some ([], rest)
  | c :: rest => (splitClose rest).map fun p => (c :: p.1, p.2)

/-- Inside a placeholder the text is searched for its end. -/
theorem cut_some_eq (body cs : List Char) :
    cut (some body) cs =
      match splitClose cs with
      | none => [.unclosed (body ++ cs)]
      | some (front, after) => .placeholder (body ++ front) :: cut none after := by
  fun_induction splitClose cs generalizing body with
  | case1 => simp [cut]
  | case2 rest => simp [cut]
  | case3 c rest hopen ih =>
    rw [cut.eq_6 body c rest hopen, ih]
    cases splitClose rest with
    | none => simp
    | some p => simp

theorem eq_of_splitClose {cs front after : List Char} (h : splitClose cs = some (front, after)) :
    cs = front ++ '\x7d' :: '\x7d' :: after := by
  fun_induction splitClose cs generalizing front with
  | case1 => cases h
  | case2 rest =>
    cases h
    rfl
  | case3 c rest hopen ih =>
    obtain ⟨⟨front', after'⟩, hp, h⟩ := Option.map_eq_some_iff.1 h
    cases h
    rw [ih hp]
    rfl

/-- A text is what its pieces were cut from. -/
theorem source_cut (mode : Option (List Char)) (cs : List Char) :
    (cut mode cs).flatMap Piece.source =
      (match mode with
        | none => []
        | some body => ['\x7b', '\x7b'] ++ body) ++ cs := by
  fun_induction cut mode cs with
  | case1 => rfl
  | case2 rest ih => rw [ih]; rfl
  | case3 c rest hopen ih =>
    rw [List.flatMap_cons, ih]
    rfl
  | case4 body => simp [Piece.source]
  | case5 body rest ih =>
    rw [List.flatMap_cons, ih]
    simp [Piece.source]
  | case6 body c rest hopen ih =>
    rw [ih]
    simp

end EasyNetDaemon.Eal
