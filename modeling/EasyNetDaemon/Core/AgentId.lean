import EasyNetDaemon.Library.Fallible

/-!
# Agent ids and ability names

The logical identity of an agent is a pair of a tenant and a name; a method of an agent is named by
an ability name. Both are made by parsing a text, which refuses everything outside a small set of
characters (`AgentId.parse`, `AbilityName.parse`).
-/

namespace EasyNetDaemon.Core

open Library

/-- Why a text is no agent id or ability name. -/
inductive AgentIdError
  | empty
  | emptySegment (which : String)
  | segmentTooLong (which : String) (len max : Nat)
  | invalidChar (which : String) (ch : Char)
  | uppercaseRejected (which : String)
  | reservedV2 (feature : String)
  | wrongLayer
  deriving DecidableEq, Repr

/-- The text of an error. -/
def AgentIdError.text : AgentIdError → String
  | .empty => "agent id is empty"
  | .emptySegment which => "agent id " ++ which ++ " segment is empty"
  | .segmentTooLong which len max =>
    "agent id " ++ which ++ " segment is " ++ toString len ++ " chars (max " ++ toString max ++ ")"
  | .invalidChar which ch =>
    "agent id " ++ which ++ " segment contains invalid character '" ++ ch.toString ++
      "' (allowed: [a-z0-9_-])"
  | .uppercaseRejected which =>
    "agent id " ++ which ++ " segment contains uppercase letters; use lowercase only " ++
      "(allowed: [a-z0-9_-])"
  | .reservedV2 feature =>
    "agent id uses " ++ feature ++ ", which is reserved for a future version of the identity " ++
      "model and is not accepted by v1"
  | .wrongLayer =>
    "agent id looks like a URA; URA addressing belongs to the URA L3 layer " ++
      "(../URA/README.md), not to AgentId"

/-- The longest segment. -/
def maxSegmentLen : Nat := 63

/-- The tenant of a shorthand id. -/
def defaultTenant : String := "default"

/-- Looks at the characters of a segment, in order. -/
def checkSegmentChars (allowed : Char → Bool) (which : String) :
    List Char → Except AgentIdError Unit
  | [] => .ok ()
  | ch :: rest => do
    bailIf ch.isUpper (.uppercaseRejected which)
    bailIf (!(ch.isLower || ch.isDigit || allowed ch)) (.invalidChar which ch)
    checkSegmentChars allowed which rest

/-- The check of one segment, with the punctuation that it may hold. -/
def validateSegmentWith (allowed : Char → Bool) (s which : String) : Except AgentIdError Unit := do
  bailIf s.isEmpty (.emptySegment which)
  bailIf (maxSegmentLen < s.length) (.segmentTooLong which s.length maxSegmentLen)
  checkSegmentChars allowed which s.toList

/-- A tenant or a name: `[a-z0-9_-]`. -/
def validateSegment (s which : String) : Except AgentIdError Unit :=
  validateSegmentWith (fun ch => ch == '_' || ch == '-') s which

/-- An ability: `[a-z0-9_.-]`. -/
def validateAbilitySegment (s : String) : Except AgentIdError Unit :=
  validateSegmentWith (fun ch => ch == '_' || ch == '-' || ch == '.') s "ability"

/-- The logical identity of an agent. -/
structure AgentId where
  tenant : String
  name : String
  deriving DecidableEq, Repr

/-- The tenant and the name of a surface form. -/
def AgentId.segments (s : String) : Except AgentIdError (String × String) :=
  match (s.toList.splitOn '/').map String.ofList with
  | [name] => .ok (defaultTenant, name)
  | [tenant, name] => .ok (tenant, name)
  | _ => .error (.reservedV2 "multi-level namespace (`a/b/c`)")

/-- Parses `name` or `tenant/name`. -/
def AgentId.parse (s : String) : Except AgentIdError AgentId := do
  bailIf (s.toList.contains '#') (.reservedV2 "instance id (`#<id>`)")
  bailIf (s.toList.tails.any ("://".toList.isPrefixOf ·)) .wrongLayer
  bailIf s.isEmpty .empty
  let (tenant, name) ← AgentId.segments s
  validateSegment tenant "tenant"
  validateSegment name "name"
  return { tenant, name }

/-- A method name on an agent. -/
structure AbilityName where
  text : String
  deriving DecidableEq, Repr

/-- Parses the name of an ability. -/
def AbilityName.parse (s : String) : Except AgentIdError AbilityName := do
  validateAbilitySegment s
  return { text := s }

end EasyNetDaemon.Core
