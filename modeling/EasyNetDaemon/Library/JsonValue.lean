import EasyNetDaemon.Library.KeyedList

/-!
# JSON values

A JSON value as a program handles it after parsing. An object is the list of its fields, in the
order in which the program's map goes over them; numbers are integers or the text of a decimal.
-/

namespace EasyNetDaemon.Library

/-- A JSON value. -/
inductive Json
  | null
  | bool (b : Bool)
  | int (n : Int)
  | decimal (text : String)
  | string (s : String)
  | array (items : List Json)
  | object (fields : List (String × Json))

namespace Json

/-- The fields of an object. -/
def asObject : Json → Option (List (String × Json))
  | .object fields => some fields
  | _ => none

/-- The text of a string. -/
def asStr : Json → Option String
  | .string s => some s
  | _ => none

end Json

end EasyNetDaemon.Library
