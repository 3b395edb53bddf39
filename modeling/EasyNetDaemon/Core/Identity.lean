import EasyNetDaemon.Library.Fallible
import EasyNetDaemon.Library.RustText

/-!
# Runtime identities

The model of `core/identity`: the all-zero placeholder that no runtime identity may contain, and
the parsing of a runtime identity URA. The URA grammar belongs to the Axon SDK; its parser is the
parameter `parseUra`, of which this code reads the kind, the realm and the user id.
-/

namespace EasyNetDaemon.Core

open Library

/-- The kind of a URA. -/
inductive UraKind
  | authority
  | device
  | user
  | service
  | agent
  | ability
  | resource
  | unknown
  deriving DecidableEq, Repr

/-- What the daemon reads of a parsed URA. -/
structure Ura where
  kind : UraKind
  realm : String
  userId : Option String
  deriving DecidableEq, Repr

/-- The placeholder of an identity. -/
def allZeroPrincipalId : String := "00000000-0000-0000-0000-000000000000"

/-- `str::to_ascii_lowercase` after trimming. -/
def trimmedLowercase (value : String) : List Char :=
  (RustText.trimChars value.toList).map Char.toLower

/-- The value is the placeholder, up to surrounding white space and case. -/
def isAllZeroPrincipalId (value : String) : Bool :=
  trimmedLowercase value = allZeroPrincipalId.toList

/-- The value contains the placeholder. -/
def containsAllZeroPrincipalPlaceholder (value : String) : Bool :=
  (trimmedLowercase value).tails.any fun tail => allZeroPrincipalId.toList.isPrefixOf tail

/-- An admissible runtime identity. -/
structure RuntimeIdentityUra where
  ura : String
  kind : UraKind
  realm : String
  deriving DecidableEq, Repr

/-- `RuntimeIdentityUra::parse`, with the texts of its errors. -/
def RuntimeIdentityUra.parse (parseUra : String → Except String Ura) (value : String) :
    Except String RuntimeIdentityUra := do
  let value := RustText.trim value
  bailIf (value.isEmpty) "must not be empty"
  bailIf (containsAllZeroPrincipalPlaceholder value)
    "must not contain the all-zero principal placeholder"
  match parseUra value with
  | .error error => .error ("is not a valid URA: " ++ error)
  | .ok parsed => .ok ⟨value, parsed.kind, parsed.realm⟩

/-- A session id of ASCII letters, digits, dashes and dots. -/
def isCanonicalSessionAuthorityId (value : String) : Bool :=
  let value := RustText.trimChars value.toList
  !value.isEmpty && value.all fun ch =>
    ch.isAlphanum || ch = '-' || ch = '.'

end EasyNetDaemon.Core
