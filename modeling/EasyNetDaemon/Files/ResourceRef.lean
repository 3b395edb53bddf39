import EasyNetDaemon.Core.Identity
import EasyNetDaemon.Library.PosixPath

/-!
# Filesystem resource references

The model of `daemon/resources/files`: the checks of a `resource_ref`, its mapping to a path below a
virtual root, and the containment check for a path that exists (`ensurePathUnderRoot`). URAs are
parsed by the Axon SDK; the parser is a parameter.
-/

namespace EasyNetDaemon.Files

open Library EasyNetDaemon.Core

/-! ## References -/

/-- The namespace of files. -/
def resourceNamespaceFs : String := "fs"

/-- The root of the working directory. -/
def virtualRootWorkspace : String := "workspace"

/-- The root of temporary files. -/
def virtualRootTmp : String := "tmp"

/-- The root of the home directory. -/
def virtualRootHome : String := "home"

/-- The revision of the mapping. -/
def localResourceRefRevision : String := "fs-local-mapping-v1"

/-- What a reference allows. -/
inductive FilesystemResourceCapability
  | list
  | stat
  | read
  | write
  deriving DecidableEq, Repr

namespace FilesystemResourceCapability

/-- The name of a capability. -/
def asStr : FilesystemResourceCapability → String
  | .list => "list"
  | .stat => "stat"
  | .read => "read"
  | .write => "write"

/-- A capability includes weaker ones. -/
def permits (self requested : FilesystemResourceCapability) : Bool :=
  self = requested ||
    match self, requested with
    | .write, .read | .write, .stat | .read, .stat | .list, .stat => true
    | _, _ => false

end FilesystemResourceCapability

/-- A reference to a file. -/
structure FilesystemResourceRef where
  resourceUra : String
  ownerUra : String
  resourceNamespace : String
  displayPath : String := ""
  capability : FilesystemResourceCapability
  expiresUnixMs : Int
  revision : String
  deriving DecidableEq

/-- The `resource_ref` field of the arguments. -/
inductive RefArg
  | missing
  | malformed (detail : String)
  | given (reference : FilesystemResourceRef)

/-- What is read of a parsed resource URA. -/
structure ResourceUra where
  kind : UraKind
  realm : String
  resourceOwnerId : Option String
  resourcePath : Option String

/-- What a resource URA names. -/
structure FilesystemResourceParts where
  ownerUra : String
  virtualRoot : String
  relativePath : String

/-- Where a reference leads. -/
structure ResolvedFilesystemPath where
  localPath : PathText
  displayPath : String
  virtualRootPath : Option PathText

/-- What the resource plane is given: the URA functions of the SDK, the provider's Device, and what
the process finds around it. -/
structure ResourcePlane where
  parseUra : String → Except String ResourceUra
  deviceUra : String → String → String
  uraKindText : UraKind → String
  ownerUra : String
  nowUnixMs : Int
  scope : PathScope
  currentDir : Option PathText
  tempDir : PathText
  homeDir : PathText

/-- `{:?}` of a text without characters to escape. -/
def debugText (s : String) : String := "\"" ++ s ++ "\""

/-! ## The resource URA -/

/-- The segments of a path. -/
def segmentsOf (path : String) : List String :=
  (path.toList.splitOn '/').map String.ofList

/-- `strip_prefix` with the owner prefix of a Device. -/
def stripDevicePrefix (ownerId : String) : Option String :=
  if "device.".toList.isPrefixOf ownerId.toList then some (String.ofList (ownerId.toList.drop 7))
  else none

/-- A path such as `C:`. -/
def looksLikeWindowsDrive (path : String) : Bool :=
  match path.toList with
  | c :: ':' :: _ => c.isAlpha
  | _ => false

/-- A root label is not blank and plain. -/
def validateVirtualRootLabel (virtualRoot : String) : Except String Unit := do
  bailIf (RustText.isBlank virtualRoot) "resource_ref: virtual root must not be empty"
  bailIf (virtualRoot.toList.any fun c => !(c.isAlphanum || c = '-' || c = '_'))
    ("resource_ref: virtual root " ++ debugText virtualRoot ++ " is outside allowed label syntax")

/-- A relative path stays below its root. -/
def validateRelativePath (relativePath : String) : Except String Unit := do
  bailIf (RustText.isBlank relativePath) "resource_ref: relative path must not be empty"
  bailIf (relativePath.toList.head? = some '/' || relativePath.toList.contains '\\' ||
      looksLikeWindowsDrive relativePath)
    ("resource_ref: relative path " ++ debugText relativePath ++ " must not be a raw host path")
  bailIf ((segmentsOf relativePath).any fun segment =>
      segment = "" || segment = "." || segment = "..")
    ("resource_ref: relative path " ++ debugText relativePath ++ " contains traversal")

section Resolution

variable (plane : ResourcePlane)

/-- The parts of a resource URA. -/
def parseFilesystemResourceUra (resourceUra : String) :
    Except String FilesystemResourceParts := do
  let parsed ← (plane.parseUra resourceUra).mapError fun e =>
    "resource_ref: invalid resource_ura " ++ debugText resourceUra ++ ": " ++ e
  bailIf (parsed.kind ≠ .resource)
    ("resource_ref: resource_ura must be a Resource URA, got " ++ plane.uraKindText parsed.kind)
  let ownerId ← parsed.resourceOwnerId.elim (.error "resource_ref: resource owner missing") .ok
  let deviceId ← (stripDevicePrefix ownerId).elim
    (.error "resource_ref: resource owner must be device.<device-id>") .ok
  match (segmentsOf (parsed.resourcePath.getD "")).filter fun segment => segment ≠ "" with
  | [] => .error "resource_ref: resource path missing namespace"
  | name :: rest =>
    bailIf (name ≠ resourceNamespaceFs)
      ("resource_ref: resource namespace " ++ debugText name ++ " is not fs")
    match rest with
    | [] => .error "resource_ref: fs resource path missing virtual root"
    | virtualRoot :: segments =>
      validateVirtualRootLabel virtualRoot
      let relativePath := "/".intercalate segments
      validateRelativePath relativePath
      .ok ⟨plane.deviceUra parsed.realm deviceId, virtualRoot, relativePath⟩

/-- The directory of a virtual root. -/
def virtualRootPath (virtualRoot : String) : Option PathText :=
  if virtualRoot = virtualRootWorkspace then plane.currentDir
  else if virtualRoot = virtualRootTmp then some plane.tempDir
  else if virtualRoot = virtualRootHome then some plane.homeDir
  else none

end Resolution

/-! ## Containment -/

section Containment

variable {A : Type} (scope : PathScope) (t : FileTree A)

/-- A resolved path in a message. -/
def canonicalText (r : RealPath) : String := debugText (PathText.text ⟨true, r⟩)

/-- A path that exists lies below the root. -/
def ensurePathUnderRoot (path root : PathText) : Except String Unit := do
  let canonicalRoot ← (resolve scope t root).mapError fun e =>
    "resource_ref: virtual root mapping " ++ debugText root.text ++ " unavailable: " ++ e.text
  let canonicalPath ← (resolve scope t path).mapError fun e =>
    "resource_ref: path " ++ debugText path.text ++ " cannot be canonicalized: " ++ e.text
  bailIf (!canonicalRoot.isPrefixOf canonicalPath)
    ("resource_ref: path " ++ canonicalText canonicalPath ++ " escapes virtual root " ++
      canonicalText canonicalRoot)

end Containment

/-! ## Resolving a reference -/

section Resolution

variable {A : Type} (plane : ResourcePlane) (t : FileTree A)

/-- The path of a reference. -/
def resolveResourceRef (reference : FilesystemResourceRef)
    (requestedCapability : FilesystemResourceCapability) (canonicalizeExistingTarget : Bool) :
    Except String ResolvedFilesystemPath := do
  bailIf (reference.resourceNamespace ≠ resourceNamespaceFs)
    ("resource_ref: namespace " ++ debugText reference.resourceNamespace ++ " is not fs")
  bailIf (reference.revision ≠ localResourceRefRevision)
    ("resource_ref: revision mismatch, expected " ++ localResourceRefRevision ++ " got " ++
      reference.revision)
  bailIf (!reference.capability.permits requestedCapability)
    ("resource_ref: capability " ++ reference.capability.asStr ++ " does not permit " ++
      requestedCapability.asStr)
  bailIf (reference.expiresUnixMs ≤ plane.nowUnixMs)
    ("resource_ref: expired at " ++ toString reference.expiresUnixMs ++ ", now " ++
      toString plane.nowUnixMs)
  let parts ← parseFilesystemResourceUra plane reference.resourceUra
  bailIf (parts.ownerUra ≠ reference.ownerUra)
    ("resource_ref: owner mismatch, resource_ura owner " ++ parts.ownerUra ++ " but ref owner " ++
      reference.ownerUra)
  bailIf (reference.ownerUra ≠ plane.ownerUra)
    ("resource_ref: owner " ++ reference.ownerUra ++ " is not this daemon's local Device " ++
      plane.ownerUra ++ "; filesystem ResourceRefs are daemon-local and must be materialized " ++
      "on the target Device before use")
  let root ← (virtualRootPath plane parts.virtualRoot).elim
    (.error ("resource_ref: virtual root " ++ parts.virtualRoot ++ " has no local mapping")) .ok
  let localPath := root.join (.ofString parts.relativePath)
  let displayPath := if RustText.isBlank reference.displayPath then
      parts.virtualRoot ++ "/" ++ parts.relativePath
    else reference.displayPath
  if canonicalizeExistingTarget then
    ensurePathUnderRoot plane.scope t localPath root
    let canonical ← (resolve plane.scope t localPath).mapError fun e =>
      "resource_ref: path " ++ debugText localPath.text ++ " cannot be canonicalized: " ++ e.text
    .ok ⟨⟨true, canonical⟩, displayPath, some root⟩
  else .ok ⟨localPath, displayPath, some root⟩

/-- A write target is never canonicalized. -/
def resolveFilesystemPathForOwner (resourceRef : RefArg)
    (requestedCapability : FilesystemResourceCapability) (canonicalizeExistingTarget : Bool) :
    Except String ResolvedFilesystemPath :=
  match resourceRef with
  | .missing => .error "resource_ref: missing required object"
  | .malformed detail => .error ("resource_ref: invalid shape: " ++ detail)
  | .given reference => resolveResourceRef plane t reference requestedCapability
      (canonicalizeExistingTarget && requestedCapability ≠ .write)

/-- The path of an argument. -/
def resolveFilesystemPath (resourceRef : RefArg) (requested : FilesystemResourceCapability) :
    Except String ResolvedFilesystemPath :=
  resolveFilesystemPathForOwner plane t resourceRef requested true

end Resolution

end EasyNetDaemon.Files
