import EasyNetDaemon.Files.ResourceRef

/-!
# The filesystem abilities

The model of `fs.read`, and of what `fs.write` and `fs.edit` check and compute for the file they are
to replace. `fs.read` is a function of the tree, and what it returns is computed by a function of
the file (`readReply`). Arguments are typed.
-/

namespace EasyNetDaemon.Files

open Library

/-- The profile of the file abilities. -/
def profileVersion : String := "baseline-locomotion-v1"

/-- The metadata that the abilities read or set. -/
structure FileAttributes where
  mode : Nat
  mtimeMs : Option Nat
  deriving DecidableEq, Repr

/-- What the handlers are given around them. -/
structure FilesEnv where
  plane : ResourcePlane
  base64Encode : List UInt8 → String
  sha256Hex : List UInt8 → String

/-- The bytes of a text. -/
def utf8Bytes (s : String) : List UInt8 := s.toList.flatMap String.utf8EncodeChar

/-- The text of bytes, if they are UTF-8. -/
def fromUtf8 (bytes : List UInt8) : Option String := String.fromUTF8? ⟨bytes.toArray⟩

section Reading

variable (env : FilesEnv) (t : FileTree FileAttributes)

/-! ## fs.read -/

/-- How much `fs.read` reads by default. -/
def defaultReadMaxBytes : Nat := 8 * 1024 * 1024

/-- How much `fs.read` may be asked for. -/
def readMaxBytesHardCap : Nat := 100 * 1024 * 1024

/-- Devices that are not read. -/
def blockedReadPaths : List String :=
  ["/dev/zero", "/dev/random", "/dev/urandom", "/dev/stdin", "/dev/stdout", "/dev/tty",
    "/proc/self/fd/0", "/proc/self/fd/1", "/proc/self/fd/2"]

/-- The path, or what it leads to, is such a device. -/
def isBlockedReadPath (path : PathText) : Bool :=
  blockedReadPaths.contains path.text ||
    match resolve env.plane.scope t path with
    | .ok canonical => blockedReadPaths.contains (PathText.text ⟨true, canonical⟩)
    | .error _ => false

/-- The arguments of `fs.read`. -/
structure ReadArgs where
  resourceRef : RefArg
  maxBytes : Option Nat := none
  encoding : Option String := none
  offsetLines : Option Nat := none
  limitLines : Option Nat := none

/-- The answer of `fs.read`. -/
structure ReadReply where
  content : String
  size : Nat
  truncated : Bool
  contentSha256 : String
  mtimeMs : Option Nat
  abilityProfileVersion : String := profileVersion
  deriving DecidableEq

/-- The lines with their line feeds. -/
def splitInclusive : List Char → List (List Char)
  | [] => []
  | c :: rest =>
    if c = '\n' then [c] :: splitInclusive rest
    else
      match splitInclusive rest with
      | [] => [[c]]
      | line :: lines => (c :: line) :: lines

/-- The lines from `offsetLines` on. -/
def sliceLines (text : String) (offsetLines : Nat) (limitLines : Option Nat) : String :=
  if offsetLines = 0 then ""
  else
    let lines := (splitInclusive text.toList).drop (offsetLines - 1)
    String.ofList ((limitLines.elim lines fun limit => lines.take limit).flatten)

/-- What is returned of a file: at most `max_bytes` of it, as text or in base64. -/
def readReply (args : ReadArgs) (pathLabel : String) (attributes : FileAttributes)
    (bytes : List UInt8) : Except String ReadReply := do
  let maxBytes := args.maxBytes.getD defaultReadMaxBytes
  let captured := bytes.take (maxBytes + 1)
  let truncated := decide (captured.length > maxBytes)
  let content := if truncated then captured.take maxBytes else captured
  let body ← if args.encoding.getD "binary" = "utf8" then
      match fromUtf8 content with
      | none => .error ("fs.read: file at " ++ debugText pathLabel ++
          " is not valid UTF-8; use encoding=\"binary\"")
      | some text =>
        if args.offsetLines.isSome || args.limitLines.isSome then
          .ok (sliceLines text (args.offsetLines.getD 1) args.limitLines)
        else .ok text
    else .ok (env.base64Encode content)
  .ok { content := body, size := bytes.length, truncated,
        contentSha256 := env.sha256Hex content, mtimeMs := attributes.mtimeMs }

/-- `fs.read`. -/
def handlerRead (args : ReadArgs) : Except String ReadReply := do
  let maxBytes := args.maxBytes.getD defaultReadMaxBytes
  bailIf (maxBytes > readMaxBytesHardCap)
    s!"fs.read: max_bytes {maxBytes} exceeds hard cap {readMaxBytesHardCap}"
  let encoding := args.encoding.getD "binary"
  bailIf (encoding ≠ "binary" && encoding ≠ "utf8")
    ("fs.read: unknown encoding " ++ debugText encoding ++ "; expected \"binary\" or \"utf8\"")
  bailIf ((args.offsetLines.isSome || args.limitLines.isSome) && encoding ≠ "utf8")
    "fs.read: offset_lines/limit_lines require encoding=\"utf8\""
  let resolved ← resolveFilesystemPath env.plane t args.resourceRef .read
  let path := resolved.localPath
  bailIf (isBlockedReadPath env t path)
    ("fs.read: " ++ debugText resolved.displayPath ++ " is on the blocked-device path list")
  let loc ← (resolve env.plane.scope t path).mapError fun e =>
    "fs.read: stat " ++ debugText resolved.displayPath ++ ": " ++ e.text
  match t.entry loc with
  | some (.file attributes bytes) => readReply env args resolved.displayPath attributes bytes
  | some _ =>
    .error ("fs.read: read " ++ debugText path.text ++ ": " ++ PosixError.isDirectory.text)
  | none => .error ("fs.read: stat " ++ debugText resolved.displayPath ++ ": " ++
      PosixError.notFound.text)

end Reading

/-! ## fs.write -/

/-- The mtime check of `fs.write`. -/
def checkExpectedMtime (expected : Option Nat) (existing : Option FileAttributes) :
    Except String Unit :=
  match expected with
  | none => .ok ()
  | some expected =>
    match existing with
    | some attributes =>
      bailIf (attributes.mtimeMs ≠ some expected) ("fs.write: expected_mtime_ms " ++
        toString expected ++ " != actual " ++ toString attributes.mtimeMs ++
        " (file modified since the caller's last read; refuse rather " ++
        "than clobber concurrent edits)")
    | none => .error "fs.write: expected_mtime_ms set but file does not exist"

/-! ## fs.edit -/

/-- The largest file `fs.edit` takes. -/
def maxEditFileSize : Nat := 1024 * 1024 * 1024

/-- The detail of a rejection. -/
inductive RejectionDetail
  | none
  | staleMtime (expected : Nat) (actual : Option Nat)
  | notFound (searchPreview : String) (searchBytes : Nat)
  | ambiguous (matchCount : Nat) (searchPreview : String)
  deriving DecidableEq

/-- The answer of `fs.edit`. -/
inductive EditReply
  | rejected (code message displayPath : String) (detail : RejectionDetail)
  | created (bytesWritten : Nat) (contentSha256 displayPath : String)
  | edited (matchesReplaced bytesWritten : Nat) (contentSha256 displayPath : String)
  deriving DecidableEq

/-- Replaces the first matches of a text that is not empty, at most `limit` of them, and counts
them. -/
def replaceMatches (needle new : List Char) : Nat → Nat → List Char → List Char × Nat
  | 0, _, rest => (rest, 0)
  | _, 0, rest => (rest, 0)
  | _, _, [] => ([], 0)
  | fuel + 1, limit + 1, c :: rest =>
    if needle.isPrefixOf (c :: rest) then
      let (out, n) := replaceMatches needle new fuel limit ((c :: rest).drop needle.length)
      (new ++ out, n + 1)
    else
      let (out, n) := replaceMatches needle new fuel (limit + 1) rest
      (c :: out, n)

/-- Replaces the first `limit` matches. -/
def replaceUpTo (limit : Nat) (text old new : String) : String × Nat :=
  let (out, n) := replaceMatches old.toList new.toList (text.length + 1) limit text.toList
  (String.ofList out, n)

/-- How often the text occurs. -/
def countOccurrences (haystack needle : String) : Nat :=
  if needle = "" then 0 else (replaceUpTo (haystack.length + 1) haystack needle "").2

/-- The longest text whose bytes fit. -/
def takeBytes : Nat → List Char → List Char
  | _, [] => []
  | cap, c :: rest => if c.utf8Size ≤ cap then c :: takeBytes (cap - c.utf8Size) rest else []

/-- The beginning of a text. -/
def preview (s : String) (cap : Nat) : String :=
  if RustText.byteLen s.toList ≤ cap then s else String.ofList (takeBytes cap s.toList) ++ "…"

/-- What `fs.edit` writes, or the reply with which it stops before. -/
inductive EditPlan
  | stop (reply : EditReply)
  | create (content : List UInt8)
  | replace (matchesReplaced : Nat) (content : List UInt8)

/-- The mtime check of `fs.edit`. -/
def staleMtime (expected : Option Nat)
    (stat : Except PosixError (FileAttributes × Option (List UInt8)))
    (pathLabel : String) : Option EditReply :=
  match expected with
  | none => none
  | some expected =>
    match stat with
    | .ok (attributes, _) =>
      if attributes.mtimeMs = some expected then none
      else
        some (.rejected "StaleMtime" ("expected_mtime_ms does not match file's current mtime; " ++
          "refuse rather than clobber concurrent edits") pathLabel
          (.staleMtime expected attributes.mtimeMs))
    | .error _ => some (.rejected "StaleMtime" "expected_mtime_ms set but file does not exist"
        pathLabel .none)

end EasyNetDaemon.Files
