import Mathlib.Data.List.DropRight

/-!
# Paths and symbolic links

A file tree gives an entry to each location, a location being the list of names from the root. A
path is a text: an absolute or relative list of pieces between slashes. Resolving a path walks
through its pieces from a directory; a symbolic link puts its target's pieces in front of the rest,
and a bound on the links that one resolution follows keeps it finite (`walk`).
-/

namespace EasyNetDaemon.Library

/-- The location of an entry: the names from the root. -/
abbrev RealPath := List String

/-- A path as text, cut at the slashes. -/
structure PathText where
  absolute : Bool
  pieces : List String
  deriving DecidableEq

namespace PathText

/-- A piece that stays in the directory: two slashes in a row, a slash at the end, or a dot. -/
def isStay (piece : String) : Bool := piece = "" || piece = "."

/-- A piece that names an entry. -/
def isPlain (piece : String) : Bool := !isStay piece && piece != ".."

/-- The path of a text. -/
def ofString (s : String) : PathText :=
  let pieces := (s.toList.splitOn '/').map String.ofList
  if s.toList.head? = some '/' then ⟨true, pieces.tail⟩ else ⟨false, pieces⟩

/-- The text of a path. -/
def text (p : PathText) : String :=
  (if p.absolute then "/" else "") ++ "/".intercalate p.pieces

/-- `Path::join`. -/
def join (p q : PathText) : PathText := if q.absolute then q else ⟨p.absolute, p.pieces ++ q.pieces⟩

end PathText

/-! ## File trees -/

/-- An entry with its attributes. -/
inductive Entry (A : Type)
  | dir (attributes : A)
  | file (attributes : A) (content : List UInt8)
  | symlink (attributes : A) (target : PathText)
  deriving DecidableEq

/-- The kind of an entry, which is all that path resolution sees. -/
inductive EntryKind
  | dir
  | file
  | symlink (target : PathText)
  deriving DecidableEq

/-- The kind of an entry. -/
def Entry.kind {A : Type} : Entry A → EntryKind
  | .dir _ => .dir
  | .file _ _ => .file
  | .symlink _ target => .symlink target

/-- A tree: the root is a directory, every entry lies in a directory, and no entry has the name of a
piece that stays or goes up. -/
structure FileTree (A : Type) where
  entry : RealPath → Option (Entry A)
  root : (entry []).map Entry.kind = some .dir
  parent : ∀ (p : RealPath) (n : String), (entry (p ++ [n])).isSome = true →
    (entry p).map Entry.kind = some .dir
  plain : ∀ (p : RealPath) (n : String), (entry (p ++ [n])).isSome = true →
    PathText.isPlain n = true

namespace FileTree

variable {A : Type} (t : FileTree A)

/-- The kind of entry at a location. -/
def kind (p : RealPath) : Option EntryKind := (t.entry p).map Entry.kind

/-- The entry of a location in a table; the root is not in it. -/
def tableEntry (rootAttributes : A) (table : List (RealPath × Entry A)) (p : RealPath) :
    Option (Entry A) :=
  if p = [] then some (.dir rootAttributes) else table.lookup p

/-- A tree given by a table in which every location has a plain name in a directory. -/
def ofTable (rootAttributes : A) (table : List (RealPath × Entry A))
    (h : ∀ row ∈ table, row.1.getLast?.all PathText.isPlain = true ∧
      (tableEntry rootAttributes table row.1.dropLast).map Entry.kind = some .dir) :
    FileTree A where
  entry := tableEntry rootAttributes table
  root := rfl
  parent p n hsome := by
    rw [tableEntry, if_neg (by simp), List.lookup_isSome_iff] at hsome
    obtain ⟨e, hmem, heq⟩ := hsome
    have hrow := (h e hmem).2
    rw [← beq_iff_eq.1 heq, List.dropLast_concat] at hrow
    exact hrow
  plain p n hsome := by
    rw [tableEntry, if_neg (by simp), List.lookup_isSome_iff] at hsome
    obtain ⟨e, hmem, heq⟩ := hsome
    have hrow := (h e hmem).1
    rw [← beq_iff_eq.1 heq, List.getLast?_concat] at hrow
    exact hrow

end FileTree

/-! ## Resolution -/

/-- The errors of the file system. -/
inductive PosixError
  | notFound
  | notDirectory
  | tooManyLinks
  | alreadyExists
  | isDirectory
  | invalidInput
  | other (message : String)
  deriving DecidableEq, Repr

/-- What Linux prints. -/
def PosixError.text : PosixError → String
  | .notFound => "No such file or directory (os error 2)"
  | .notDirectory => "Not a directory (os error 20)"
  | .tooManyLinks => "Too many levels of symbolic links (os error 40)"
  | .alreadyExists => "File exists (os error 17)"
  | .isDirectory => "Is a directory (os error 21)"
  | .invalidInput => "Invalid argument (os error 22)"
  | .other message => message

section Walk

variable {A : Type} (t : FileTree A)

/-- Walks through pieces; `follow` goes on from the target of a link. -/
def walkWith (follow : RealPath → List String → Except PosixError RealPath) :
    RealPath → List String → Except PosixError RealPath
  | cur, [] => .ok cur
  | cur, piece :: rest =>
    if t.kind cur = some .dir then
      if PathText.isStay piece then walkWith follow cur rest
      else if piece = ".." then walkWith follow cur.dropLast rest
      else
        match t.kind (cur ++ [piece]) with
        | none => .error .notFound
        | some (.symlink target) =>
          follow (if target.absolute then [] else cur) (target.pieces ++ rest)
        | some _ => walkWith follow (cur ++ [piece]) rest
    else .error .notDirectory

/-- Walks through pieces and follows at most so many links. -/
def walk : Nat → RealPath → List String → Except PosixError RealPath
  | 0 => walkWith t fun _ _ => .error .tooManyLinks
  | links + 1 => walkWith t (walk links)

end Walk

/-- What a process resolves paths with. -/
structure PathScope where
  /-- The working directory. -/
  cwd : RealPath := []
  /-- The number of links that one resolution follows. -/
  maxLinks : Nat := 40

/-- The directory that the path starts from. -/
def PathText.start (scope : PathScope) (path : PathText) : RealPath :=
  if path.absolute then [] else scope.cwd

/-- `realpath`: the location of the entry, all links followed. -/
def resolve {A : Type} (scope : PathScope) (t : FileTree A) (path : PathText) :
    Except PosixError RealPath :=
  walk t scope.maxLinks (path.start scope) path.pieces

end EasyNetDaemon.Library
