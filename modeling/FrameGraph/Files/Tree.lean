import FrameGraph.Files.Access
import FrameGraph.Text.Blank

/-! # Files in memory

A tree of text files. A directory exists if it was made or if a file lies in it. Paths are followed name
by name, so a name is looked up only in a directory.
-/

namespace FrameGraph

/-- The names on the way to a file or directory. -/
abbrev TreePath := List String

structure FileTree where
  files : List (TreePath × String) := []
  /-- Directories that were made, whether or not they hold a file. -/
  made : List TreePath := []
  /-- The directory that relative paths start from. -/
  workingDirectory : TreePath := []

inductive FileError where
  | notFound
  | isDirectory
  | notDirectory
  | nameTooLong
  /-- A path with a zero character is no path at all. -/
  | zeroCharacter
deriving DecidableEq, Repr

/-- The words of the system. -/
def FileError.message : FileError → String
  | .notFound => "No such file or directory (os error 2)"
  | .isDirectory => "Is a directory (os error 21)"
  | .notDirectory => "Not a directory (os error 20)"
  | .nameTooLong => "File name too long (os error 36)"
  | .zeroCharacter => "file name contained an unexpected NUL byte"

namespace FileTree

/-- The names of a path text. -/
def names (path : String) : TreePath := (Text.splitOn '/' [] path.toList).map String.ofList

/-- The text of the path from the root. -/
def render (path : TreePath) : String := "/" ++ "/".intercalate path

def isDirectory (tree : FileTree) (path : TreePath) : Bool :=
  path.isEmpty || tree.made.any (path.isPrefixOf ·) ||
    tree.files.any fun (file, _) => path.isPrefixOf file && path != file

def file? (tree : FileTree) (path : TreePath) : Option String := tree.files.lookup path

/-- Where a name leads from a place. An empty name or a dot stays there, two dots go up. -/
def go (place : TreePath) (name : String) : TreePath :=
  if name = "" ∨ name = "." then place
  else if name = ".." then place.dropLast
  else place ++ [name]

/-- The most bytes of a name. -/
def nameLimit : Nat := 255

/-- The most bytes of a path. -/
def pathLimit : Nat := 4095

/-- Follow one name from a place, which must be a directory. -/
def step (tree : FileTree) (place : TreePath) (name : String) : Except FileError TreePath :=
  if !tree.isDirectory place then
    .error (if (tree.file? place).isSome then .notDirectory else .notFound)
  else if nameLimit < name.utf8ByteSize then .error .nameTooLong
  else .ok (go place name)

/-- Where a path leads, if something is there. -/
def resolve (tree : FileTree) (path : String) : Except FileError TreePath := do
  if path.contains '\x00' then throw .zeroCharacter
  if path = "" then throw .notFound
  if pathLimit < path.utf8ByteSize then throw .nameTooLong
  let start := if path.startsWith "/" then [] else tree.workingDirectory
  let place ← (names path).foldlM tree.step start
  if tree.isDirectory place || (tree.file? place).isSome then return place else throw .notFound

def read (tree : FileTree) (path : String) : Except FileError String := do
  let place ← tree.resolve path
  match tree.file? place with
  | some text => return text
  | none => throw .isDirectory

/-- The files of a tree, for programs. -/
def access (tree : FileTree) : FileAccess Id where
  workingDirectory := render tree.workingDirectory
  pathExists path := (tree.resolve path).isOk
  read path := (tree.read path).mapError FileError.message

end FileTree

end FrameGraph
