import Graft.Path
import Graft.Text.Numeral
import Graft.Text.Utf8

/-!
A tree of files. A node is known by the names on the way to it from the root; a path as text is
followed name by name, and every name but the last must be that of a directory.
-/

namespace Graft

open Text

inductive FileError where
  | notFound
  | denied
  | exists
  | notDirectory
  | isDirectory
  | notEmpty
  /-- The content is no well-formed text. -/
  | notText
  /-- The path holds a zero byte. -/
  | zeroByte
  /-- The file is no program. -/
  | badFormat
  deriving Repr, DecidableEq, Inhabited

namespace FileError

def message : FileError → String
  | notFound => "No such file or directory (os error 2)"
  | denied => "Permission denied (os error 13)"
  | .exists => "File exists (os error 17)"
  | notDirectory => "Not a directory (os error 20)"
  | isDirectory => "Is a directory (os error 21)"
  | notEmpty => "Directory not empty (os error 39)"
  | notText => "stream did not contain valid UTF-8"
  | zeroByte => "file name contained an unexpected NUL byte"
  | badFormat => "Exec format error (os error 8)"

end FileError

/-- The names on the way from the root to a node. -/
abbrev Location := List String

namespace Location

def toPath (location : Location) : String := "/" ++ "/".intercalate location

end Location

inductive FileNode where
  | directory
  | file (content : Bytes) (executable : Bool)
  deriving Repr, DecidableEq, Inhabited

/-- The nodes below the root, and the directory in which relative paths start. -/
structure FileTree where
  nodes : List (Location × FileNode)
  current : Location
  deriving Repr, Inhabited

namespace FileTree

/-- The tree that holds nothing but its current directory and the directories above it. -/
def empty (current : Location) : FileTree :=
  ⟨(List.range' 1 current.length).map fun n => (current.take n, .directory), current⟩

def node? (tree : FileTree) (location : Location) : Option FileNode :=
  if location = [] then some .directory else tree.nodes.lookup location

def erase (tree : FileTree) (location : Location) : FileTree :=
  { tree with nodes := tree.nodes.filter (·.1 != location) }

def set (tree : FileTree) (location : Location) (node : FileNode) : FileTree :=
  { tree with nodes := (location, node) :: (tree.erase location).nodes }

theorem node?_set (tree : FileTree) (location other : Location) (node : FileNode)
    (h : other ≠ []) :
    (tree.set location node).node? other = if other = location then some node else tree.node? other := by
  simp only [node?, h, ↓reduceIte, set, erase]
  by_cases heq : other = location
  · simp [heq]
  · have hne : (other == location) = false := by simpa using heq
    simp only [List.lookup_cons, hne, heq, ↓reduceIte]
    induction tree.nodes with
    | nil => rfl
    | cons entry rest ih =>
        obtain ⟨at_, found⟩ := entry
        by_cases hat : at_ = location
        · subst hat
          simp [List.lookup_cons, hne, ih]
        · by_cases hother : other = at_
          · subst hother
            simp [hat]
          · have hne' : (other == at_) = false := by simpa using hother
            simp [hat, List.lookup_cons, hne', ih]

def isDirectory (tree : FileTree) (location : Location) : Bool :=
  tree.node? location = some .directory

def follow (tree : FileTree) : Location → List String → Except FileError Location
  | location, [] => .ok location
  | location, name :: rest =>
      match tree.node? location with
      | none => .error .notFound
      | some (.file ..) => .error .notDirectory
      | some .directory =>
          if name = "" ∨ name = "." then follow tree location rest
          else if name = ".." then follow tree location.dropLast rest
          else follow tree (location ++ [name]) rest

def start (tree : FileTree) (path : String) : Location :=
  if Path.isAbsolute path then [] else tree.current

def names (path : String) : List String :=
  (splitAtChar '/' path.toList).map String.ofList

/-- Refuses the paths that name nothing. -/
def checkPath (path : String) : Except FileError Unit :=
  if path.isEmpty then .error .notFound
  else if path.toList.contains '\x00' then .error .zeroByte
  else .ok ()

/-- The location that a path leads to. A node need not stand there, but a directory above it. -/
def resolve (tree : FileTree) (path : String) : Except FileError Location := do
  checkPath path
  tree.follow (tree.start path) (names path)

/-- The location of the file that a path asks to be written. A path that ends in a slash or a dot
names a directory. -/
def resolveFile (tree : FileTree) (path : String) : Except FileError Location := do
  checkPath path
  let pieces := names path
  let kept := (pieces.reverse.dropWhile (·.isEmpty)).reverse
  let last := kept.getLast?.getD "."
  if kept.length < pieces.length ∨ last = "." ∨ last = ".." then
    let _ ← tree.follow (tree.start path) (kept.dropLast ++ [""])
    throw .isDirectory
  else
    let location ← tree.follow (tree.start path) pieces
    if tree.isDirectory location then throw .isDirectory
    return location

def lookUp (tree : FileTree) (path : String) : Except FileError FileNode := do
  let location ← tree.resolve path
  match tree.node? location with
  | some node => return node
  | none => throw .notFound

def hasPath (tree : FileTree) (path : String) : Bool := (tree.lookUp path).toOption.isSome

def read (tree : FileTree) (path : String) : Except FileError Bytes := do
  match ← tree.lookUp path with
  | .file content _ => return content
  | .directory => throw .isDirectory

def readText (tree : FileTree) (path : String) : Except FileError String := do
  match decode? (← tree.read path) with
  | some text => return text
  | none => throw .notText

def write (tree : FileTree) (path : String) (content : Bytes) : Except FileError FileTree := do
  let location ← tree.resolveFile path
  match tree.node? location with
  | some (.file _ executable) => return tree.set location (.file content executable)
  | _ => return tree.set location (.file content false)

def writeText (tree : FileTree) (path text : String) : Except FileError FileTree :=
  tree.write path (encode text)

def childNames (tree : FileTree) (location : Location) : List String :=
  tree.nodes.filterMap fun (at_, _) =>
    match at_.getLast? with
    | some name => if at_.dropLast = location then some name else none
    | none => none

def list (tree : FileTree) (path : String) : Except FileError (List String) := do
  let location ← tree.resolve path
  match tree.node? location with
  | none => throw .notFound
  | some (.file ..) => throw .notDirectory
  | some .directory => return tree.childNames location

/-- The tree without a node and without what is below it. -/
def prune (tree : FileTree) (location : Location) : FileTree :=
  { tree with nodes := tree.nodes.filter fun (at_, _) => !location.isPrefixOf at_ }

/-- The files below a location, by the names that lead to them from there. -/
def filesBelow (tree : FileTree) (location : Location) : List (Location × Bytes) :=
  tree.nodes.filterMap fun (at_, node) =>
    match node with
    | .file content _ =>
        if location.isPrefixOf at_ then some (at_.drop location.length, content) else none
    | .directory => none

/-- The paths of the files below the directory that a path leads to, in ascending order. -/
def pathsBelow (tree : FileTree) (path : String) : List String :=
  match tree.resolve path with
  | .ok location =>
      ((tree.filesBelow location).map fun (at_, _) =>
        path ++ String.join (at_.map ("/" ++ ·))).mergeSort (· ≤ ·)
  | .error _ => []

/-- The text in a file; none when there is no file or no text in it. -/
def text? (tree : FileTree) (path : String) : Option String := (tree.readText path).toOption

def remove (tree : FileTree) (path : String) : FileTree :=
  ((tree.resolve path).toOption.map tree.erase).getD tree

/-- A name in a directory that no node has: a beginning and six digits. -/
def freshName (tree : FileTree) (location : Location) (beginning : String) : String :=
  let taken := tree.childNames location
  let candidate (n : Nat) := beginning ++ padded 6 n
  let free := (List.range (taken.length + 1)).find? fun n => !taken.contains (candidate n)
  candidate (free.getD 0)

end FileTree

end Graft
