import Graft.Event
import Graft.Files.Step
import Graft.Text.Quoted

/-!
Scratch directories: a directory of its own for each compilation, removed with all that is in it when
the compilation is over. A failure to remove it is told and changes nothing else.
-/

namespace Graft

open Text

structure Scratch where
  path : String
  deriving Repr, DecidableEq, Inhabited

namespace Scratch

/-- The directory of the scratch directories that are not asked for elsewhere. -/
def defaultParent : String := "/tmp"

def beginning (label : String) : String := s!"splice-{label}-"

def describe (error : FileError) (path : String) : String :=
  s!"{error.message} at path {quoted path}"

def absolute (tree : FileTree) (path : String) : String := Path.join tree.current.toPath path

def makeDirectory (path : String) (tree : FileTree) : Except FileError FileTree := do
  let location ← tree.resolve path
  if (tree.node? location).isSome then throw .exists
  return tree.set location .directory

/-- Makes a scratch directory for a label, below a parent that is made if need be. The error comes
with its text. -/
def create (parent : Option String) (label : String) (tree : FileTree) :
    Except (FileError × String) (Scratch × FileTree) := do
  let (base, tree) ← match parent with
    | none => pure (defaultParent, tree)
    | some path =>
        let tree ← (tree.makeDirectories path).mapError fun error => (error, error.message)
        pure (absolute tree path, tree)
  let directory := (tree.resolve base).toOption.getD []
  let path := Path.join base (tree.freshName directory (beginning label))
  let tree ← (makeDirectory path tree).mapError fun error => (error, describe error path)
  return (⟨path⟩, tree)

/-- Writes a text file in the directory. A file that is empty is none to compile. -/
def materialize (scratch : Scratch) (fileName text : String) (tree : FileTree) :
    Except String String × FileTree :=
  let path := Path.join scratch.path fileName
  match tree.writeText path text with
  | .error error => (.error error.message, tree)
  | .ok tree =>
      if text.isEmpty then (.error s!"{path} is empty after write", tree) else (.ok path, tree)

/-- Removes the directory and all that is in it; an event tells when that fails. -/
def remove (scratch : Scratch) (tree : FileTree) : FileTree × List Event :=
  let failed (error : FileError) := [Event.cleanupFailed scratch.path (describe error scratch.path)]
  match tree.resolve scratch.path with
  | .error error => (tree, failed error)
  | .ok location =>
      match tree.node? location with
      | none => (tree, failed .notFound)
      | some (.file ..) => (tree, failed .notDirectory)
      | some .directory => (tree.prune location, [])

end Scratch

end Graft
