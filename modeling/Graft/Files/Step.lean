import Graft.Files.Tree

/-!
Changes of a tree in single steps, as they reach a disk. A change that takes several steps is a list
of them, so that a run of it may be stopped anywhere. A file is put in its place in whole: it is
written under another name first and moved when it is complete.
-/

namespace Graft

open Text

inductive FileStep where
  | makeDirectory (at_ : Location)
  /-- Makes an empty file. -/
  | create (at_ : Location)
  | append (at_ : Location) (content : Bytes)
  /-- Waits until what was written has reached the disk. -/
  | flush (at_ : Location)
  /-- Gives a file another name, in the place of any file that has it. -/
  | move (source target : Location)
  /-- Gives a file another name, unless something has it. -/
  | moveNew (source target : Location)
  | remove (at_ : Location)
  deriving Repr, DecidableEq

namespace FileStep

def apply (tree : FileTree) : FileStep → Except FileError FileTree
  | makeDirectory location =>
      match tree.node? location with
      | none => .ok (tree.set location .directory)
      | some .directory => .ok tree
      | some (.file ..) => .error .exists
  | create location =>
      match tree.node? location with
      | none =>
          if tree.isDirectory location.dropLast then .ok (tree.set location (.file [] false))
          else .error .notFound
      | some _ => .error .exists
  | append location content =>
      match tree.node? location with
      | some (.file before executable) => .ok (tree.set location (.file (before ++ content) executable))
      | some .directory => .error .isDirectory
      | none => .error .notFound
  | flush _ => .ok tree
  | move source target =>
      match tree.node? source, tree.node? target with
      | none, _ => .error .notFound
      | some _, some .directory => .error .isDirectory
      | some node, _ => .ok ((tree.erase source).set target node)
  | moveNew source target =>
      match tree.node? source, tree.node? target with
      | none, _ => .error .notFound
      | some _, some _ => .error .exists
      | some node, none => .ok ((tree.erase source).set target node)
  | remove location => .ok (tree.erase location)

end FileStep

namespace FileTree

/-- The tree after a list of steps, of which the first that fails is the last that is tried. -/
def perform (tree : FileTree) : List FileStep → FileTree × Option FileError
  | [] => (tree, none)
  | step :: rest =>
      match step.apply tree with
      | .ok next => next.perform rest
      | .error error => (tree, some error)

/-- The steps that make the directories on the way along some names, and the last of them. -/
def directorySteps (tree : FileTree) : Location → List String →
    Except FileError (Location × List FileStep)
  | location, [] => .ok (location, [])
  | location, name :: rest =>
      if name = "" ∨ name = "." then tree.directorySteps location rest
      else if name = ".." then tree.directorySteps location.dropLast rest
      else
        let next := location ++ [name]
        match tree.node? next with
        | some .directory => tree.directorySteps next rest
        | some (.file ..) =>
            .error (if rest.all fun name => name = "" ∨ name = "." then .exists else .notDirectory)
        | none => (tree.directorySteps next rest).map fun (last, steps) =>
            (last, .makeDirectory next :: steps)

/-- The steps that make a directory and the ones above it, and its location. -/
def planDirectory (tree : FileTree) (path : String) :
    Except FileError (Location × List FileStep) := do
  if path.toList.contains '\x00' then throw .zeroByte
  tree.directorySteps (tree.start path) (names path)

def makeDirectories (tree : FileTree) (path : String) : Except FileError FileTree := do
  let (_, steps) ← tree.planDirectory path
  match tree.perform steps with
  | (tree, none) => return tree
  | (_, some error) => throw error

/-- Writes a file after making the directories above it; a step that fails is left out. -/
def plant (tree : FileTree) (path : String) (content : Bytes) : FileTree :=
  let tree := ((Path.parent? path).bind fun above => (tree.makeDirectories above).toOption).getD tree
  (tree.write path content).toOption.getD tree

/-- Where a file is written before it gets its name. -/
def draft (tree : FileTree) (directory : Location) : Location :=
  directory ++ [tree.freshName directory ".tmp"]

/-- The steps that write a file under another name and move it to its place at last. -/
def placeSteps (draft : Location) (content : Bytes) (moved : FileStep) : List FileStep :=
  [.create draft, .append draft content, .flush draft, moved]

/-- The steps that put a file in its place, whatever file was there before. -/
def replaceSteps (draft target : Location) (content : Bytes) : List FileStep :=
  placeSteps draft content (.move draft target)

/-- The steps that put a file in a place where nothing is. -/
def addSteps (draft target : Location) (content : Bytes) : List FileStep :=
  placeSteps draft content (.moveNew draft target)

/-- Runs steps that write a draft; when one fails, the draft is removed. -/
def carryOut (tree : FileTree) (draft : Location) (steps : List FileStep) :
    FileTree × Option FileError :=
  match tree.perform steps with
  | (tree, none) => (tree, none)
  | (tree, some error) => (tree.erase draft, some error)

end FileTree

end Graft
