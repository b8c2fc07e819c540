import Graft.Files.Step
import Graft.Store.Basic

/-!
The store in files: the attempt `n` at a function is the file
`candidates/<unit>/<ordinal>/<n>.txt` below the root of the store. Any other file that an operator
leaves there counts when its name is a number before `.txt`, however the number is written.
-/

namespace Graft

open Text

namespace CandidateFiles

def baseOf (root : String) : String := Path.join root "candidates"

def directoryOf (base : String) (unit : UnitId) (ordinal : Nat) : String :=
  Path.join (Path.join base unit.name) (toString ordinal)

def nameOf (attempt : Nat) : String := s!"{attempt}.txt"

def attempt? (name : String) : Option Nat :=
  match Path.cutName name with
  | (stem, some "txt") => readU32? stem
  | _ => none

/-- The attempts that the names in a directory stand for, in ascending order. -/
def attemptsAmong (names : List String) : List Nat :=
  (names.filterMap attempt?).mergeSort

/-- The attempt behind all that are listed. Attempts have 32 bits: behind the highest one comes
zero. -/
def nextOf (listed : List Nat) : Nat := (listed.getLast?.getD 0 + 1) % (maxUnsigned 32 + 1)

def failed (error : FileError) : StoreError := .files error.message

def attempts (base : String) (unit : UnitId) (ordinal : Nat) (tree : FileTree) :
    Except StoreError (List Nat) :=
  match tree.list (directoryOf base unit ordinal) with
  | .ok names => .ok (attemptsAmong names)
  | .error .notFound => .ok []
  | .error error => .error (failed error)

def get (base : String) (unit : UnitId) (ordinal attempt : Nat) (tree : FileTree) :
    Except StoreError String :=
  match tree.readText (Path.join (directoryOf base unit ordinal) (nameOf attempt)) with
  | .ok text => .ok text
  | .error .notFound => .error (.notFound unit ordinal attempt)
  | .error error => .error (failed error)

/-- What putting a candidate does: the attempt that it becomes, where it is written first, and the
steps that write it. -/
def plan (base : String) (unit : UnitId) (ordinal : Nat) (text : String) (tree : FileTree) :
    Except StoreError (Nat × Location × List FileStep) := do
  if ordinal = 0 then throw .invalidOrdinal
  let (directory, steps) ← (tree.planDirectory (directoryOf base unit ordinal)).mapError failed
  let attempt := nextOf (← attempts base unit ordinal tree)
  let draft := tree.draft directory
  let added := FileTree.addSteps draft (directory ++ [nameOf attempt]) (encode text)
  return (attempt, draft, steps ++ added ++ [.flush directory])

def put (base : String) (unit : UnitId) (ordinal : Nat) (text : String) (tree : FileTree) :
    Except StoreError Nat × FileTree :=
  match plan base unit ordinal text tree with
  | .error error => (.error error, tree)
  | .ok (attempt, draft, steps) =>
      match tree.carryOut draft steps with
      | (tree, none) => (.ok attempt, tree)
      | (tree, some .exists) => (.error (.conflict unit ordinal attempt), tree)
      | (tree, some error) => (.error (failed error), tree)

def store (base : String) : CandidateStore FileTree where
  put := put base
  get := get base
  attempts := attempts base

def openAt (root : String) (tree : FileTree) : Except StoreError FileTree :=
  (tree.makeDirectories (baseOf root)).mapError failed

end CandidateFiles

end Graft
