import Graft.Failure
import Graft.Files.Step
import Graft.Instant
import Graft.Json.Reader
import Graft.Repair.State

/-!
Checkpoints: what a run leaves for the next run of a unit. A checkpoint is a file with its digest
beside it; both are put in their places in whole, the data first, and data that does not have the
digest is refused.
-/

namespace Graft

open Json Hash Text

/-- The attempts that a run chose, and the repairs that it made. -/
structure Checkpoint where
  unitId : UnitId
  selection : Selection
  repairs : OrdinalMap RepairState
  updatedAt : Instant
  deriving Repr, DecidableEq, Inhabited

namespace Checkpoint

def toJson (checkpoint : Checkpoint) : Json :=
  .object [("unit_id", .string checkpoint.unitId.name),
    ("selection", Selection.toJson checkpoint.selection),
    ("repair", ofOrdinalMap RepairState.toJson checkpoint.repairs),
    ("updated_at", checkpoint.updatedAt.toJson)]

def decode : Decoder Checkpoint := record do
  return ⟨⟨← required "unit_id" .string⟩, ← required "selection" Selection.decode,
    ← required "repair" (.ordinalMap RepairState.decode), ← required "updated_at" Instant.decode⟩

def render (checkpoint : Checkpoint) : String := checkpoint.toJson.pretty

def read? (text : String) : Option Checkpoint := do decode (← Json.read? text)

def dataName : String := "checkpoint.json"

def digestName : String := "checkpoint.digest"

def directoryOf (base : String) (unit : UnitId) : String := Path.join base unit.name

/-- What writing a checkpoint does: where each file is written first, and the steps that write the
data and then its digest. -/
def plan (base : String) (checkpoint : Checkpoint) (tree : FileTree) :
    Except FileError (Location × List FileStep) := do
  let (directory, steps) ← tree.planDirectory (directoryOf base checkpoint.unitId)
  let content := encode checkpoint.render
  let digest := encode (Digest.compute content).toHex
  let draft := tree.draft directory
  return (draft, steps ++ FileTree.replaceSteps draft (directory ++ [dataName]) content ++
    FileTree.replaceSteps draft (directory ++ [digestName]) digest)

/-- Writes the checkpoint of a unit, in the place of any earlier one, and answers its path. -/
def save (base : String) (checkpoint : Checkpoint) (tree : FileTree) :
    Except Failure String × FileTree :=
  match plan base checkpoint tree with
  | .error error => (.error (.ofFiles error), tree)
  | .ok (draft, steps) =>
      match tree.carryOut draft steps with
      | (tree, some error) => (.error (.ofFiles error), tree)
      | (tree, none) => (.ok (Path.join (directoryOf base checkpoint.unitId) dataName), tree)

/-- The checkpoint that the files of a unit hold; nothing when it has none. -/
def load (base : String) (unit : UnitId) (tree : FileTree) : Except Failure (Option Checkpoint) :=
  let path := directoryOf base unit
  match tree.read (Path.join path dataName) with
  | .error .notFound => .ok none
  | .error error => .error (.ofFiles error)
  | .ok content =>
      match tree.readText (Path.join path digestName) with
      | .error error => .error (.ofFiles error)
      | .ok written =>
          let expected := trimmed written
          let actual := (Digest.compute content).toHex
          if expected ≠ actual then .error (.digestMismatch expected actual)
          else
            match (decode? content).bind read? with
            | some checkpoint => .ok (some checkpoint)
            | none => .error .malformedData

end Checkpoint

end Graft
