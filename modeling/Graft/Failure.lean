import Graft.Code.Definition
import Graft.Files.Tree
import Graft.Variant.Merge

/-!
Why work on a unit fails as a whole.
-/

namespace Graft

inductive Failure where
  | configuration (reason : String)
  | location (error : Code.LocateError)
  | store (error : StoreError)
  | merge (error : MergeError)
  /-- A file does not have the content that was written with its digest. -/
  | digestMismatch (expected actual : String)
  /-- Stored data cannot be read. -/
  | malformedData
  | malformedConfiguration
  | files (reason : String)
  deriving Repr, DecidableEq, Inhabited

namespace Failure

def ofFiles (error : FileError) : Failure := files error.message

def message : Failure → String
  | configuration reason => s!"invalid configuration: {reason}"
  | location error => s!"locator error: {error.message}"
  | store error => s!"candidate store error: {error.message}"
  | merge error => s!"merge error: {error.message}"
  | digestMismatch expected actual => s!"digest mismatch: expected {expected}, got {actual}"
  | malformedData => "serialization error"
  | malformedConfiguration => "config parse error"
  | files reason => s!"io error: {reason}"

end Failure

def SourceUnit.load (path : String) (functions : List String) (trial : Nat) (tree : FileTree) :
    Except Failure SourceUnit := do
  let text ← (tree.readText path).mapError .ofFiles
  return ⟨path, text, functions, trial⟩

end Graft
