import Graft.Files.Step
import Graft.Hash.Digest
import Graft.Json.Decoder
import Graft.Json.Printer
import Graft.Json.Reader

/-!
Results of compilations that are kept. The key of a result covers the settings of the toolchain, the
name of the file and its text, so that a result is used again only for the same work. An entry that
cannot be read is as good as none.
-/

namespace Graft.Compiler

open Graft.Hash Graft.Json Graft.Text

/-- How a compilation ended, without any judgement on it. -/
structure CompileResult where
  exitCode : Int
  output : String
  deriving Repr, DecidableEq, Inhabited

namespace CompileResult

def toJson (result : CompileResult) : Json :=
  .object [("exit_code", int result.exitCode), ("output", .string result.output)]

def decode : Decoder CompileResult := record do
  return ⟨← required "exit_code" .i32, ← required "output" .string⟩

end CompileResult

structure CompileCache where
  directory : String
  fingerprint : String
  deriving Repr, DecidableEq, Inhabited

namespace CompileCache

def key (cache : CompileCache) (fileName text : String) : Digest :=
  .ofTexts [cache.fingerprint, fileName, text]

def entryName (key : Digest) : String := key.toHex ++ ".json"

def get? (cache : CompileCache) (key : Digest) (tree : FileTree) : Option CompileResult := do
  let text ← (tree.readText (Path.join cache.directory (entryName key))).toOption
  CompileResult.decode (← Json.read? text)

/-- Keeps a result. When that fails, the tree is as good as before. -/
def put (cache : CompileCache) (key : Digest) (result : CompileResult) (tree : FileTree) : FileTree :=
  match tree.planDirectory cache.directory with
  | .error _ => tree
  | .ok (directory, steps) =>
      let draft := tree.draft directory
      let target := directory ++ [entryName key]
      let content := encode result.toJson.compact
      (tree.carryOut draft (steps ++ FileTree.replaceSteps draft target content)).1

end CompileCache

end Graft.Compiler
