import Graft.Json.Decoder
import Graft.Machine.Process

/-!
Compiling one file in a workshop: the files, and whatever a toolchain keeps for itself. A toolchain
runs a command, or answers from a script.
-/

namespace Graft

open Compiler Text

structure Workshop (σ : Type) where
  tree : FileTree
  tools : σ

structure BuildContext where
  /-- The directory in which the compiler runs; that of the file when there is none. -/
  workingDirectory : Option String
  includeDirs : List String
  /-- The path of the program to be built. -/
  output : String
  deriving Repr, DecidableEq, Inhabited

structure CompileOutput where
  result : ProcessOutput
  /-- The path of the program that was built. -/
  executable : Option String
  deriving Repr, DecidableEq, Inhabited

abbrev Toolchain (σ : Type) :=
  String → BuildContext → StateM (Workshop σ) (Except ToolchainError CompileOutput)

namespace Toolchain

variable {σ : Type}

/-- Compiles by a command that a launcher runs, for at most so many milliseconds. -/
def command (launcher : Launcher) (template : Option (List String)) (timeout : Nat) :
    Toolchain σ := fun input context => do
  match commandFor template input context.output context.includeDirs with
  | .error error => return .error error
  | .ok words =>
      let directory := context.workingDirectory.orElse fun _ => Path.parent? input
      let shop ← get
      let (result, tree) := launcher.launch words directory timeout shop.tree
      set { shop with tree }
      match result with
      | .error error => return .error error
      | .ok output =>
          let isBuilt := output.succeeded && tree.hasPath context.output
          return .ok ⟨output, if isBuilt then some context.output else none⟩

end Toolchain

/-- What a scripted toolchain answers: an exit code with complaints, or a failure to start. -/
abbrev ScriptedResult := Except String (Int × String)

/-- Reads an answer: what stands in the way of a start, or how the run ends. -/
def ScriptedResult.decode : Json.Decoder ScriptedResult := fun value =>
  match value.member? "spawn_error" with
  | some reason => (Json.Decoder.string reason).map .error
  | none => do
      let exitCode ← value.member? "exit" >>= Json.Decoder.i32
      return .ok (exitCode, ← value.member? "stderr" >>= Json.Decoder.string)

/-- A toolchain that answers from a list, the last answer again and again, and keeps the texts that
it was given. -/
structure ToolScript where
  pending : List ScriptedResult
  last : Option ScriptedResult
  inputs : List String
  deriving Inhabited

namespace ToolScript

def ofResults (results : List ScriptedResult) : ToolScript := ⟨results, none, []⟩

def calls (script : ToolScript) : Nat := script.inputs.length

/-- The next answer; success when there never was one. -/
def next (script : ToolScript) (input : String) : ScriptedResult × ToolScript :=
  let inputs := script.inputs ++ [input]
  match script.pending with
  | result :: rest => (result, ⟨rest, some result, inputs⟩)
  | [] => (script.last.getD (.ok (0, "")), { script with inputs })

def toolchain : Toolchain ToolScript := fun input context => do
  let shop ← get
  let (result, tools) := shop.tools.next ((shop.tree.readText input).toOption.getD "")
  set { shop with tools }
  match result with
  | .ok (exitCode, stderr) =>
      return .ok ⟨⟨exitCode, "", stderr⟩, if exitCode = 0 then some context.output else none⟩
  | .error reason => return .error (.spawn "scripted" reason)

end ToolScript

end Graft
