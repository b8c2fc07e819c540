import Graft.Compiler.Toolchain
import Graft.Machine.Shell

/-!
Running a program to its end and reading what it printed. A program that was ended by a signal counts
as one with the exit code -1.
-/

namespace Graft

open Compiler Machine Text

/-- A way to run a program by its words for at most so many milliseconds. It starts in the current
directory of the tree. -/
abbrev Launcher := List String → FileTree → Nat → Except FileError Remains

structure ProcessOutput where
  exitCode : Int
  stdout : String
  stderr : String
  deriving Repr, DecidableEq, Inhabited

namespace ProcessOutput

def succeeded (output : ProcessOutput) : Bool := output.exitCode == 0

/-- All that was printed, the complaints first. -/
def combined (output : ProcessOutput) : String :=
  if output.stderr.isEmpty then output.stdout
  else if output.stdout.isEmpty then output.stderr
  else output.stderr ++ "\n" ++ output.stdout

end ProcessOutput

def FileTree.directoryAt (tree : FileTree) : Option String → Except FileError Location
  | none => .ok tree.current
  | some path => do
      let location ← tree.resolve path
      match tree.node? location with
      | none => throw .notFound
      | some (.file ..) => throw .notDirectory
      | some .directory => return location

def Launcher.launch (launcher : Launcher) (words : List String) (directory : Option String)
    (timeout : Nat) (tree : FileTree) : Except ToolchainError ProcessOutput × FileTree :=
  match words with
  | [] => (.error .emptyCommand, tree)
  | program :: _ =>
      let spawnFailed (reason : String) : Except ToolchainError ProcessOutput × FileTree :=
        (.error (.spawn program reason), tree)
      if words.any (·.toList.contains '\x00') then spawnFailed "nul byte found in provided data"
      else
        match tree.directoryAt directory with
        | .error error => spawnFailed error.message
        | .ok location =>
            match launcher words { tree with current := location } timeout with
            | .error error => spawnFailed error.message
            | .ok remains =>
                let after := { remains.tree with current := tree.current }
                let isLate := remains.ending = Ending.late ∨ timeout ≤ remains.elapsed
                if isLate then (.error (.timeout program (timeout / 1000)), after)
                else
                  let exitCode : Int := match remains.ending with
                    | .exited code => code
                    | _ => -1
                  (.ok ⟨exitCode, decodeLossy remains.output, decodeLossy remains.errors⟩, after)

end Graft
