import Graft.Path
import Graft.Text.Search

/-!
The command that compiles a file. A command is a list of words, the program first, in which
`{input}` and `{output}` stand for paths; without one of its own a file is compiled by the command
that suits its extension.
-/

namespace Graft.Compiler

open Graft.Text

inductive ToolchainError where
  | unsupportedLanguage (extension : String)
  | emptyCommand
  | spawn (program reason : String)
  | timeout (program : String) (seconds : Nat)
  deriving Repr, DecidableEq, Inhabited

namespace ToolchainError

def message : ToolchainError → String
  | unsupportedLanguage extension => s!"no compiler preset for '.{extension}' files"
  | emptyCommand => "compiler command is empty"
  | spawn program reason => s!"failed to run {program}: {reason}"
  | timeout program seconds => s!"{program} timed out after {seconds}s"

end ToolchainError

/-- The compilers that are known by the extensions of their files. -/
inductive Preset where
  | c
  | cPlusPlus
  deriving Repr, DecidableEq, Inhabited

namespace Preset

def ofExtension (extension : String) : Except ToolchainError Preset :=
  if ["c", "h"].contains extension then .ok c
  else if ["cpp", "cc", "cxx", "C", "hpp", "hh"].contains extension then .ok cPlusPlus
  else .error (.unsupportedLanguage extension)

def program : Preset → String
  | c => "gcc"
  | cPlusPlus => "g++"

def standard : Preset → String
  | c => "-std=c11"
  | cPlusPlus => "-std=c++17"

def inputMark : String := "\x7binput\x7d"

def outputMark : String := "\x7boutput\x7d"

def command (preset : Preset) : List String :=
  [preset.program, "-Wall", "-Wextra", preset.standard, "-O2", inputMark, "-o", outputMark]

end Preset

/-- The words of the command that compiles an input to an output: the directories of headers follow
the program, and each other word has the paths in their places. -/
def commandFor (template : Option (List String)) (input output : String)
    (includeDirs : List String) : Except ToolchainError (List String) := do
  let words ← match template with
    | some words => pure words
    | none => (Preset.ofExtension ((Path.extension? input).getD "")).map Preset.command
  match words with
  | [] => throw .emptyCommand
  | program :: rest =>
      return program :: includeDirs.map ("-I" ++ ·) ++ rest.map fun word =>
        replaceAll Preset.outputMark output (replaceAll Preset.inputMark input word)

end Graft.Compiler
