import Graft.Text.Blank
import Graft.Text.Lines
import Graft.Text.Search

/-!
What a compiler prints, line by line: which lines report errors and warnings, and what kind of
error a line reports. The kind is told by the words on the line, and the first kind whose words
occur is the answer.
-/

namespace Graft.Compiler

open Graft.Text

def linesWith (word output : String) : List String :=
  ((lines output).filter (contains word)).map trimmed

def errorLines (output : String) : List String := linesWith "error:" output

def warningLines (output : String) : List String := linesWith "warning:" output

inductive ErrorCategory where
  | missingHeader
  | undefinedSymbol
  | typeMismatch
  | linking
  | form
  | other
  deriving Repr, DecidableEq, Inhabited

namespace ErrorCategory

/-- The kinds in the order in which they are counted. -/
def all : List ErrorCategory :=
  [missingHeader, undefinedSymbol, typeMismatch, linking, form, other]

def name : ErrorCategory → String
  | missingHeader => "missing_header"
  | undefinedSymbol => "undefined_symbol"
  | typeMismatch => "type_mismatch"
  | linking => "linking"
  | form => "syntax"
  | other => "other"

def ofLine (line : String) : ErrorCategory :=
  let lower := String.ofList (line.toList.map Char.toLower)
  let any (words : List String) := words.any (contains · lower)
  if any ["no such file or directory", "file not found", "cannot open source file",
      "cannot open include file"] && any [".h", "#include"] then missingHeader
  else if any ["undefined reference", "undefined symbol", "undeclared", "was not declared",
      "implicit declaration"] then undefinedSymbol
  else if any ["incompatible type", "cannot convert", "type mismatch", "invalid conversion",
      "conflicting types"] then typeMismatch
  else if any ["multiple definition", "duplicate symbol", "cannot find -l", "ld returned"] then
    linking
  else if any ["expected", "missing", "parse error", "syntax error", "stray"] then form
  else other

/-- How many of the lines report each kind, for the kinds that occur. -/
def count (lines : List String) : List (ErrorCategory × Nat) :=
  let kinds := lines.map ofLine
  (all.map fun kind => (kind, kinds.count kind)).filter (0 < ·.2)

end ErrorCategory

end Graft.Compiler
