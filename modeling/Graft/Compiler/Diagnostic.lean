import Graft.Text.Blank
import Graft.Text.Classes
import Graft.Text.Lines
import Graft.Text.Numeral
import Graft.Text.Search

/-!
Diagnostics in the format `file:line:column: severity: message`, the column being optional. The
file is the shortest part of the line behind which the rest reads like that.
-/

namespace Graft.Compiler

open Graft.Text

structure Diagnostic where
  file : String
  line : Nat
  column : Option Nat
  severity : String
  message : String
  deriving Repr, DecidableEq, Inhabited

namespace Diagnostic

def severities : List String := ["fatal error", "error", "warning", "note"]

def takeCount? (text : List Char) : Option (List Char × List Char) :=
  let digits := text.takeWhile isDecimalDigit
  match digits, text.drop digits.length with
  | _ :: _, ':' :: rest => some (digits, rest)
  | _, _ => none

def takeMessage? (text : List Char) : Option (String × List Char) :=
  let start := text.dropWhile isBlank
  severities.findSome? fun severity =>
    (dropHead? (severity.toList ++ [':']) start).map fun rest => (severity, rest.dropWhile isBlank)

/-- The digits of the line and of the column, the severity and the message, behind the file. -/
def takeRecord? (text : List Char) :
    Option (List Char × Option (List Char) × String × List Char) := do
  let (line, rest) ← takeCount? text
  let (column, rest) := match takeCount? rest with
    | some (column, rest) => (some column, rest)
    | none => (none, rest)
  let (severity, message) ← takeMessage? rest
  return (line, column, severity, message)

/-- The file, and the rest of the record behind the first colon where it reads like one. `file` is
what has been passed, last character first. -/
def split? (file : List Char) : List Char →
    Option (List Char × List Char × Option (List Char) × String × List Char)
  | [] => none
  | c :: rest =>
      let here := if c = ':' ∧ file ≠ [] then takeRecord? rest else none
      match here with
      | some record => some (file.reverse, record)
      | none => split? (c :: file) rest

/-- The record that a line writes. A line number beyond 32 bits makes it none, a column beyond them
is left out. -/
def ofLine? (line : String) : Option Diagnostic := do
  let (file, number, column, severity, message) ← split? [] (dropEndWhile isBlank line.toList)
  let number ← readU32? (String.ofList number)
  let column := column.bind fun digits => readU32? (String.ofList digits)
  return ⟨String.ofList file, number, column, severity, String.ofList message⟩

def render (diagnostic : Diagnostic) : String :=
  let column := match diagnostic.column with
    | some column => s!"{column}:"
    | none => ""
  s!"{diagnostic.file}:{diagnostic.line}:{column} {diagnostic.severity}: {diagnostic.message}"

end Diagnostic

/-- The records of a compiler's output; lines of any other form are passed over. -/
def diagnostics (output : String) : List Diagnostic :=
  (lines output).filterMap Diagnostic.ofLine?

end Graft.Compiler
