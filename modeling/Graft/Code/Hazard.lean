import Graft.Verdict.Issue
import Graft.Pattern.Match
import Graft.Text.Lines
import Graft.Text.Blank

/-!
Constructs of C that are known to be unsafe. Each rule is a pattern that is looked for on every line
without its comments; a line that starts with a hash is passed over.
-/

namespace Graft.Code

open Graft.Text

structure HazardRule where
  id : String
  pattern : Pattern
  severity : Severity
  message : String

def callOf (names : List String) : Pattern :=
  .all [.atPlace .wordEdge, .anyOf (names.map .literal), .blanks, .literal "("]

/-- A reading with a conversion of unlimited width. -/
def unboundedScan : Pattern :=
  .all [callOf ["scanf"], .blanks, .literal "\"",
    .star (.class (.complement (.single '"'))), .literal "%s"]

def jump : Pattern :=
  .all [.atPlace .wordEdge, .literal "goto", .plus (.class .blank), .plus (.class .word), .blanks,
    .literal ";"]

def endlessLoop : Pattern :=
  .all [.atPlace .wordEdge, .anyOf [
    .all [.literal "while", .blanks, .literal "(", .blanks,
      .anyOf [.literal "1", .literal "true"], .blanks, .literal ")"],
    .all [.literal "for", .blanks, .literal "(", .blanks, .literal ";", .blanks, .literal ";",
      .blanks, .literal ")"]]]

/-- The rules, in the order in which their findings on one line are listed. -/
def hazardRules : List HazardRule :=
  [⟨"unsafe-strcpy", callOf ["strcpy"], .high,
      "strcpy does not bound the copy; use strncpy or snprintf"⟩,
   ⟨"unsafe-strcat", callOf ["strcat"], .high, "strcat does not bound the copy; use strncat"⟩,
   ⟨"unsafe-gets", callOf ["gets"], .critical, "gets cannot be used safely; use fgets"⟩,
   ⟨"unbounded-sprintf", callOf ["sprintf", "vsprintf"], .medium,
      "sprintf does not bound its output; use snprintf"⟩,
   ⟨"unbounded-scanf", unboundedScan, .medium, "scanf %s without a field width can overflow"⟩,
   ⟨"shell-command", callOf ["system", "popen"], .high, "spawning a shell command"⟩,
   ⟨"goto", jump, .low, "goto statement"⟩,
   ⟨"unbounded-loop", endlessLoop, .info, "loop without a termination condition"⟩,
   ⟨"non-local-jump", callOf ["setjmp", "longjmp"], .medium,
      "setjmp/longjmp bypasses normal control flow"⟩]

/-- A line without its comments, a space for each block comment, and whether a block comment is
open at its end. The flag says whether one is open at its start. -/
def stripComments : Bool → List Char → List Char × Bool
  | inBlock, [] => ([], inBlock)
  | true, '*' :: '/' :: rest => stripComments false rest
  | true, _ :: rest => stripComments true rest
  | false, '/' :: '/' :: _ => ([], false)
  | false, '/' :: '*' :: rest =>
      let (kept, inBlock) := stripComments true rest
      (' ' :: kept, inBlock)
  | false, c :: rest =>
      let (kept, inBlock) := stripComments false rest
      (c :: kept, inBlock)

def hazardsOnLine (number : Nat) (line : List Char) : List Finding :=
  if (line.dropWhile isBlank).head? = some '#' then []
  else
    let text := String.ofList line
    hazardRules.filterMap fun rule =>
      if rule.pattern.isIn text then some ⟨rule.id, rule.severity, rule.message, number⟩ else none

/-- The findings on the lines, the first of which has the given number. -/
def hazardsFrom (number : Nat) (inBlock : Bool) : List (List Char) → List Finding
  | [] => []
  | line :: rest =>
      let (kept, inBlock) := stripComments inBlock line
      hazardsOnLine number kept ++ hazardsFrom (number + 1) inBlock rest

/-- The findings of a text, at most one for each rule on each line. -/
def hazards (text : String) : List Finding := hazardsFrom 1 false (linesOf text.toList)

end Graft.Code
