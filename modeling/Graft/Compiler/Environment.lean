import Graft.Compiler.Output
import Graft.Json.Decoder
import Graft.Verdict.Basic
import Graft.Pattern.Reader
import Graft.Pattern.Match

/-!
Which failures of a compiler the environment explains. A line is explained when an operator's
pattern finds something in it, when it names a library that is not there, or when it names a header
that is not there and may be missing. A failure is one of the environment when there is something
to explain and every line of it is explained.
-/

namespace Graft.Compiler

open Graft.Text

structure EnvironmentSettings where
  patterns : List String
  /-- The headers that may be missing; every header when the list is empty. -/
  expectedHeaders : List String
  deriving Repr, DecidableEq, Inhabited

namespace EnvironmentSettings

def toJson (settings : EnvironmentSettings) : Json :=
  .object [("patterns", Json.strings settings.patterns),
    ("expected_headers", Json.strings settings.expectedHeaders)]

def decode : Json.Decoder EnvironmentSettings := Json.record do
  return ⟨← Json.defaulted "patterns" (.list .string) [],
    ← Json.defaulted "expected_headers" (.list .string) []⟩

end EnvironmentSettings

structure EnvironmentRules where
  patterns : List Pattern
  expectedHeaders : List String

namespace EnvironmentRules

/-- The rules of the settings, or the first pattern that cannot be read. -/
def ofSettings (settings : EnvironmentSettings) : Except String EnvironmentRules := do
  let patterns ← settings.patterns.mapM fun text =>
    match Pattern.read? text with
    | some pattern => .ok pattern
    | none => .error text
  return ⟨patterns, settings.expectedHeaders⟩

def firstAt? (read? : List Char → Option α) : List Char → Option α
  | [] => read? []
  | c :: rest => (read? (c :: rest)).orElse fun _ => firstAt? read? rest

def stretch? (kind : Char → Bool) (text : List Char) : Option (List Char × List Char) :=
  let found := text.takeWhile kind
  if found.isEmpty then none else some (found, text.drop found.length)

/-- A header in the words of a preprocessor, `fatal error: name: No such file or directory`. -/
def headerAfterFatal? (text : List Char) : Option (List Char) := do
  let rest ← dropHead? "fatal error:".toList text
  let (header, rest) ← stretch? (fun c => !isBlank c && c != ':') (rest.dropWhile isBlank)
  let rest ← dropHead? [':'] rest
  let _ ← dropHead? "No such file or directory".toList (rest.dropWhile isBlank)
  return header

/-- A header in quotes, `'name' file not found`. -/
def headerInQuotes? (text : List Char) : Option (List Char) := do
  let rest ← dropHead? ['\''] text
  let (header, rest) ← stretch? (· != '\'') rest
  let _ ← dropHead? "' file not found".toList rest
  return header

def dropMark (mark : Char) : List Char → List Char
  | c :: rest => if c = mark then rest else c :: rest
  | [] => []

/-- A header after `cannot open source file` or `cannot open include file`. -/
def headerAfterOpen? (text : List Char) : Option (List Char) := do
  let rest ← dropHead? "cannot open ".toList text
  let rest ← (dropHead? "source".toList rest).orElse fun _ => dropHead? "include".toList rest
  let rest ← dropHead? " file".toList rest
  let start := dropMark '\'' ((dropMark ':' rest).dropWhile isBlank)
  let (header, _) ← stretch? (fun c => c != '\'' && !isBlank c && c != ':') start
  return header

/-- The headers that a line says are missing, one for each way of saying so. -/
def missingHeaders (line : String) : List String :=
  [headerAfterFatal?, headerInQuotes?, headerAfterOpen?].filterMap fun read? =>
    (firstAt? read? line.toList).map String.ofList

def namesMissingLibrary (line : String) : Bool :=
  (firstAt? (fun text => do
    let rest ← dropHead? "cannot find -l".toList text
    stretch? (fun c => !isBlank c) rest) line.toList).isSome

def isLinkerSummary (line : String) : Bool :=
  (firstAt? (fun text => do
    let rest ← dropHead? "ld returned ".toList text
    let (_, rest) ← stretch? isDecimalDigit rest
    dropHead? " exit status".toList rest) line.toList).isSome

/-- Whether a header may be missing: all may when none is listed, else one that is listed, or one
whose path ends in one that is. -/
def mayLack (rules : EnvironmentRules) (header : String) : Bool :=
  rules.expectedHeaders.isEmpty ||
    rules.expectedHeaders.any fun expected => header == expected || endsWith ("/" ++ expected) header

def explains (rules : EnvironmentRules) (line : String) : Bool :=
  rules.patterns.any (·.isIn line) || namesMissingLibrary line ||
    (missingHeaders line).any rules.mayLack

def classify (rules : EnvironmentRules) (exitCode : Int) (output : String) : CompileStatus :=
  if exitCode = 0 then .succeeded
  else
    let libraries := (lines output).filter namesMissingLibrary
    let reported := errorLines output ++ libraries
    let excused (line : String) :=
      (!libraries.isEmpty && isLinkerSummary line) || rules.explains line
    if !reported.isEmpty && reported.all excused then .failedEnvironment else .failedActionable

end EnvironmentRules

end Graft.Compiler
