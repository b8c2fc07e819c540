import Graft.Compiler.Diagnostic
import Graft.Instant
import Graft.Verdict.Codec
import Graft.Work.Windows

/-!
Reports on units: what the work on a unit came to, in the form in which it is kept. The category of a
report says in one word how the work ended.
-/

namespace Graft

open Compiler Json Number

structure QualitySection where
  formValid : Bool
  issues : List Issue
  findings : List Finding
  score : Single
  deriving Repr, DecidableEq, Inhabited

namespace QualitySection

def ofVerdict (verdict : Verdict) : QualitySection :=
  ⟨verdict.formValid, verdict.issues, verdict.findings, verdict.score⟩

def toJson (quality : QualitySection) : Json :=
  .object [("syntax_valid", .bool quality.formValid),
    ("syntax_issues", .array (quality.issues.map Issue.toJson)),
    ("security_issues", .array (quality.findings.map Finding.toJson)),
    ("quality_score", single quality.score)]

def decode : Decoder QualitySection := record do
  return ⟨← required "syntax_valid" .bool, ← required "syntax_issues" (.list Issue.decode),
    ← required "security_issues" (.list Finding.decode), ← required "quality_score" .single⟩

end QualitySection

structure CompilationSection where
  status : CompileStatus
  errors : List String
  warnings : List String
  diagnostics : List Diagnostic
  deriving Repr, DecidableEq, Inhabited

namespace CompilationSection

def ofVerdict (verdict : Verdict) : CompilationSection :=
  ⟨verdict.status, verdict.errors, verdict.warnings, Compiler.diagnostics verdict.compilerOutput⟩

def toJson (compilation : CompilationSection) : Json :=
  .object [("status", .string compilation.status.name), ("errors", strings compilation.errors),
    ("warnings", strings compilation.warnings),
    ("diagnostics", .array (compilation.diagnostics.map Diagnostic.toJson))]

def decode : Decoder CompilationSection := record do
  return ⟨← required "status" (.choice CompileStatus.names), ← required "errors" (.list .string),
    ← required "warnings" (.list .string), ← required "diagnostics" (.list Diagnostic.decode)⟩

end CompilationSection

structure WindowSummary where
  window : Nat
  attempts : Selection
  formValid : Bool
  compilation : CompileStatus
  score : Single
  outputFile : Option String
  deriving Repr, DecidableEq, Inhabited

namespace WindowSummary

def ofOutcome (outputFile : Option String) (window : WindowOutcome) : WindowSummary :=
  ⟨window.window, window.variant.provenance, window.verdict.formValid, window.verdict.status,
    window.verdict.score, outputFile⟩

def toJson (summary : WindowSummary) : Json :=
  .object ([("window", nat summary.window), ("attempts", Selection.toJson summary.attempts),
    ("syntax_valid", .bool summary.formValid), ("compilation", .string summary.compilation.name),
    ("quality_score", single summary.score)] ++
    optionalMember "output_file" .string summary.outputFile)

def decode : Decoder WindowSummary := record do
  return ⟨← required "window" .u32, ← required "attempts" Selection.decode,
    ← required "syntax_valid" .bool, ← required "compilation" (.choice CompileStatus.names),
    ← required "quality_score" .single, ← optional "output_file" .string⟩

end WindowSummary

/-- How the work on a unit ended, in one word. -/
inductive UnitCategory where
  | succeeded
  | failedEnvironment
  | failedActionable
  | notAttempted
  /-- A later function found no candidate, after the last variant was accepted. -/
  | halted
  | errored
  deriving Repr, DecidableEq, Inhabited

namespace UnitCategory

def name : UnitCategory → String
  | succeeded => "succeeded"
  | failedEnvironment => "failed_environment"
  | failedActionable => "failed_actionable"
  | notAttempted => "not_attempted"
  | halted => "halted"
  | errored => "errored"

def names : List (String × UnitCategory) :=
  [succeeded, failedEnvironment, failedActionable, notAttempted, halted, errored].map
    fun c => (c.name, c)

def isFailure : UnitCategory → Bool
  | succeeded | failedEnvironment => false
  | failedActionable | notAttempted | halted | errored => true

end UnitCategory

structure UnitReport where
  schemaVersion : String
  generatedAt : Instant
  unitId : String
  sourceFile : String
  trial : Nat
  functions : List String
  mergeBackRequested : Nat
  windowReached : Nat
  accepted : Bool
  outputFile : Option String
  quality : Option QualitySection
  compilation : Option CompilationSection
  tests : Option SmokeTest
  repairs : OrdinalMap RepairState
  windows : List WindowSummary
  haltedAt : Option Nat
  duration : Nat
  error : Option String
  deriving Repr, DecidableEq, Inhabited

def reportSchemaVersion : String := "1.0"

namespace UnitReport

/-- The report on work that came to an outcome; `outputFiles` are the files of the variants by their
windows. -/
def ofOutcome (generatedAt : Instant) (duration : Nat) (unit : SourceUnit) (outcome : UnitOutcome)
    (outputFiles : OrdinalMap String) : UnitReport where
  schemaVersion := reportSchemaVersion
  generatedAt
  unitId := unit.id.name
  sourceFile := unit.path
  trial := unit.trial
  functions := unit.functions
  mergeBackRequested := outcome.windowRequested
  windowReached := outcome.windowReached
  accepted := outcome.isAccepted
  outputFile := outputFiles.get? outcome.windowReached
  quality := outcome.verdict?.map .ofVerdict
  compilation := outcome.verdict?.map .ofVerdict
  tests := outcome.verdict?.bind (·.smokeTest)
  repairs := outcome.repairs
  windows := outcome.windows.map fun window =>
    .ofOutcome (outputFiles.get? window.window) window
  haltedAt := outcome.haltedAt
  duration
  error := none

def ofError (generatedAt : Instant) (unit : SourceUnit) (mergeBack : Nat) (error : String) :
    UnitReport where
  schemaVersion := reportSchemaVersion
  generatedAt
  unitId := unit.id.name
  sourceFile := unit.path
  trial := unit.trial
  functions := unit.functions
  mergeBackRequested := mergeBack
  windowReached := 0
  accepted := false
  outputFile := none
  quality := none
  compilation := none
  tests := none
  repairs := ∅
  windows := []
  haltedAt := none
  duration := 0
  error := some error

def category (report : UnitReport) : UnitCategory :=
  if report.error.isSome then .errored
  else
    match report.compilation.map CompilationSection.status, report.accepted with
    | some .failedActionable, _ => .failedActionable
    | some .notAttempted, _ => .notAttempted
    | some .succeeded, true => .succeeded
    | some .failedEnvironment, true => .failedEnvironment
    | none, _ => if report.haltedAt.isNone then .notAttempted else .halted
    | _, _ => .halted

def score? (report : UnitReport) : Option Single := report.quality.map (·.score)

def toJson (report : UnitReport) : Json :=
  .object ([("schema_version", .string report.schemaVersion),
    ("generated_at", report.generatedAt.toJson), ("unit_id", .string report.unitId),
    ("source_file", .string report.sourceFile), ("trial", nat report.trial),
    ("functions", strings report.functions), ("merge_back_requested", nat report.mergeBackRequested),
    ("window_reached", nat report.windowReached), ("accepted", .bool report.accepted)] ++
    optionalMember "output_file" .string report.outputFile ++
    optionalMember "quality" QualitySection.toJson report.quality ++
    optionalMember "compilation" CompilationSection.toJson report.compilation ++
    optionalMember "tests" SmokeTest.toJson report.tests ++
    [("repair", ofOrdinalMap RepairState.toJson report.repairs),
      ("windows", .array (report.windows.map WindowSummary.toJson))] ++
    optionalMember "halted_at" nat report.haltedAt ++ [("duration_ms", nat report.duration)] ++
    optionalMember "error" .string report.error)

def decode : Decoder UnitReport := record do
  return ⟨← required "schema_version" .string, ← required "generated_at" Instant.decode,
    ← required "unit_id" .string, ← required "source_file" .string, ← required "trial" .u32,
    ← required "functions" (.list .string), ← required "merge_back_requested" .u32,
    ← required "window_reached" .u32, ← required "accepted" .bool,
    ← optional "output_file" .string, ← optional "quality" QualitySection.decode,
    ← optional "compilation" CompilationSection.decode, ← optional "tests" SmokeTest.decode,
    ← required "repair" (.ordinalMap RepairState.decode),
    ← required "windows" (.list WindowSummary.decode), ← optional "halted_at" .u32,
    ← required "duration_ms" .u64, ← optional "error" .string⟩

end UnitReport

end Graft
