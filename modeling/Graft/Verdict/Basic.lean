import Graft.Verdict.Issue
import Graft.Compiler.Output

/-!
Verdicts on variants of a source text. A verdict says whether the text has a valid form and how
its compilation ended. A variant is accepted when its form is valid and its compilation did not fail
for a reason that another candidate could mend.
-/

namespace Graft

open Number Compiler Text

inductive CompileStatus where
  /-- The form was not valid, so the compiler was not called. -/
  | notAttempted
  | succeeded
  /-- It failed only for reasons outside the text, such as a header that is not installed. -/
  | failedEnvironment
  /-- It failed for a reason that another candidate could mend. -/
  | failedActionable
  deriving Repr, DecidableEq, Inhabited

namespace CompileStatus

def name : CompileStatus → String
  | notAttempted => "not_attempted"
  | succeeded => "succeeded"
  | failedEnvironment => "failed_environment"
  | failedActionable => "failed_actionable"

def names : List (String × CompileStatus) :=
  [notAttempted, succeeded, failedEnvironment, failedActionable].map fun s => (s.name, s)

end CompileStatus

structure SmokeTest where
  passed : Bool
  exitCode : Option Int
  output : String
  failures : List String
  deriving Repr, DecidableEq, Inhabited

structure Verdict where
  formValid : Bool
  issues : List Issue
  findings : List Finding
  score : Single
  status : CompileStatus
  compilerOutput : String
  smokeTest : Option SmokeTest
  deriving Repr, DecidableEq, Inhabited

namespace Verdict

def malformed (issues : List Issue) : Verdict :=
  ⟨false, issues, [], .zero, .notAttempted, "", none⟩

def compiled (issues : List Issue) (findings : List Finding) (score : Single)
    (status : CompileStatus) (output : String) : Verdict :=
  ⟨true, issues, findings, score.clamp .zero .one, status, output, none⟩

/-- Whether the variant can stand. -/
def isAccepted (verdict : Verdict) : Bool :=
  verdict.formValid && verdict.status != .failedActionable

def needsRepair (verdict : Verdict) : Bool := !verdict.isAccepted

def errors (verdict : Verdict) : List String := errorLines verdict.compilerOutput

def warnings (verdict : Verdict) : List String := warningLines verdict.compilerOutput

def errorCounts (verdict : Verdict) : List (ErrorCategory × Nat) := ErrorCategory.count verdict.errors

def lastLines (count : Nat) (text : String) : String :=
  let all := lines text
  "\n".intercalate (all.drop (all.length - count))

/-- Why the variant was rejected, in the words in which a better candidate is asked for. -/
def failureReason (verdict : Verdict) : String :=
  if !verdict.formValid then
    let shown := (verdict.issues.filter (·.level == .error)).take 5
    "syntax errors:\n" ++ "\n".intercalate (shown.map fun issue =>
      match issue.line with
      | some line => s!"line {line}: {issue.message}"
      | none => issue.message)
  else if verdict.errors.isEmpty then
    "compilation failed:\n" ++ lastLines 10 verdict.compilerOutput
  else
    let counts := verdict.errorCounts.map fun (category, n) => s!"{category.name} x{n}"
    let shown := (verdict.errors.take 10).map fun line => s!"[{(ErrorCategory.ofLine line).name}] {line}"
    "compilation errors (" ++ ", ".intercalate counts ++ "):\n" ++ "\n".intercalate shown

end Verdict

end Graft
