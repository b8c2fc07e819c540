import Graft.Verdict.Basic
import Graft.Compiler.Diagnostic
import Graft.Json.Decoder

/-!
Verdicts and their parts as JSON.
-/

namespace Graft

open Json Compiler

namespace Issue

def toJson (issue : Issue) : Json :=
  .object [("level", .string issue.level.name), ("message", .string issue.message),
    ("line", orNull nat issue.line), ("column", orNull nat issue.column)]

def decode : Decoder Issue := record do
  return ⟨← required "level" (.choice IssueLevel.names), ← required "message" .string,
    ← nullableField "line" .u32, ← nullableField "column" .u32⟩

end Issue

namespace Finding

def toJson (finding : Finding) : Json :=
  .object [("rule", .string finding.rule), ("severity", .string finding.severity.name),
    ("message", .string finding.message), ("line", nat finding.line)]

def decode : Decoder Finding := record do
  return ⟨← required "rule" .string, ← required "severity" (.choice Severity.names),
    ← required "message" .string, ← required "line" .u32⟩

end Finding

namespace SmokeTest

def toJson (test : SmokeTest) : Json :=
  .object [("passed", .bool test.passed), ("exit_code", orNull int test.exitCode),
    ("output", .string test.output), ("failures", strings test.failures)]

def decode : Decoder SmokeTest := record do
  return ⟨← required "passed" .bool, ← nullableField "exit_code" .i32,
    ← required "output" .string, ← required "failures" (.list .string)⟩

end SmokeTest

namespace Compiler.Diagnostic

def toJson (diagnostic : Diagnostic) : Json :=
  .object [("file", .string diagnostic.file), ("line", nat diagnostic.line),
    ("column", orNull nat diagnostic.column), ("severity", .string diagnostic.severity),
    ("message", .string diagnostic.message)]

def decode : Decoder Diagnostic := record do
  return ⟨← required "file" .string, ← required "line" .u32, ← nullableField "column" .u32,
    ← required "severity" .string, ← required "message" .string⟩

end Compiler.Diagnostic

namespace Verdict

def toJson (verdict : Verdict) : Json :=
  .object ([("syntax_valid", .bool verdict.formValid),
    ("syntax_issues", .array (verdict.issues.map Issue.toJson)),
    ("security_findings", .array (verdict.findings.map Finding.toJson)),
    ("quality_score", single verdict.score), ("compilation_status", .string verdict.status.name),
    ("compiler_output", .string verdict.compilerOutput)] ++
    optionalMember "smoke_test" SmokeTest.toJson verdict.smokeTest)

def decode : Decoder Verdict := record do
  return ⟨← required "syntax_valid" .bool, ← required "syntax_issues" (.list Issue.decode),
    ← required "security_findings" (.list Finding.decode), ← required "quality_score" .single,
    ← required "compilation_status" (.choice CompileStatus.names),
    ← required "compiler_output" .string, ← optional "smoke_test" SmokeTest.decode⟩

end Verdict

end Graft
