import Graft.Number.Single

/-!
What an analysis can hold against a text: issues of form and findings of risky constructs.
-/

namespace Graft

open Number

/-- How grave an issue of form is. Only errors make a text invalid. -/
inductive IssueLevel where
  | warning
  | error
  deriving Repr, DecidableEq, Inhabited

namespace IssueLevel

def names : List (String × IssueLevel) := [("warning", warning), ("error", error)]

def name : IssueLevel → String
  | warning => "warning"
  | error => "error"

end IssueLevel

structure Issue where
  level : IssueLevel
  message : String
  line : Option Nat
  column : Option Nat
  deriving Repr, DecidableEq, Inhabited

/-- How grave a risky construct is. -/
inductive Severity where
  | info
  | low
  | medium
  | high
  | critical
  deriving Repr, DecidableEq, Inhabited

namespace Severity

def names : List (String × Severity) :=
  [("info", info), ("low", low), ("medium", medium), ("high", high), ("critical", critical)]

def name : Severity → String
  | info => "info"
  | low => "low"
  | medium => "medium"
  | high => "high"
  | critical => "critical"

def title (severity : Severity) : String := severity.name.capitalize

/-- What one finding takes off the quality score, in hundredths. -/
def hundredths : Severity → Nat
  | info => 1
  | low => 3
  | medium => 8
  | high => 15
  | critical => 30

def weight (severity : Severity) : Single := .ofQuotient severity.hundredths 100

end Severity

structure Finding where
  rule : String
  severity : Severity
  message : String
  line : Nat
  deriving Repr, DecidableEq, Inhabited

end Graft
