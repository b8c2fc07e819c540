import Graft.Code.Form
import Graft.Code.Hazard

/-!
Judging a text without compiling it: its issues of form, and when none of them is an error, its
unsafe constructs and a quality score between zero and one.
-/

namespace Graft.Code

open Graft.Number Graft.Text

structure Analysis where
  issues : List Issue
  findings : List Finding
  score : Single
  deriving Repr, DecidableEq, Inhabited

/-- Whether the text has no error of form. -/
def Analysis.isValid (analysis : Analysis) : Bool := !hasError analysis.issues

/-- The most that the density of findings takes off the score. -/
def maxDensityPenalty : Single := .ofQuotient 3 10

/-- The quality score: one less the weights of the findings, less two hundredths for each warning,
less a twentieth for each finding in a hundred lines. -/
def qualityScore (severities : List Severity) (warnings lines : Nat) : Single :=
  let weights := severities.foldl (fun sum severity => sum + severity.weight) Single.zero
  let density := (Single.ofNat severities.length / Single.ofNat (max lines 1) * Single.ofNat 100 *
    Single.ofQuotient 5 100).min maxDensityPenalty
  (Single.one - weights - Single.ofQuotient 2 100 * Single.ofNat warnings - density).clamp .zero .one

def analyze (text : String) : Analysis :=
  let issues := formIssues text
  if hasError issues then ⟨issues, [], .zero⟩
  else
    let findings := hazards text
    let warnings := (issues.filter (·.level == .warning)).length
    ⟨issues, findings, qualityScore (findings.map (·.severity)) warnings (lineCount text)⟩

end Graft.Code
