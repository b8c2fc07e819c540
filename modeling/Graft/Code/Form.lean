import Graft.Code.Delimiters
import Graft.Code.Termination
import Graft.Code.Style

/-!
The form of a text: what is wrong with its literals, comments and delimiters, which of its statements
lack a semicolon, and what its style is warned about. Statements are judged only when nothing else
is wrong.
-/

namespace Graft.Code

def hasError (issues : List Issue) : Bool := issues.any (·.level == .error)

def Issue.isBefore (a b : Issue) : Bool :=
  let line (i : Issue) := i.line.getD 0
  let column (i : Issue) := i.column.getD 0
  line a < line b || (line a == line b && column a ≤ column b)

/-- The issues of form of a text, in the order of their places. -/
def formIssues (text : String) : List Issue :=
  let masked := mask text.toList
  let structural := masked.issues ++ delimiterIssues masked.text
  let statements := if hasError structural then [] else terminatorIssues masked.text
  (structural ++ statements ++ styleIssues masked.text).mergeSort Issue.isBefore

end Graft.Code
