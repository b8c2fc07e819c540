import Graft.Text.Blank
import Graft.Text.Search

/-!
The code in a reply. A reply may hold its code in a fenced block: a line that opens with three
backticks, the code, and three backticks again. `extractCode` takes the body of the first such
block, and the whole reply when there is none.
-/

namespace Graft.Generation

open Graft.Text

def fence : List Char := ['`', '`', '`']

/-- What stands between the line that opens a block and the end of the block. A block that is not
closed reaches to the end of the text. -/
def blockBody (afterFence : List Char) : List Char :=
  let body := match cutFirst? '\n' afterFence with
    | some (_, body) => body
    | none => []
  match find? fence body with
  | some (code, _) => code
  | none => body

/-- The code of a block: its body without the empty lines around it and without white space at its
end; the indentation of its first line stays. -/
def blockCode (body : List Char) : List Char :=
  dropEndWhile isBlank (trimWhile (· == '\n') body)

/-- The code in a reply; nothing when it is blank. -/
def extractCode (reply : String) : Option String :=
  let text := trim reply.toList
  let code := match find? fence text with
    | some (_, afterFence) => blockCode (blockBody afterFence)
    | none => text
  if code.all isBlank then none else some (String.ofList code)

end Graft.Generation
