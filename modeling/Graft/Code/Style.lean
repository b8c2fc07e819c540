import Graft.Code.Mask
import Graft.Text.Lines

/-!
Warnings about style, line by line: lines that are too long, and control statements whose body is
empty.
-/

namespace Graft.Code

open Graft.Text

/-- The longest line without a warning, in bytes. -/
def maxLineBytes : Nat := 200

/-- The word of a control statement whose whole line is its header and an empty statement. -/
def emptyBodyWord? (line : List Char) : Option String := do
  let start := line.dropWhile isBlank
  let (word, rest) ←
    (dropHead? "if".toList start).map (("if", ·)) <|>
      (dropHead? "for".toList start).map (("for", ·))
  match rest.dropWhile isBlank with
  | '(' :: body =>
      let ended := dropEndWhile isBlank body
      if ended.getLast? = some ';' ∧
          (dropEndWhile isBlank ended.dropLast).getLast? = some ')' then some word
      else none
  | _ => none

def styleIssuesFrom (number : Nat) : List (List Char) → List Issue
  | [] => []
  | line :: rest =>
      let long := if maxLineBytes < byteLength line then
          [⟨.warning, s!"line longer than {maxLineBytes} characters", some number,
            some (maxLineBytes + 1)⟩]
        else []
      let bare := match emptyBodyWord? line with
        | some word => [⟨.warning, s!"empty body after '{word}'", some number, some 1⟩]
        | none => []
      long ++ bare ++ styleIssuesFrom (number + 1) rest

def styleIssues (masked : List Char) : List Issue := styleIssuesFrom 1 (splitAtChar '\n' masked)

end Graft.Code
