import Graft.Code.Scope
import Graft.Text.Lines

/-!
Statements without their semicolon. A line inside a body that ends like a finished expression, that
no next line continues and that closes no header of a control statement, must end with a semicolon.
-/

namespace Graft.Code

open Graft.Text

/-- Words whose lines end without a semicolon. -/
def controlWords : List String :=
  ["if", "else", "for", "while", "do", "switch", "case", "default", "try", "catch"]

/-- Words whose parenthesized header may span several lines. -/
def headerWords : List String := ["if", "for", "while", "switch", "catch"]

/-- Characters at the start of a line that go on with the expression before it. -/
def continuationMarks : List Char := "\x7b.-+*/%&|^?:=<>)],(;\"[".toList

/-- Whether a parenthesis behind a text, last character first, opens a header. -/
def opensHeader (before : List Char) : Bool :=
  headerWords.contains (lastWord (before.dropWhile isAsciiBlank))

/-- The byte offsets of the parentheses that close a header. `opened` tells of each open one
whether it opened a header, and `before` is the text so far, last character first. -/
def headerClosersFrom (offset : Nat) (opened : List Bool) (before : List Char) :
    List Char → List Nat
  | [] => []
  | c :: rest =>
      let next := offset + c.utf8Size
      if c = '(' then headerClosersFrom next (opensHeader before :: opened) (c :: before) rest
      else if c = ')' then
        let inner := headerClosersFrom next opened.tail (c :: before) rest
        if opened.head? = some true then offset :: inner else inner
      else headerClosersFrom next opened (c :: before) rest

/-- The byte offsets of the parentheses that close a header of a control statement. -/
def headerClosers (masked : List Char) : List Nat := headerClosersFrom 0 [] [] masked

/-- Whether a statement is a call whose name has the form of a macro's. -/
def isMacroCall (statement : List Char) : Bool :=
  let name := statement.takeWhile isWordByte
  1 < name.length && (statement.drop name.length).head? == some '(' &&
    name.all fun c => c.isUpper || c.isDigit || c == '_'

/-- Whether the first of the lines that holds anything goes on with the expression before it. -/
def isContinued (following : List (List Char)) : Bool :=
  match following.map (·.dropWhile isAsciiBlank) |>.find? (!·.isEmpty) with
  | some (c :: _) => continuationMarks.contains c
  | _ => false

/-- Whether a line that ends at `state` has to end with a semicolon and does not. -/
def lacksSemicolon (closers : List Nat) (start : Nat) (state : LineEnd) (line : List Char)
    (following : List (List Char)) : Bool :=
  let ended := dropEndWhile isAsciiBlank line
  let statement := ended.dropWhile fun c => c == '}' || isAsciiBlank c
  let word := String.ofList (statement.takeWhile isWordByte)
  state.scope == some .block && state.depth == 0 &&
    (match ended.getLast? with
      | none => false
      | some last =>
          (isWordByte last || last == ')' || last == ']' || last == '"' || last == '\'') &&
            !(last == ')' && closers.contains (start + byteLength ended - 1))) &&
    !controlWords.contains word && !isMacroCall statement && !isContinued following

/-- The issues of lines without their semicolon, given the number and the offset of the first. -/
def terminatorIssuesFrom (closers : List Nat) (number start : Nat) :
    List LineEnd → List (List Char) → List Issue
  | state :: states, line :: following =>
      let rest := terminatorIssuesFrom closers (number + 1) (start + byteLength line + 1) states following
      if lacksSemicolon closers start state line following then
        let column := byteLength (dropEndWhile isAsciiBlank line) + 1
        ⟨.error, "expected ';' after statement", some number, some column⟩ :: rest
      else rest
  | _, _ => []

def terminatorIssues (masked : List Char) : List Issue :=
  terminatorIssuesFrom (headerClosers masked) 1 0 (lineEnds masked) (splitAtChar '\n' masked)

end Graft.Code
