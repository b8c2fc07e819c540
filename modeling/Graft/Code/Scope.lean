import Graft.Code.Mask

/-!
What the braces around a line mean, as far as the ends of statements are concerned. Every opening
brace is judged by the text since the last boundary in front of it.
-/

namespace Graft.Code

open Graft.Text

inductive Scope where
  /-- A body or compound statement, whose statements end with a semicolon. -/
  | block
  /-- A braced initializer. -/
  | initializer
  /-- The members of a structure, union, class or enumeration. -/
  | aggregate
  /-- A namespace, a linkage block, or what is not recognized. -/
  | other
  deriving Repr, DecidableEq, Inhabited

/-- The maximal runs of word characters. -/
def wordsOf : List Char → List Char → List (List Char)
  | [], [] => []
  | current, [] => [current.reverse]
  | current, c :: rest =>
      if isWordByte c then wordsOf (c :: current) rest
      else if current.isEmpty then wordsOf [] rest
      else current.reverse :: wordsOf [] rest

def hasWord (word : String) (text : List Char) : Bool := (wordsOf [] text).contains word.toList

/-- The word at the end of a text that is given last character first. -/
def lastWord (reversed : List Char) : String :=
  String.ofList (reversed.takeWhile isWordByte).reverse

/-- Characters in front of an equals sign that make another operator of it. -/
def operatorHeads : List Char :=
  ['=', '!', '<', '>', '+', '-', '*', '/', '%', '&', '|', '^']

/-- Whether a plain equals sign stands outside parentheses and brackets. -/
def hasAssignment (text : List Char) : Bool := go 0 ' ' text
where
  go (depth : Int) (previous : Char) : List Char → Bool
    | [] => false
    | c :: rest =>
        if c = '(' ∨ c = '[' then go (depth + 1) c rest
        else if c = ')' ∨ c = ']' then go (depth - 1) c rest
        else if c = '=' ∧ depth ≤ 0 ∧ previous ∉ operatorHeads ∧ rest.head? ≠ some '=' then true
        else go depth c rest

/-- What a brace opens behind a text that is given last character first. -/
def scopeBehind (reversed : List Char) (parent : Option Scope) : Scope :=
  let trimmed := reversed.dropWhile isAsciiBlank
  let text := trimmed.reverse
  match trimmed with
  | [] =>
      match parent with
      | some .block => .block
      | some .initializer => .initializer
      | _ => .other
  | last :: _ =>
      if (["enum", "struct", "union", "class"].any fun word => hasWord word text) &&
          !text.contains '(' then .aggregate
      else if last = '=' ∨ last = ',' ∨ last = '{' then .initializer
      else if last = ')' ∧ hasAssignment text then .initializer
      else if last = ')' ∨ last = ']' then .block
      else if last = ':' ∧ parent = some .block then .block
      else if isWordByte last then
        let word := lastWord trimmed
        if ["else", "do", "try"].contains word then .block
        else if word = "return" then .initializer
        else if hasWord "namespace" text || hasWord "extern" text then .other
        else if text.contains '(' && !hasAssignment text then .block
        else .other
      else .other

/-- What is open at the end of a line: the innermost brace, and the depth of parentheses and
brackets inside it. -/
structure LineEnd where
  scope : Option Scope
  depth : Int
  deriving Repr, DecidableEq, Inhabited

/-- The ends of the lines that follow. `enclosing` are the open braces with the depth that they
interrupted, `head` is the text since the last boundary, last character first. -/
def lineEndsFrom (enclosing : List (Scope × Int)) (depth : Int) (head : List Char) :
    List Char → List LineEnd
  | [] => [⟨enclosing.head?.map (·.1), depth⟩]
  | c :: rest =>
      if c = '(' ∨ c = '[' then lineEndsFrom enclosing (depth + 1) (c :: head) rest
      else if c = ')' ∨ c = ']' then lineEndsFrom enclosing (depth - 1) (c :: head) rest
      else if c = '{' then
        let scope := scopeBehind head (enclosing.head?.map (·.1))
        lineEndsFrom ((scope, depth) :: enclosing) 0 [] rest
      else if c = '}' then
        match enclosing with
        | [] => lineEndsFrom [] depth [] rest
        | (_, interrupted) :: outer => lineEndsFrom outer interrupted [] rest
      else if c = ';' ∧ depth = 0 then lineEndsFrom enclosing depth [] rest
      else if c = '\n' then
        ⟨enclosing.head?.map (·.1), depth⟩ :: lineEndsFrom enclosing depth (c :: head) rest
      else lineEndsFrom enclosing depth (c :: head) rest

def lineEnds (masked : List Char) : List LineEnd := lineEndsFrom [] 0 [] masked

end Graft.Code
