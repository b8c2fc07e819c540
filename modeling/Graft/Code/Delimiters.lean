import Graft.Code.Mask

/-!
Pairing of parentheses, brackets and braces in masked text. A closing delimiter is held against the
innermost open one: it closes it, is reported as mismatched, or is reported as unmatched when none
is open. What stays open is reported at its place.
-/

namespace Graft.Code

open Graft.Text

inductive Delimiter where
  | paren
  | bracket
  | brace
  deriving Repr, DecidableEq, Inhabited

namespace Delimiter

def opening : Delimiter → Char
  | paren => '('
  | bracket => '['
  | brace => '{'

def closing : Delimiter → Char
  | paren => ')'
  | bracket => ']'
  | brace => '}'

def ofOpening? (c : Char) : Option Delimiter :=
  if c = '(' then some paren else if c = '[' then some bracket
  else if c = '{' then some brace else none

def ofClosing? (c : Char) : Option Delimiter :=
  if c = ')' then some paren else if c = ']' then some bracket
  else if c = '}' then some brace else none

@[simp] theorem ofOpening?_opening (kind : Delimiter) : ofOpening? kind.opening = some kind := by
  cases kind <;> rfl

@[simp] theorem ofOpening?_closing (kind : Delimiter) : ofOpening? kind.closing = none := by
  cases kind <;> rfl

@[simp] theorem ofClosing?_closing (kind : Delimiter) : ofClosing? kind.closing = some kind := by
  cases kind <;> rfl

@[simp] theorem opening_inj {first second : Delimiter} :
    first.opening = second.opening ↔ first = second := by
  cases first <;> cases second <;> decide

@[simp] theorem closing_inj {first second : Delimiter} :
    first.closing = second.closing ↔ first = second := by
  cases first <;> cases second <;> decide

@[simp] theorem opening_ne_closing (first second : Delimiter) : first.opening ≠ second.closing := by
  cases first <;> cases second <;> decide

theorem eq_of_ofOpening? {c : Char} {kind : Delimiter} (h : ofOpening? c = some kind) :
    c = kind.opening := by
  unfold ofOpening? at h
  repeat' split at h
  all_goals cases h
  all_goals assumption

theorem eq_of_ofClosing? {c : Char} {kind : Delimiter} (h : ofClosing? c = some kind) :
    c = kind.closing := by
  unfold ofClosing? at h
  repeat' split at h
  all_goals cases h
  all_goals assumption

end Delimiter

abbrev Opened := Delimiter × Place

def mismatch (found : Delimiter) (place : Place) (opened : Opened) : Issue :=
  let (kind, start) := opened
  errorAt place s!"mismatched '{found.closing}', expected '{kind.closing}' to close '{kind.opening}' from line {start.line}"

/-- The issues of the delimiters from a place on, given those that are open, innermost first. -/
def delimiterIssuesFrom (place : Place) (opened : List Opened) : List Char → List Issue
  | [] => opened.reverse.map fun (kind, start) => errorAt start s!"unclosed '{kind.opening}'"
  | c :: rest =>
      let next := place.step c
      match Delimiter.ofOpening? c, Delimiter.ofClosing? c with
      | some kind, _ => delimiterIssuesFrom next ((kind, place) :: opened) rest
      | none, none => delimiterIssuesFrom next opened rest
      | none, some kind =>
          match opened with
          | [] => errorAt place s!"unmatched '{kind.closing}'" :: delimiterIssuesFrom next [] rest
          | top :: outer =>
              if top.1 = kind then delimiterIssuesFrom next outer rest
              else mismatch kind place top :: delimiterIssuesFrom next outer rest

def delimiterIssues (masked : List Char) : List Issue := delimiterIssuesFrom .origin [] masked

end Graft.Code
