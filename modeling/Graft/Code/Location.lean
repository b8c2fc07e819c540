import Graft.Code.Definition
import Graft.Text.Blank
import Graft.Text.Search
import Graft.Text.Numeral

/-!
Which stretch of a text an identifier names. An identifier is a name, or a name and the number of
the occurrence that is meant, `name@2`; a name stands for itself and for every qualified name that
ends in it. A list of identifiers must name definitions in the order of the text, each of them once.
-/

namespace Graft.Code

open Graft.Text

/-- The bytes of a text that one function takes, and the number of that function, which has 32 bits in a
text of less than four gibibytes (`numbers_fit`). -/
structure Span where
  ordinal : Nat
  start : Nat
  stop : Nat
  deriving Repr, DecidableEq, Inhabited

namespace Span

def size (span : Span) : Nat := span.stop - span.start

/-- The text that the span covers; nothing when its ends lie inside characters. -/
def slice? (span : Span) (text : String) : Option String :=
  (Text.slice? text.toList span.start span.stop).map String.ofList

end Span

/-- Whether the definition has the name, alone or behind a qualification. -/
def Definition.answersTo (definition : Definition) (name : String) : Bool :=
  definition.name == name ||
    ((name.toList.length + 2 < definition.name.toList.length) && endsWith ("::" ++ name) definition.name)

/-- A name, and the occurrence of it that is meant. -/
structure Identifier where
  name : String
  occurrence : Option Nat
  deriving Repr, DecidableEq

/-- Reads an identifier; white space around it is ignored, and none may be inside its name. -/
def Identifier.read? (text : String) : Option Identifier := do
  let body := trim text.toList
  let (name, occurrence) ← match cutLast? '@' body with
    | some (name, number) => do
        let number ← readU64? (String.ofList number)
        if number = 0 then none else some (name, some number)
    | none => some (body, none)
  if name.isEmpty || name.any isBlank then none
  else some ⟨String.ofList name, occurrence⟩

def resolve (definitions : List Definition) (identifier : String) : Except LocateError Definition :=
  match Identifier.read? identifier with
  | none => .error (.invalidIdentifier identifier)
  | some ⟨name, occurrence⟩ =>
      let candidates := definitions.filter (·.answersTo name)
      match candidates, occurrence with
      | [], _ => .error (.notFound identifier)
      | _, some number =>
          match candidates[number - 1]? with
          | some definition => .ok definition
          | none => .error (.notFound identifier)
      | [definition], none => .ok definition
      | _, none => .error (.ambiguous identifier candidates.length)

/-- The spans of the identifiers, numbered on from the spans that were selected before. -/
def locateFrom (definitions : List Definition) (selected : List Span) :
    List String → Except LocateError (List Span)
  | [] => .ok []
  | identifier :: rest => do
      let definition ← resolve definitions identifier
      if selected.any (·.start == definition.start) then .error (.duplicate identifier)
      else if selected.getLast?.any (definition.start < ·.stop) then
        .error (.outOfOrder identifier)
      else
        let span : Span := ⟨selected.length + 1, definition.start, definition.stop⟩
        let spans ← locateFrom definitions (selected ++ [span]) rest
        return span :: spans

def locate (text : String) (identifiers : List String) : Except LocateError (List Span) := do
  let definitions ← discover text
  locateFrom definitions [] identifiers

/-- The identifiers of the definitions after some others, each with the number of its occurrence
where its name alone does not tell it from the rest. -/
def identifiersFrom (all before : List Definition) : List Definition → List String
  | [] => []
  | definition :: rest =>
      let same := fun (other : Definition) => other.answersTo definition.name
      let here :=
        if (all.filter same).length = 1 then definition.name
        else s!"{definition.name}@{((before ++ [definition]).filter same).length}"
      here :: identifiersFrom all (before ++ [definition]) rest

def discoverIdentifiers (text : String) (limit : Nat) : Except LocateError (List String) := do
  let definitions ← discover text
  return identifiersFrom definitions [] (definitions.take limit)

end Graft.Code
