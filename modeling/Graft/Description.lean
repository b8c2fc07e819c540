import Graft.Json.Decoder

/-!
Reading descriptions: objects whose fields are looked up by name. A field that is missing counts as
null, and of a field that cannot be read the name is told.
-/

namespace Graft

open Json

inductive Fault where
  /-- A field cannot be read. -/
  | field (name : String)
  /-- A value within the description cannot be read. -/
  | value
  /-- A pattern cannot be read. -/
  | pattern (text : String)
  deriving Repr, DecidableEq, Inhabited

abbrev Described := Except Fault

namespace Description

/-- A field as it stands, null when it is missing. -/
def raw (input : Json) (name : String) : Json := (input.member? name).getD .null

def orFault {α : Type} (name : String) : Option α → Described α
  | some value => .ok value
  | none => .error (.field name)

def field {α : Type} (input : Json) (name : String) (decode : Decoder α) : Described α :=
  orFault name (decode (raw input name))

/-- A field of a type that has a value of its own when it is missing or null. -/
def fieldOr {α : Type} (input : Json) (name : String) (decode : Decoder α) (default : α) :
    Described α :=
  (field input name (.nullable decode)).map (·.getD default)

def typed {α : Type} (value : Json) (decode : Decoder α) : Described α :=
  match decode value with
  | some value => .ok value
  | none => .error .value

def text (input : Json) (name : String) : Described String := field input name .string

def texts (input : Json) (name : String) : Described (List String) :=
  field input name (.list .string)

def items (input : Json) (name : String) : Described (List Json) := field input name (.list some)

/-- A field that is a truth value, false when it is missing. -/
def flag (input : Json) (name : String) : Described Bool := fieldOr input name .bool false

end Description

end Graft
