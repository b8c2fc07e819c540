import Graft.Number.Single
import Graft.Number.Shortest
import Graft.Text.Numeral
import Graft.OrdinalMap

/-!
JSON values. Members keep the order in which they are written, and a number keeps its decimal
numeral together with whether it was written as an integer, since a whole number with a fraction
is not an integer to a reader of typed data.
-/

namespace Graft

namespace Json

/-- A decimal numeral: `digits` times a power of ten. -/
structure Numeral where
  negative : Bool
  digits : Nat
  exponent : Int
  /-- Written without fraction and exponent, and not a negative zero. -/
  integral : Bool
  deriving Repr, DecidableEq, Inhabited

def Numeral.ofNat (n : Nat) : Numeral := ⟨false, n, 0, true⟩

def Numeral.ofInt (n : Int) : Numeral := ⟨n < 0, n.natAbs, 0, true⟩

end Json

inductive Json where
  | null
  | bool (value : Bool)
  | number (numeral : Json.Numeral)
  | string (text : String)
  | array (items : List Json)
  | object (members : List (String × Json))
  deriving Repr, Inhabited

namespace Json

open Graft.Number

def nat (n : Nat) : Json := .number (.ofNat n)

def int (n : Int) : Json := .number (.ofInt n)

/-- A number of single precision as the shortest numeral that reads back; null when it is infinite
or undefined. -/
def single (number : Single) : Json :=
  match number.value with
  | .finite negative 0 _ => .number ⟨negative, 0, 0, false⟩
  | .finite negative significand exponent =>
      let decimal := shortest .single significand exponent
      .number ⟨negative, decimal.digits, decimal.exponent, false⟩
  | _ => .null

def strings (texts : List String) : Json := .array (texts.map .string)

def orNull (encode : α → Json) : Option α → Json
  | some value => encode value
  | none => .null

/-- A member that is written only when there is a value. -/
def optionalMember (name : String) (encode : α → Json) : Option α → List (String × Json)
  | some value => [(name, encode value)]
  | none => []

/-- The last member of a name. -/
def member? (name : String) : Json → Option Json
  | .object members => (members.reverse.find? (·.1 == name)).map (·.2)
  | _ => none

/-- A map from ordinals as an object with decimal names, in ascending order of the keys. -/
def ofOrdinalMap (encode : α → Json) (map : OrdinalMap α) : Json :=
  .object (map.entries.map fun (key, value) => (toString key, encode value))

def without (names : List String) : Json → Json
  | .object members => .object (members.filter fun (name, _) => !names.contains name)
  | value => value

mutual

/-- The value with its texts and its numerals changed; the names of members stay. -/
def mapLeaves (onText : String → String) (onNumeral : Numeral → Numeral) : Json → Json
  | .string text => .string (onText text)
  | .number numeral => .number (onNumeral numeral)
  | .array items => .array (mapItems onText onNumeral items)
  | .object members => .object (mapMembers onText onNumeral members)
  | .null => .null
  | .bool value => .bool value

def mapItems (onText : String → String) (onNumeral : Numeral → Numeral) : List Json → List Json
  | [] => []
  | item :: rest => mapLeaves onText onNumeral item :: mapItems onText onNumeral rest

def mapMembers (onText : String → String) (onNumeral : Numeral → Numeral) :
    List (String × Json) → List (String × Json)
  | [] => []
  | (name, value) :: rest =>
      (name, mapLeaves onText onNumeral value) :: mapMembers onText onNumeral rest

end

end Json

end Graft
