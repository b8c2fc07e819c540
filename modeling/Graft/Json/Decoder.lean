import Graft.Json.Basic
import Graft.OrdinalMap

/-!
Reading typed data out of JSON values. A record is read from an object, whose unknown members are
ignored and whose known ones may come only once, or from an array that lists its fields in order.
-/

namespace Graft.Json

open Graft.Text Graft.Number

/-- A way to read a value of a type, where a failure says nothing more. -/
abbrev Decoder (α : Type) := Json → Option α

namespace Decoder

def natUpTo (bound : Nat) : Decoder Nat
  | .number numeral =>
      if numeral.integral && !numeral.negative && numeral.digits ≤ bound then some numeral.digits
      else none
  | _ => none

def u32 : Decoder Nat := natUpTo (maxUnsigned 32)

def u64 : Decoder Nat := natUpTo (maxUnsigned 64)

def i32 : Decoder Int
  | .number numeral =>
      let value : Int := if numeral.negative then -(numeral.digits : Int) else numeral.digits
      let bound : Int := Nat.pow 2 31
      if numeral.integral && decide (-bound ≤ value) && decide (value < bound) then some value
      else none
  | _ => none

/-- A number of single precision, written with or without a fraction. -/
def single : Decoder Single
  | .number numeral => some (.ofDecimal numeral.negative numeral.digits numeral.exponent)
  | _ => none

def bool : Decoder Bool
  | .bool value => some value
  | _ => none

def string : Decoder String
  | .string text => some text
  | _ => none

def list (item : Decoder α) : Decoder (List α)
  | .array items => items.mapM item
  | _ => none

def pair (first : Decoder α) (second : Decoder β) : Decoder (α × β)
  | .array [a, b] => do return (← first a, ← second b)
  | _ => none

def nullable (inner : Decoder α) : Decoder (Option α)
  | .null => some none
  | value => (inner value).map some

/-- One of a list of names; also an object whose only member has that name and is null. -/
def choice (names : List (String × α)) : Decoder α
  | .string name => names.lookup name
  | .object [(name, .null)] => names.lookup name
  | _ => none

/-- A map from 32-bit numbers, written as an object with decimal names; a later member of the same
name wins. -/
def ordinalMap (inner : Decoder α) : Decoder (OrdinalMap α)
  | .object members =>
      members.foldlM (fun entries (name, value) => do
        let key ← canonical? (maxUnsigned 32) name
        return entries.insert key (← inner value)) ∅
  | _ => none

end Decoder

/-- The fields that are still to be read: by name, or in order. -/
inductive Fields where
  | named (members : List (String × Json))
  | positional (items : List Json)

abbrev FieldReader (α : Type) := StateT Fields Option α

/-- The next field; none when it is missing, and failure when its name comes twice. -/
def nextField (name : String) : FieldReader (Option Json) := fun fields =>
  match fields with
  | .named members =>
      match members.filter (·.1 == name) with
      | [] => some (none, fields)
      | [(_, value)] => some (some value, fields)
      | _ => none
  | .positional [] => some (none, fields)
  | .positional (item :: rest) => some (some item, .positional rest)

def required (name : String) (decode : Decoder α) : FieldReader α := do
  match ← nextField name with
  | some value => (decode value : Option α)
  | none => failure

/-- A field that has a value of its own when it is missing. -/
def defaulted (name : String) (decode : Decoder α) (default : α) : FieldReader α := do
  match ← nextField name with
  | some value => (decode value : Option α)
  | none => return default

def optional (name : String) (decode : Decoder α) : FieldReader (Option α) :=
  defaulted name (Decoder.nullable decode) none

/-- A field that may be null, and missing only where fields go by name. -/
def nullableField (name : String) (decode : Decoder α) : FieldReader (Option α) := fun fields =>
  match fields with
  | .positional [] => none
  | _ => optional name decode fields

/-- A record from an object or from an array of its fields. -/
def record (fields : FieldReader α) : Decoder α
  | .object members => (fields (.named members)).map (·.1)
  | .array items =>
      match fields (.positional items) with
      | some (value, .positional []) => some value
      | _ => none
  | _ => none

end Graft.Json
