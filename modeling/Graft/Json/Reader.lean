import Graft.Json.Basic

/-!
Reading JSON. The reader takes exactly the grammar of the standard, with three limits of its own:
containers nest at most 127 deep, a number must not exceed double precision, and an escaped
surrogate must come as a pair.
-/

namespace Graft.Json

open Graft.Text Graft.Number

def isSpace (c : Char) : Bool := c == ' ' || c == '\t' || c == '\n' || c == '\r'

def skipSpace (text : List Char) : List Char := text.dropWhile isSpace

def unit? : List Char → Option (Nat × List Char)
  | a :: b :: c :: d :: rest => do
      let value ← digitsValue? 16 hexDigit? [a, b, c, d]
      return (value, rest)
  | _ => none

def escape? : List Char → Option (Char × List Char)
  | '"' :: rest => some ('"', rest)
  | '\\' :: rest => some ('\\', rest)
  | '/' :: rest => some ('/', rest)
  | 'b' :: rest => some ('\x08', rest)
  | 'f' :: rest => some ('\x0c', rest)
  | 'n' :: rest => some ('\n', rest)
  | 'r' :: rest => some ('\r', rest)
  | 't' :: rest => some ('\t', rest)
  | 'u' :: rest => do
      let (first, rest) ← unit? rest
      if 0xD800 ≤ first ∧ first < 0xDC00 then
        match rest with
        | '\\' :: 'u' :: rest =>
            let (second, rest) ← unit? rest
            if 0xDC00 ≤ second ∧ second < 0xE000 then
              return (Char.ofNat (0x10000 + (first - 0xD800) * 0x400 + (second - 0xDC00)), rest)
            else none
        | _ => none
      else if 0xDC00 ≤ first ∧ first < 0xE000 then none
      else return (Char.ofNat first, rest)
  | _ => none

/-- The characters of a string up to its closing quote, at most as many as `fuel`. -/
def stringTail? : Nat → List Char → Option (List Char × List Char)
  | 0, _ => none
  | _ + 1, [] => none
  | fuel + 1, c :: rest =>
      if c = '"' then some ([], rest)
      else if c = '\\' then do
        let (character, rest) ← escape? rest
        let (text, rest) ← stringTail? fuel rest
        return (character :: text, rest)
      else if c.toNat < 0x20 then none
      else do
        let (text, rest) ← stringTail? fuel rest
        return (c :: text, rest)

/-- A string after its opening quote. -/
def string? (text : List Char) : Option (String × List Char) := do
  let (characters, rest) ← stringTail? (text.length + 1) text
  return (String.ofList characters, rest)

def digits? (text : List Char) : Option (List Char × List Char) :=
  let (digits, rest) := text.span (digit? · |>.isSome)
  if digits.isEmpty then none else some (digits, rest)

/-- The digits before the point: a zero stands alone. -/
def whole? : List Char → Option (List Char × List Char)
  | '0' :: rest => some (['0'], rest)
  | text => digits? text

def fraction? : List Char → Option (List Char × List Char)
  | '.' :: rest => digits? rest
  | text => some ([], text)

def exponent? : List Char → Option (Option Int × List Char)
  | c :: rest =>
      if c = 'e' ∨ c = 'E' then do
        let (negative, rest) := match rest with
          | '-' :: rest => (true, rest)
          | '+' :: rest => (false, rest)
          | rest => (false, rest)
        let (digits, rest) ← digits? rest
        let value ← digitsValue? 10 digit? digits
        return (some (if negative then -(value : Int) else value), rest)
      else some (none, c :: rest)
  | [] => some (none, [])

/-- A number; one beyond double precision is refused. -/
def numeral? (text : List Char) : Option (Numeral × List Char) := do
  let (negative, rest) := match text with
    | '-' :: rest => (true, rest)
    | rest => (false, rest)
  let (whole, rest) ← whole? rest
  let (fraction, rest) ← fraction? rest
  let (power, rest) ← exponent? rest
  let digits ← digitsValue? 10 digit? (whole ++ fraction)
  let exponent := power.getD 0 - fraction.length
  match Format.double.ofDecimal negative digits exponent with
  | .finite .. =>
      let integral := fraction.isEmpty && power.isNone && !(negative && digits = 0)
      return (⟨negative, digits, exponent, integral⟩, rest)
  | _ => none

mutual

/-- A value, after the white space before it. `depth` is how many containers may still open. -/
def value? : Nat → Nat → List Char → Option (Json × List Char)
  | 0, _, _ => none
  | fuel + 1, depth, text =>
      match skipSpace text with
      | 'n' :: 'u' :: 'l' :: 'l' :: rest => some (.null, rest)
      | 't' :: 'r' :: 'u' :: 'e' :: rest => some (.bool true, rest)
      | 'f' :: 'a' :: 'l' :: 's' :: 'e' :: rest => some (.bool false, rest)
      | '"' :: rest => do
          let (found, rest) ← string? rest
          return (.string found, rest)
      | '[' :: rest =>
          if depth = 0 then none
          else
            match skipSpace rest with
            | ']' :: rest => some (.array [], rest)
            | rest => do
                let (items, rest) ← items? fuel (depth - 1) rest
                return (.array items, rest)
      | '{' :: rest =>
          if depth = 0 then none
          else
            match skipSpace rest with
            | '}' :: rest => some (.object [], rest)
            | rest => do
                let (members, rest) ← members? fuel (depth - 1) rest
                return (.object members, rest)
      | rest => do
          let (numeral, rest) ← numeral? rest
          return (.number numeral, rest)

/-- The items of an array up to its closing bracket, at least one. -/
def items? : Nat → Nat → List Char → Option (List Json × List Char)
  | 0, _, _ => none
  | fuel + 1, depth, text => do
      let (item, rest) ← value? fuel depth text
      match skipSpace rest with
      | ',' :: rest =>
          let (items, rest) ← items? fuel depth rest
          return (item :: items, rest)
      | ']' :: rest => return ([item], rest)
      | _ => none

/-- The members of an object up to its closing brace, at least one. -/
def members? : Nat → Nat → List Char → Option (List (String × Json) × List Char)
  | 0, _, _ => none
  | fuel + 1, depth, text => do
      match skipSpace text with
      | '"' :: rest =>
          let (name, rest) ← string? rest
          match skipSpace rest with
          | ':' :: rest =>
              let (value, rest) ← value? fuel depth rest
              match skipSpace rest with
              | ',' :: rest =>
                  let (members, rest) ← members? fuel depth rest
                  return ((name, value) :: members, rest)
              | '}' :: rest => return ([(name, value)], rest)
              | _ => none
          | _ => none
      | _ => none

end

/-- How many containers may be open at once. -/
def maxDepth : Nat := 127

/-- The value that a text writes, with nothing but white space around it. -/
def read? (text : String) : Option Json := do
  let characters := text.toList
  let (value, rest) ← value? (characters.length + 1) maxDepth characters
  if (skipSpace rest).isEmpty then some value else none

end Graft.Json
