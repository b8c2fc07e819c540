import Graft.Json.Basic

/-!
Writing JSON. The compact form has no white space; the pretty form gives every item a line of its
own, indented by two spaces a level, and writes empty containers on one line. Text outside ASCII
stays as it is.
-/

namespace Graft.Json

open Graft.Text

def escaped (c : Char) : List Char :=
  if c = '"' then ['\\', '"']
  else if c = '\\' then ['\\', '\\']
  else if c = '\n' then ['\\', 'n']
  else if c = '\r' then ['\\', 'r']
  else if c = '\t' then ['\\', 't']
  else if c = '\x08' then ['\\', 'b']
  else if c = '\x0c' then ['\\', 'f']
  else if c.toNat < 0x20 then ['\\', 'u', '0', '0', hexDigit (c.toNat / 16), hexDigit (c.toNat % 16)]
  else [c]

def quote (text : String) : String :=
  String.ofList (['"'] ++ text.toList.flatMap escaped ++ ['"'])

/-- Where a numeral leaves positional notation. -/
structure NumeralStyle where
  /-- The largest number of digits before the point. -/
  wholeDigits : Int
  /-- The number of zeros after the point from which the exponent is written. -/
  leadingZeros : Int

/-- Up to thirteen digits stand before the point and up to five zeros after it. -/
def numeralStyle : NumeralStyle := ⟨13, 6⟩

/-- The numeral: plain digits for an integer, else with a point or an exponent. -/
def Numeral.render (numeral : Numeral) : String :=
  let digits := toString numeral.digits
  let sign := if numeral.negative then "-" else ""
  if numeral.integral then sign ++ digits
  else
    let whole : Int := digits.length + numeral.exponent
    let zeros (n : Int) := String.ofList (List.replicate n.toNat '0')
    sign ++
      if 0 ≤ numeral.exponent ∧ whole ≤ numeralStyle.wholeDigits then
        digits ++ zeros numeral.exponent ++ ".0"
      else if 0 < whole ∧ whole ≤ numeralStyle.wholeDigits then
        String.ofList (digits.toList.take whole.toNat) ++ "." ++
          String.ofList (digits.toList.drop whole.toNat)
      else if -numeralStyle.leadingZeros < whole ∧ whole ≤ 0 then
        "0." ++ zeros (-whole) ++ digits
      else
        let fraction := String.ofList (digits.toList.drop 1)
        String.ofList (digits.toList.take 1) ++ (if fraction.isEmpty then "" else "." ++ fraction) ++
          "e" ++ toString (whole - 1)

mutual

/-- The value without white space. -/
def compact : Json → String
  | .null => "null"
  | .bool value => if value then "true" else "false"
  | .number numeral => numeral.render
  | .string text => quote text
  | .array items => "[" ++ ",".intercalate (compactItems items) ++ "]"
  | .object members => "\x7b" ++ ",".intercalate (compactMembers members) ++ "\x7d"

private def compactItems : List Json → List String
  | [] => []
  | item :: rest => compact item :: compactItems rest

private def compactMembers : List (String × Json) → List String
  | [] => []
  | (name, value) :: rest => (quote name ++ ":" ++ compact value) :: compactMembers rest

end

def lineBreak (level : Nat) : String :=
  String.ofList ('\n' :: List.replicate (2 * level) ' ')

def block (level : Nat) (opening closing : String) (items : List String) : String :=
  if items.isEmpty then opening ++ closing
  else
    opening ++ lineBreak (level + 1) ++ ("," ++ lineBreak (level + 1)).intercalate items ++
      lineBreak level ++ closing

mutual

/-- The value with a line for each item, at an indentation level. -/
def prettyAt (level : Nat) : Json → String
  | .array items => block level "[" "]" (prettyItems (level + 1) items)
  | .object members => block level "\x7b" "\x7d" (prettyMembers (level + 1) members)
  | .null => "null"
  | .bool value => if value then "true" else "false"
  | .number numeral => numeral.render
  | .string text => quote text

def prettyItems (level : Nat) : List Json → List String
  | [] => []
  | item :: rest => prettyAt level item :: prettyItems level rest

def prettyMembers (level : Nat) : List (String × Json) → List String
  | [] => []
  | (name, value) :: rest =>
      (quote name ++ ": " ++ prettyAt level value) :: prettyMembers level rest

end

def pretty (value : Json) : String := prettyAt 0 value

end Graft.Json
