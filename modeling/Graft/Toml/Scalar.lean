import Graft.Json.Basic
import Graft.Text.Lines

/-!
The scalars of a TOML document: strings of four kinds, integers, floats, dates and times. Each reader
takes the characters from its scalar on and gives what stands behind it. Scalars become JSON values;
a date or a time, which JSON does not know, becomes an object without members.
-/

namespace Graft.Toml

open Graft.Text Graft.Number

def isBlank (c : Char) : Bool := c == ' ' || c == '\t'

def skipBlanks (text : List Char) : List Char := text.dropWhile isBlank

/-- The rest after a line ending: a line feed, with or without a carriage return before it. -/
def newline? : List Char → Option (List Char)
  | '\n' :: rest => some rest
  | '\r' :: '\n' :: rest => some rest
  | _ => none

/-- Whether a character may stand in a comment or in a string: a tab, or no control character. -/
def isPlain (c : Char) : Bool := c == '\t' || (0x20 ≤ c.toNat && c.toNat != 0x7F)

/-- The character that a run of hexadecimal digits numbers; surrogates number none. -/
def numbered? (count : Nat) (text : List Char) : Option (Char × List Char) := do
  let digits := text.take count
  if digits.length < count then none
  let value ← digitsValue? 16 hexDigit? digits
  if value.isValidChar then some (Char.ofNat value, text.drop count) else none

def escape? : List Char → Option (Char × List Char)
  | 'b' :: rest => some ('\x08', rest)
  | 'f' :: rest => some ('\x0c', rest)
  | 'n' :: rest => some ('\n', rest)
  | 'r' :: rest => some ('\r', rest)
  | 't' :: rest => some ('\t', rest)
  | '"' :: rest => some ('"', rest)
  | '\\' :: rest => some ('\\', rest)
  | 'u' :: rest => numbered? 4 rest
  | 'U' :: rest => numbered? 8 rest
  | _ => none

def basicTail? : Nat → List Char → Option (List Char × List Char)
  | 0, _ | _, [] => none
  | fuel + 1, c :: rest =>
      if c = '"' then some ([], rest)
      else if c = '\\' then do
        let (character, rest) ← escape? rest
        let (text, rest) ← basicTail? fuel rest
        return (character :: text, rest)
      else if isPlain c then do
        let (text, rest) ← basicTail? fuel rest
        return (c :: text, rest)
      else none

/-- A string without escapes on one line, after its opening apostrophe. -/
def literalTail? (text : List Char) : Option (List Char × List Char) :=
  match text.span (· != '\'') with
  | (inner, _ :: rest) => if inner.all isPlain then some (inner, rest) else none
  | (_, []) => none

/-- What a run of quotes means inside a string that three of them close: text, or the end of the
string behind as many as there are more than three. -/
def closing? (quote : Char) (text : List Char) : Option (Option (List Char) × List Char) :=
  let (run, rest) := text.span (· == quote)
  if run.length < 3 then some (none, rest)
  else if run.length ≤ 5 then some (some (run.drop 3), rest)
  else none

/-- The rest after the blanks and line endings that follow a backslash at the end of a line. -/
def continued? (text : List Char) : Option (List Char) := do
  let rest ← newline? (skipBlanks text)
  return rest.dropWhile fun c => isBlank c || c == '\n' || c == '\r'

/-- A string over several lines, after its opening quotes. `escapes` tells whether a backslash is
one; line endings become line feeds. -/
def longTail? (quote : Char) (escapes : Bool) : Nat → List Char → Option (List Char × List Char)
  | 0, _ | _, [] => none
  | fuel + 1, c :: rest =>
      if c = quote then
        match closing? quote (c :: rest) with
        | some (some inner, rest) => some (inner, rest)
        | some (none, after) => do
            let quotes := List.replicate (rest.length + 1 - after.length) quote
            let (text, rest) ← longTail? quote escapes fuel after
            return (quotes ++ text, rest)
        | none => none
      else if c = '\\' ∧ escapes then
        match continued? rest with
        | some rest => longTail? quote escapes fuel rest
        | none => do
            let (character, rest) ← escape? rest
            let (text, rest) ← longTail? quote escapes fuel rest
            return (character :: text, rest)
      else if isPlain c then do
        let (text, rest) ← longTail? quote escapes fuel rest
        return (c :: text, rest)
      else do
        let rest ← newline? (c :: rest)
        let (text, rest) ← longTail? quote escapes fuel rest
        return ('\n' :: text, rest)

/-- A string on one line, of either kind, such as a key may be. -/
def shortString? : List Char → Option (String × List Char)
  | '"' :: rest => do
      let (text, rest) ← basicTail? (rest.length + 1) rest
      return (String.ofList text, rest)
  | '\'' :: rest => do
      let (text, rest) ← literalTail? rest
      return (String.ofList text, rest)
  | _ => none

/-- A string of any kind. A line ending right after three opening quotes is not part of it. -/
def string? (text : List Char) : Option (String × List Char) :=
  let long (quote : Char) (escapes : Bool) (rest : List Char) := do
    let rest := (newline? rest).getD rest
    let (text, rest) ← longTail? quote escapes (rest.length + 1) rest
    return (String.ofList text, rest)
  match text with
  | '"' :: '"' :: '"' :: rest => long '"' true rest
  | '\'' :: '\'' :: '\'' :: rest => long '\'' false rest
  | _ => shortString? text

/-- Digits of a base with single underscores between them. -/
def digits? (value? : Char → Option Nat) (text : List Char) : Option (List Char × List Char) :=
  let (run, rest) := text.span fun c => (value? c).isSome || c == '_'
  let isSplit := (splitAtChar '_' run).all (!·.isEmpty)
  if isSplit then some (run.filter (· != '_'), rest) else none

def sign : List Char → Bool × List Char
  | '-' :: rest => (true, rest)
  | '+' :: rest => (false, rest)
  | rest => (false, rest)

def whole? (text : List Char) : Option (List Char × List Char) :=
  match text with
  | '0' :: rest => some (['0'], rest)
  | _ => digits? digit? text

def octalDigit? (c : Char) : Option Nat := (digit? c).filter (· < 8)

def binaryDigit? (c : Char) : Option Nat := (digit? c).filter (· < 2)

/-- An integer of 64 bits: decimal with an optional sign, or after the mark of another base. -/
def integer? (text : List Char) : Option (Int × List Char) := do
  let inBase (base : Nat) (value? : Char → Option Nat) (rest : List Char) := do
    let (digits, rest) ← digits? value? rest
    let value ← digitsValue? base value? digits
    return ((value : Int), rest)
  let (value, rest) ← match text with
    | '0' :: 'x' :: rest => inBase 16 hexDigit? rest
    | '0' :: 'o' :: rest => inBase 8 octalDigit? rest
    | '0' :: 'b' :: rest => inBase 2 binaryDigit? rest
    | _ => do
        let (negative, rest) := sign text
        let (digits, rest) ← whole? rest
        let value ← digitsValue? 10 digit? digits
        pure (if negative then -(value : Int) else value, rest)
  let bound : Int := Nat.pow 2 63
  if -bound ≤ value ∧ value < bound then some (value, rest) else none

/-- A number too large for every format; it stands for an infinite number and an undefined one. -/
def boundless (negative : Bool) : Json := .number ⟨negative, 1, 1000, false⟩

/-- The digits after a point; nothing when there is no point. -/
def fraction? : List Char → Option (Option (List Char) × List Char)
  | '.' :: rest => do
      let (digits, rest) ← digits? digit? rest
      return (some digits, rest)
  | rest => some (none, rest)

/-- The power of ten after its mark; nothing when there is no mark. -/
def power? : List Char → Option (Option Int × List Char)
  | c :: rest =>
      if c = 'e' ∨ c = 'E' then do
        let (negative, rest) := sign rest
        let (digits, rest) ← digits? digit? rest
        let value ← digitsValue? 10 digit? digits
        return (some (if negative then -(value : Int) else value), rest)
      else some (none, c :: rest)
  | [] => some (none, [])

/-- A float: it has a fraction or a power of ten, or is one of the special names. One that is too
large must be negative. -/
def float? (text : List Char) : Option (Json × List Char) := do
  let (negative, rest) := sign text
  match rest with
  | 'i' :: 'n' :: 'f' :: rest => return (boundless negative, rest)
  | 'n' :: 'a' :: 'n' :: rest => return (boundless negative, rest)
  | _ =>
      let (whole, rest) ← whole? rest
      let (fraction, rest) ← fraction? rest
      let (power, rest) ← power? rest
      if fraction.isNone && power.isNone then none
      let fraction := fraction.getD []
      let digits ← digitsValue? 10 digit? (whole ++ fraction)
      let exponent := power.getD 0 - fraction.length
      match Format.double.ofDecimal negative digits exponent with
      | .finite .. => return (.number ⟨negative, digits, exponent, false⟩, rest)
      | _ => if negative then some (boundless true, rest) else none

def fixed? (count low high : Nat) (text : List Char) : Option (Nat × List Char) := do
  let digits := text.take count
  if digits.length < count then none
  let value ← digitsValue? 10 digit? digits
  if low ≤ value ∧ value ≤ high then some (value, text.drop count) else none

def mark? (c : Char) : List Char → Option (List Char)
  | d :: rest => if d = c then some rest else none
  | [] => none

def daysIn (year month : Nat) : Nat :=
  if month = 2 then
    if year % 4 = 0 ∧ (year % 100 ≠ 0 ∨ year % 400 = 0) then 29 else 28
  else if [4, 6, 9, 11].contains month then 30
  else 31

def date? (text : List Char) : Option (List Char) := do
  let (year, rest) ← fixed? 4 0 9999 text
  let (month, rest) ← fixed? 2 1 12 (← mark? '-' rest)
  let (_, rest) ← fixed? 2 1 (daysIn year month) (← mark? '-' rest)
  return rest

def time? (text : List Char) : Option (List Char) := do
  let (_, rest) ← fixed? 2 0 23 text
  let (_, rest) ← fixed? 2 0 59 (← mark? ':' rest)
  let (_, rest) ← fixed? 2 0 60 (← mark? ':' rest)
  match rest with
  | '.' :: rest =>
      let (digits, rest) := rest.span fun c => (digit? c).isSome
      if digits.isEmpty then none else some rest
  | _ => return rest

/-- The rest after a distance from universal time, if there is one. -/
def offset? : List Char → Option (List Char)
  | c :: rest =>
      if c = 'Z' ∨ c = 'z' then some rest
      else if c = '+' ∨ c = '-' then do
        let (_, rest) ← fixed? 2 0 23 rest
        let (_, rest) ← fixed? 2 0 59 (← mark? ':' rest)
        return rest
      else some (c :: rest)
  | [] => some []

def moment? (text : List Char) : Option (List Char) :=
  match date? text with
  | none => time? text
  | some rest =>
      match rest with
      | c :: after =>
          if c = 'T' ∨ c = 't' ∨ c = ' ' then
            match time? after with
            | some after => offset? after
            | none => some rest
          else some rest
      | [] => some []

def scalar? (text : List Char) : Option (Json × List Char) :=
  match text with
  | '"' :: _ | '\'' :: _ => do
      let (found, rest) ← string? text
      return (.string found, rest)
  | 't' :: 'r' :: 'u' :: 'e' :: rest => some (.bool true, rest)
  | 'f' :: 'a' :: 'l' :: 's' :: 'e' :: rest => some (.bool false, rest)
  | _ =>
      match moment? text with
      | some rest => some (.object [], rest)
      | none =>
          match float? text with
          | some found => some found
          | none => do
              let (value, rest) ← integer? text
              return (.int value, rest)

end Graft.Toml
