import Graft.Json.Decoder
import Graft.Text.Blank

/-!
Points in time and their text, a date and a time of day with its offset from universal time. The
text that is written is always in universal time and has as many digits of the fraction as three,
six or nine of them need; a second 60 is the leap second behind the second 59.
-/

namespace Graft

open Text Json

/-- A point in time: seconds since the start of 1970 and nanoseconds, of which a leap second has
more than a billion. -/
structure Instant where
  seconds : Int
  nanoseconds : Nat
  deriving Repr, DecidableEq, Inhabited

namespace Instant

/-- Whether a year has a 29th of February. -/
def isLeapYear (year : Int) : Bool := year % 4 = 0 && (year % 100 != 0 || year % 400 = 0)

def daysInMonth (year : Int) (month : Nat) : Nat :=
  if month = 2 then if isLeapYear year then 29 else 28
  else if [4, 6, 9, 11].contains month then 30 else 31

/-- How many days lie between the start of 1970 and a day. Years are counted from March, so that the
leap day is the last of its year. -/
def daysOfDate (year : Int) (month day : Nat) : Int :=
  let year := if month ≤ 2 then year - 1 else year
  let era := year / 400
  let yearOfEra := year % 400
  let dayOfYear : Int := (153 * ((month + 9) % 12) + 2) / 5 + day - 1
  era * 146097 + (yearOfEra * 365 + yearOfEra / 4 - yearOfEra / 100 + dayOfYear) - 719468

/-- The year, the month and the day of a number of days since the start of 1970. -/
def dateOfDays (days : Int) : Int × Nat × Nat :=
  let shifted := days + 719468
  let era := shifted / 146097
  let dayOfEra := shifted % 146097
  let yearOfEra :=
    (dayOfEra - dayOfEra / 1460 + dayOfEra / 36524 - dayOfEra / 146096) / 365
  let dayOfYear := dayOfEra - (365 * yearOfEra + yearOfEra / 4 - yearOfEra / 100)
  let marchMonth := ((5 * dayOfYear + 2) / 153).toNat
  let day := dayOfYear.toNat - (153 * marchMonth + 2) / 5 + 1
  let month := if marchMonth < 10 then marchMonth + 3 else marchMonth - 9
  (yearOfEra + era * 400 + (if month ≤ 2 then 1 else 0), month, day)

/-- The digits of a fraction of a second, with the point. -/
def fractionText (nanoseconds : Nat) : String :=
  if nanoseconds = 0 then ""
  else if nanoseconds % 1000000 = 0 then "." ++ padded 3 (nanoseconds / 1000000)
  else if nanoseconds % 1000 = 0 then "." ++ padded 6 (nanoseconds / 1000)
  else "." ++ padded 9 nanoseconds

/-- The year with at least four digits, and a sign when it has more or is negative. -/
def yearText (year : Int) : String :=
  if 0 ≤ year ∧ year ≤ 9999 then padded 4 year.toNat
  else (if year < 0 then "-" else "+") ++ padded 4 year.natAbs

def render (instant : Instant) : String :=
  let (year, month, day) := dateOfDays (instant.seconds / 86400)
  let ofDay := (instant.seconds % 86400).toNat
  let leap := instant.nanoseconds / 1000000000
  s!"{yearText year}-{padded 2 month}-{padded 2 day}T" ++
    s!"{padded 2 (ofDay / 3600)}:{padded 2 (ofDay / 60 % 60)}:{padded 2 (ofDay % 60 + leap)}" ++
    fractionText (instant.nanoseconds % 1000000000) ++ "Z"

def skip (text : List Char) : List Char := text.dropWhile isBlank

/-- A number of at least one digit and at most so many. -/
def count? (limit : Nat) (text : List Char) : Option (Nat × List Char) := do
  let digits := (text.take limit).takeWhile (digit? · |>.isSome)
  if digits.isEmpty then none
  return (← digitsValue? 10 digit? digits, text.drop digits.length)

/-- A year: four digits, or any number of them behind a sign. -/
def year? : List Char → Option (Int × List Char)
  | '+' :: rest => (count? rest.length rest).map fun (n, rest) => ((n : Int), rest)
  | '-' :: rest => (count? rest.length rest).map fun (n, rest) => (-(n : Int), rest)
  | text => (count? 4 text).map fun (n, rest) => ((n : Int), rest)

/-- A number of two digits behind a separator; white space may stand before either. -/
def part? (separator : Char) (text : List Char) : Option (Nat × List Char) :=
  match skip text with
  | c :: rest => if c = separator then count? 2 (skip rest) else none
  | [] => none

/-- The fraction of a second in nanoseconds; further digits are passed over. -/
def fraction? : List Char → Option (Nat × List Char)
  | '.' :: rest => do
      let (value, after) ← count? 9 rest
      let used := rest.length - after.length
      return (value * Nat.pow 10 (9 - used), after.dropWhile (digit? · |>.isSome))
  | text => some (0, text)

def two? : List Char → Option (Nat × List Char)
  | a :: b :: rest => do return ((← digit? a) * 10 + (← digit? b), rest)
  | _ => none

def offset? (text : List Char) : Option (Int × List Char) :=
  match text with
  | 'Z' :: rest | 'z' :: rest => some (0, rest)
  | sign :: rest =>
      if (text.take 3).map Char.toLower = ['u', 't', 'c'] then some (0, text.drop 3)
      else if sign = '+' ∨ sign = '-' ∨ sign = '\u2212' then do
        let (hours, rest) ← two? rest
        let (minutes, rest) ← two? (rest.dropWhile fun c => c = ':' ∨ isBlank c)
        if 59 < minutes ∨ 23 < hours then none
        let seconds : Int := hours * 3600 + minutes * 60
        return (if sign = '+' then seconds else -seconds, rest)
      else none
  | [] => none

/-- The years that a date may have, in the text and in universal time. -/
def isDateYear (year : Int) : Bool := -262143 ≤ year && year ≤ 262142

def yearOfSeconds (seconds : Int) : Int := (dateOfDays (seconds / 86400)).1

def read? (text : String) : Option Instant := do
  let (year, rest) ← year? (skip text.toList)
  let (month, rest) ← part? '-' rest
  let (day, rest) ← part? '-' rest
  let rest ← match rest with
    | c :: rest => if c = 'T' ∨ c = 't' ∨ c = ' ' then some rest else none
    | [] => none
  let (hour, rest) ← count? 2 (skip rest)
  let (minute, rest) ← part? ':' rest
  let (second, rest) ← part? ':' rest
  let (nanoseconds, rest) ← fraction? rest
  let (offset, rest) ← offset? (skip rest)
  if !(skip rest).isEmpty then none
  if !isDateYear year ∨ month < 1 ∨ 12 < month ∨ day < 1 ∨ daysInMonth year month < day then none
  if 23 < hour ∨ 59 < minute ∨ 60 < second then none
  let ofDay : Int := hour * 3600 + minute * 60 + min second 59
  let leap := if second = 60 then 1000000000 else 0
  let seconds := daysOfDate year month day * 86400 + ofDay - offset
  if !isDateYear (yearOfSeconds seconds) then none
  return ⟨seconds, nanoseconds + leap⟩

def toJson (instant : Instant) : Json := .string instant.render

def decode : Decoder Instant
  | .string text => read? text
  | _ => none

end Instant

end Graft
