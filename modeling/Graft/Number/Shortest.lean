import Graft.Number.Binary

/-!
The shortest decimal numeral that reads back as a given floating-point value. All numerals with
one digit are tried first, then those with two and so on. On each grid only the two neighbours of
the value can lie in the interval of reals that round to it, so only those are looked at.
-/

namespace Graft.Number

/-- A decimal numeral: digits times a power of ten. -/
structure Decimal where
  digits : Nat
  exponent : Int
  deriving Repr, DecidableEq, Inhabited

/-- The reals that round to a value, as multiples of a quarter of its last bit: the lower end, the
value and the upper end, and whether the ends belong to them. -/
structure Interval where
  low : Nat
  centre : Nat
  high : Nat
  closed : Bool
  /-- The power of two that the quarter stands for. -/
  exponent : Int

/-- The interval of a positive value. Below a power of two the neighbour is half as far away. -/
def Interval.ofSignificand (format : Format) (significand : Nat) (exponent : Int) : Interval where
  low :=
    if significand = Nat.pow 2 (format.precision - 1) && decide (format.least < exponent) then
      4 * significand - 1
    else 4 * significand - 2
  centre := 4 * significand
  high := 4 * significand + 2
  closed := significand % 2 = 0
  exponent := exponent - 2

/-- Twice the distance of a grid point from the centre, over a common denominator, if the point
lies in the interval. -/
def Interval.distance? (interval : Interval) (point : Decimal) : Option Nat :=
  let (tenNum, tenDen) := powerOfTen point.exponent
  let (twoNum, twoDen) := powerOfTwo interval.exponent
  let scaled := point.digits * tenNum * twoDen
  let unit := twoNum * tenDen
  let inside :=
    if interval.closed then interval.low * unit ≤ scaled ∧ scaled ≤ interval.high * unit
    else interval.low * unit < scaled ∧ scaled < interval.high * unit
  if inside then some (max scaled (interval.centre * unit) - min scaled (interval.centre * unit))
  else none

/-- The number of decimal digits before the point of a quotient, or minus the number of zeros that
follow the point. -/
def decimalMagnitude (num den : Nat) : Int :=
  if den ≤ num then ((toString (num / den)).length : Int)
  else go 400 0 num
where
  go : Nat → Int → Nat → Int
    | 0, zeros, _ => -zeros
    | fuel + 1, zeros, num =>
        if den ≤ num * 10 then -zeros else go fuel (zeros + 1) (num * 10)

/-- The nearest numeral with so many digits, if one lies in the interval. -/
def nearestWithDigits? (interval : Interval) (magnitude : Int) (count : Nat) : Option Decimal :=
  let exponent := magnitude - count
  let (tenNum, tenDen) := powerOfTen exponent
  let (twoNum, twoDen) := powerOfTwo interval.exponent
  let below := interval.centre * twoNum * tenDen / (twoDen * tenNum)
  let lower : Decimal := ⟨below, exponent⟩
  let upper : Decimal := ⟨below + 1, exponent⟩
  match interval.distance? lower, interval.distance? upper with
  | some a, some b =>
      if a < b then some lower else if b < a then some upper
      else if below % 2 = 0 then some lower else some upper
  | some _, none => some lower
  | none, some _ => some upper
  | none, none => none

/-- The shortest numeral of a positive value, and the nearest one of those. -/
def shortest (format : Format) (significand : Nat) (exponent : Int) : Decimal :=
  let interval := Interval.ofSignificand format significand exponent
  let (up, down) := powerOfTwo exponent
  let magnitude := decimalMagnitude (significand * up) down
  match (List.range 17).findSome? fun n => nearestWithDigits? interval magnitude (n + 1) with
  | some found => found
  | none => ⟨significand * up, 0⟩

end Graft.Number
