/-!
Binary floating point in exact arithmetic. A finite value is a sign, a significand and a power of
two; every operation takes the exact rational result and rounds it once to the format, to the
nearest value and on a tie to the even significand.
-/

namespace Graft.Number

/-- The quotient rounded to the nearest natural number, a tie going to the even one. -/
def roundHalfEven (num den : Nat) : Nat :=
  let quotient := num / den
  let twice := 2 * (num % den)
  if den < twice || (den = twice && quotient % 2 = 1) then quotient + 1 else quotient

/-- A rounded quotient is at most half a unit away from the exact one. -/
theorem roundHalfEven_close (num den : Nat) (h : 0 < den) :
    2 * (roundHalfEven num den * den) ≤ 2 * num + den ∧
      2 * num ≤ 2 * (roundHalfEven num den * den) + den := by
  have hdiv := Nat.div_add_mod num den
  have hlt := Nat.mod_lt num h
  have hcomm : num / den * den = den * (num / den) := Nat.mul_comm _ _
  unfold roundHalfEven
  simp only [Bool.or_eq_true, decide_eq_true_eq, Bool.and_eq_true]
  split
  · next hup => rw [Nat.add_mul, hcomm]; omega
  · next hdown => rw [hcomm]; omega

/-- A binary format: the bits of a significand, and the powers of two that the last bit of the
smallest and of the largest number stand for. -/
structure Format where
  precision : Nat
  least : Int
  greatest : Int

def Format.single : Format := ⟨24, -149, 104⟩

def Format.double : Format := ⟨53, -1074, 971⟩

/-- A floating-point value: a significand times a power of two, an infinity, or no number. -/
inductive Binary where
  | finite (negative : Bool) (significand : Nat) (exponent : Int)
  | infinite (negative : Bool)
  | nan
  deriving Repr, DecidableEq, Inhabited

def powerOfTwo (exponent : Int) : Nat × Nat :=
  if 0 ≤ exponent then (Nat.pow 2 exponent.toNat, 1) else (1, Nat.pow 2 (-exponent).toNat)

def powerOfTen (exponent : Int) : Nat × Nat :=
  if 0 ≤ exponent then (Nat.pow 10 exponent.toNat, 1) else (1, Nat.pow 10 (-exponent).toNat)

namespace Format

/-- The value of the format that is nearest to a quotient of the given sign. -/
def round (format : Format) (negative : Bool) (num den : Nat) : Binary :=
  if num = 0 then .finite negative 0 format.least
  else
    let size : Int := (num.log2 : Int) - den.log2
    let (up, down) := powerOfTwo size
    let magnitude := if den * up ≤ num * down then size else size - 1
    let exponent := max format.least (magnitude - format.precision + 1)
    let (unitNum, unitDen) := powerOfTwo exponent
    let significand := roundHalfEven (num * unitDen) (den * unitNum)
    let carried := significand = Nat.pow 2 format.precision
    let exponent := if carried then exponent + 1 else exponent
    let significand := if carried then Nat.pow 2 (format.precision - 1) else significand
    if format.greatest < exponent then .infinite negative
    else .finite negative significand exponent

/-- The value nearest to a decimal numeral, `digits` times a power of ten. Powers beyond every
format are decided without writing them out. -/
def ofDecimal (format : Format) (negative : Bool) (digits : Nat) (exponent : Int) : Binary :=
  if digits = 0 then .finite negative 0 format.least
  else if 400 < exponent then .infinite negative
  else if exponent + (toString digits).length < -400 then .finite negative 0 format.least
  else
    let (up, down) := powerOfTen exponent
    format.round negative (digits * up) down

end Format

namespace Binary

def neg : Binary → Binary
  | finite negative significand exponent => finite (!negative) significand exponent
  | infinite negative => infinite (!negative)
  | nan => nan

def convert (format : Format) : Binary → Binary
  | finite negative significand exponent =>
      let (up, down) := powerOfTwo exponent
      format.round negative (significand * up) down
  | other => other

private def signed (negative : Bool) (magnitude : Nat) : Int :=
  if negative then -(magnitude : Int) else magnitude

/-- The sum, rounded once. A sum of zero is positive unless both terms are negative. -/
def add (format : Format) : Binary → Binary → Binary
  | nan, _ | _, nan => nan
  | infinite a, infinite b => if a = b then infinite a else nan
  | infinite a, finite .. => infinite a
  | finite .., infinite b => infinite b
  | finite na ma ea, finite nb mb eb =>
      let exponent := min ea eb
      let total := signed na (ma * Nat.pow 2 (ea - exponent).toNat) +
        signed nb (mb * Nat.pow 2 (eb - exponent).toNat)
      let negative := if total = 0 then na && nb else decide (total < 0)
      let (up, down) := powerOfTwo exponent
      format.round negative (total.natAbs * up) down

def sub (format : Format) (a b : Binary) : Binary := add format a b.neg

def mul (format : Format) : Binary → Binary → Binary
  | nan, _ | _, nan => nan
  | infinite a, infinite b => infinite (a != b)
  | infinite a, finite b m _ | finite b m _, infinite a =>
      if m = 0 then nan else infinite (a != b)
  | finite na ma ea, finite nb mb eb =>
      let (up, down) := powerOfTwo (ea + eb)
      format.round (na != nb) (ma * mb * up) down

def div (format : Format) : Binary → Binary → Binary
  | nan, _ | _, nan => nan
  | infinite _, infinite _ => nan
  | infinite a, finite b .. => infinite (a != b)
  | finite a .., infinite b => finite (a != b) 0 format.least
  | finite na ma ea, finite nb mb eb =>
      if mb = 0 then (if ma = 0 then nan else infinite (na != nb))
      else
        let (up, down) := powerOfTwo (ea - eb)
        format.round (na != nb) (ma * up) (mb * down)

/-- Whether one value is below another; nothing is below or above a value that is no number. -/
def lt : Binary → Binary → Bool
  | nan, _ | _, nan => false
  | infinite a, infinite b => a && !b
  | infinite a, finite .. => a
  | finite .., infinite b => !b
  | finite na ma ea, finite nb mb eb =>
      let exponent := min ea eb
      signed na (ma * Nat.pow 2 (ea - exponent).toNat) <
        signed nb (mb * Nat.pow 2 (eb - exponent).toNat)

end Binary

end Graft.Number
