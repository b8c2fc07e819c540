import Graft.Number.Single

/-!
Numerals with a fixed number of decimal places. The exact binary value is rounded, and a tie goes
to the even neighbour.
-/

namespace Graft.Number

/-- The numeral with so many places after the point. -/
def Single.fixed (places : Nat) (number : Single) : String :=
  match number.value with
  | .nan => "NaN"
  | .infinite negative => if negative then "-inf" else "inf"
  | .finite negative significand exponent =>
      let (up, down) := powerOfTwo exponent
      let units := roundHalfEven (significand * up * Nat.pow 10 places) down
      let digits := toString (units % Nat.pow 10 places)
      let fill := String.ofList (List.replicate (places - digits.length) '0')
      let sign := if negative then "-" else ""
      sign ++ toString (units / Nat.pow 10 places) ++ "." ++ fill ++ digits

end Graft.Number
