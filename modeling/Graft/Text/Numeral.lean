/-!
Decimal numerals. `readNat?` takes an optional plus sign and at least one ASCII digit, and nothing
beyond the bound asked for; `canonical?` takes only the text that printing a number gives.
-/

namespace Graft.Text

def digit? (c : Char) : Option Nat :=
  if '0' ≤ c ∧ c ≤ '9' then some (c.toNat - '0'.toNat) else none

def hexDigit? (c : Char) : Option Nat :=
  if '0' ≤ c ∧ c ≤ '9' then some (c.toNat - '0'.toNat)
  else if 'a' ≤ c ∧ c ≤ 'f' then some (c.toNat - 'a'.toNat + 10)
  else if 'A' ≤ c ∧ c ≤ 'F' then some (c.toNat - 'A'.toNat + 10)
  else none

/-- The number that a run of digits writes in a base; nothing when one of them is no digit. -/
def digitsValue? (base : Nat) (value? : Char → Option Nat) (digits : List Char) : Option Nat :=
  digits.foldl (fun total c => do return (← total) * base + (← value? c)) (some 0)

/-- The number that a text of digits writes, an optional plus sign in front. -/
def readNat? (bound : Nat) (text : String) : Option Nat := do
  let digits := match text.toList with
    | '+' :: rest => rest
    | other => other
  if digits.isEmpty then none
  let value ← digitsValue? 10 digit? digits
  if value ≤ bound then some value else none

def maxUnsigned (bits : Nat) : Nat := Nat.pow 2 bits - 1

def readU32? (text : String) : Option Nat := readNat? (maxUnsigned 32) text

def readU64? (text : String) : Option Nat := readNat? (maxUnsigned 64) text

/-- The number whose decimal numeral the text is: no sign, no leading zero. -/
def canonical? (bound : Nat) (text : String) : Option Nat := do
  let value ← readNat? bound text
  if toString value = text then some value else none

def padded (width n : Nat) : String :=
  let digits := toString n
  String.ofList (List.replicate (width - digits.length) '0') ++ digits

def hexDigit (n : Nat) : Char :=
  if n < 10 then Char.ofNat ('0'.toNat + n) else Char.ofNat ('a'.toNat + (n - 10))

end Graft.Text
