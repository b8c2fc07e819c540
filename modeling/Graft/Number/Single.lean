import Graft.Number.Binary

/-!
Single precision, the numbers that scores and sampling settings are kept in. Decimal numerals are
read in double precision first and rounded a second time.
-/

namespace Graft.Number

structure Single where
  value : Binary
  deriving Repr, DecidableEq, Inhabited

namespace Single

def ofNat (n : Nat) : Single := ⟨Format.single.round false n 1⟩

/-- The number that a decimal numeral stands for: `digits` times a power of ten, read in double
precision and rounded again. -/
def ofDecimal (negative : Bool) (digits : Nat) (exponent : Int) : Single :=
  ⟨(Format.double.ofDecimal negative digits exponent).convert .single⟩

def ofQuotient (num den : Nat) : Single := ⟨Format.single.round false num den⟩

def zero : Single := ofNat 0

def one : Single := ofNat 1

instance : Add Single := ⟨fun a b => ⟨a.value.add .single b.value⟩⟩

instance : Sub Single := ⟨fun a b => ⟨a.value.sub .single b.value⟩⟩

instance : Mul Single := ⟨fun a b => ⟨a.value.mul .single b.value⟩⟩

instance : Div Single := ⟨fun a b => ⟨a.value.div .single b.value⟩⟩

def lt (a b : Single) : Bool := a.value.lt b.value

/-- The smaller of two numbers; the other one when one is no number. -/
def min (a b : Single) : Single :=
  if a.value = .nan then b else if b.lt a then b else a

def clamp (a low high : Single) : Single :=
  if a.lt low then low else if high.lt a then high else a

end Single

end Graft.Number
