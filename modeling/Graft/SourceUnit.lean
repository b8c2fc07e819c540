import Graft.Hash.Digest
import Graft.Path

/-!
Units of work: a source text, the functions of it that are to be replaced, and the number of the
trial. A unit is known by its stem, a digest of its text and its functions, and its trial.
-/

namespace Graft

open Hash Text

structure UnitId where
  name : String
  deriving Repr, DecidableEq, Inhabited, Hashable

/-- A source text and the functions in it that are to be replaced, in the order of the text. -/
structure SourceUnit where
  path : String
  text : String
  functions : List String
  trial : Nat
  deriving Repr, DecidableEq, Inhabited

namespace SourceUnit

def stem (unit : SourceUnit) : String := (Path.stem? unit.path).getD "unit"

def extension (unit : SourceUnit) : String := (Path.extension? unit.path).getD "c"

def language (unit : SourceUnit) : String :=
  if ["cpp", "cc", "cxx", "hpp", "hh", "C"].contains unit.extension then "C++" else "C"

def count (unit : SourceUnit) : Nat := unit.functions.length

/-- The identifier of the function with an ordinal; ordinals start at one. -/
def identifier? (unit : SourceUnit) : Nat → Option String
  | 0 => none
  | index + 1 => unit.functions[index]?

/-- A letter, a digit, `_` or `-` as it is, and `_` for any other character. -/
def plainChar (c : Char) : Char :=
  if c.isAlphanum || c == '_' || c == '-' then c else '_'

/-- The name of the unit: the stem in plain characters, the digest of the text and the functions,
and the trial. -/
def id (unit : SourceUnit) : UnitId :=
  let stem := String.ofList (unit.stem.toList.map plainChar)
  ⟨s!"{stem}-{(Digest.ofTexts (unit.text :: unit.functions)).abbreviation}-t{unit.trial}"⟩

end SourceUnit

end Graft
