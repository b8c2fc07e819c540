import Graft.Pattern.Basic

/-!
Looking for a pattern in a text. `reach` takes the places where a pattern may start to the places
where it may then end, so that a repetition only follows places it has not seen and every search
ends; `isIn` asks whether some stretch of the text matches.
-/

namespace Graft

open Text

def Condition.holds (condition : Condition) (text : Array Char) (place : Nat) : Bool :=
  let before := if place = 0 then none else text[place - 1]?
  let after := text[place]?
  let wordBefore := before.any isWordLike
  let wordAfter := after.any isWordLike
  match condition with
  | .textStart => before.isNone
  | .textEnd => after.isNone
  | .lineStart => before.isNone || before == some '\n'
  | .lineEnd => after.isNone || after == some '\n'
  | .wordEdge => wordBefore != wordAfter
  | .noWordEdge => wordBefore == wordAfter
  | .wordStart => !wordBefore && wordAfter
  | .wordEnd => wordBefore && !wordAfter

namespace Pattern

def merge (known added : List Nat) : List Nat :=
  added.foldl (fun all place => if all.contains place then all else place :: all) known

def exactly (step : List Nat → List Nat) : Nat → List Nat → List Nat
  | 0, places => places
  | n + 1, places => exactly step n (step places)

/-- The places after at most so many steps. A step starts from the new places alone. -/
def upTo (step : List Nat → List Nat) : Nat → List Nat → List Nat → List Nat
  | 0, known, _ => known
  | n + 1, known, fresh =>
      let next := (step fresh).filter fun place => !known.contains place
      if next.isEmpty then known else upTo step n (merge known next) next

/-- The places where the pattern may end when it starts at one of the given places. -/
def reach (text : Array Char) : Pattern → List Nat → List Nat
  | .empty, places => places
  | .class set, places =>
      places.filterMap fun place => do
        let c ← text[place]?
        if set.mem c then some (place + 1) else none
  | .classIgnoringCase set, places =>
      places.filterMap fun place => do
        let c ← text[place]?
        if set.memIgnoringCase c then some (place + 1) else none
  | .atPlace condition, places => places.filter fun place => condition.holds text place
  | .sequence first second, places => second.reach text (merge [] (first.reach text places))
  | .choice first second, places => merge (first.reach text places) (second.reach text places)
  | .repeated body least most, places =>
      let step := fun starts => merge [] (body.reach text starts)
      let base := exactly step least places
      let rounds := match most with
        | some most => most - least
        | none => text.size + 1
      upTo step rounds base base

def isIn (pattern : Pattern) (text : String) : Bool :=
  let characters := text.toList.toArray
  !(pattern.reach characters (List.range (characters.size + 1))).isEmpty

end Pattern

end Graft
