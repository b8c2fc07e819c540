import Graft.SourceUnit
import Graft.Store.Basic
import Graft.Variant.Selection
import Graft.Variant.Weave

/-!
Variants of a unit: its text with the candidates of a selection in the place of its functions.
Merging asks that the spans be those of the unit's functions and that the selection have no gap.
-/

namespace Graft

open Hash Code

inductive MergeError where
  | incompleteSelection (window : Nat) (missing : List Nat)
  | ordinalOutOfRange (ordinal available : Nat)
  | spanMismatch (reason : String)
  | store (error : StoreError)
  deriving Repr, DecidableEq, Inhabited

namespace MergeError

def message : MergeError → String
  | incompleteSelection window missing =>
      let listed := ", ".intercalate (missing.map toString)
      s!"selection for window {window} is missing ordinals [{listed}]"
  | ordinalOutOfRange ordinal available =>
      s!"ordinal {ordinal} is out of range; unit has {available} functions"
  | spanMismatch reason => s!"spans do not match the unit: {reason}"
  | store error => s!"candidate store error: {error.message}"

end MergeError

/-- A text that a unit can take, and the attempts that it is made of. -/
structure Variant where
  unitId : UnitId
  window : Nat
  provenance : Selection
  text : String
  deriving Repr, DecidableEq, Inhabited

namespace Variant

def unchanged (unit : SourceUnit) : Variant := ⟨unit.id, 0, ∅, unit.text⟩

def digest (variant : Variant) : Digest := .ofText variant.text

/-- The name of the file that holds the variant: it tells the stem, the number of functions, the
trial, the window and the attempts. -/
def fileName (variant : Variant) (unit : SourceUnit) : String :=
  let attempts :=
    if variant.provenance.isEmpty then ""
    else "_a" ++ "-".intercalate (variant.provenance.values.map toString)
  s!"{unit.stem}_{unit.count}_trial_{unit.trial}_merge_{variant.window}{attempts}.{unit.extension}"

def toJson (variant : Variant) : Json :=
  .object [("unit_id", .string variant.unitId.name), ("window", .nat variant.window),
    ("provenance", variant.provenance.toJson), ("text", .string variant.text)]

/-- Checks that each span has the ordinal of its place, starts behind the one before it, and lies
between characters of the text. `ordinal` and `bound` are those of the span before. -/
def checkSpansFrom (text : String) (ordinal bound : Nat) : List Span → Except MergeError Unit
  | [] => .ok ()
  | span :: spans =>
      if span.ordinal ≠ ordinal + 1 then
        .error (.spanMismatch s!"span {ordinal + 1} carries ordinal {span.ordinal}")
      else if bound ≤ span.start ∧ span.start ≤ span.stop ∧
          Text.isBoundary text.toList span.start ∧ Text.isBoundary text.toList span.stop then
        checkSpansFrom text (ordinal + 1) span.stop spans
      else
        .error (.spanMismatch
          s!"ordinal {span.ordinal} has invalid range {span.start}..{span.stop}")

/-- Checks that the spans are those of the unit's functions, as far as the text can tell. -/
def checkSpans (unit : SourceUnit) (spans : List Span) : Except MergeError Unit :=
  if spans.length ≠ unit.count then
    .error (.spanMismatch s!"{spans.length} spans for {unit.count} functions")
  else checkSpansFrom unit.text 0 0 spans

/-- Checks that the selection names an attempt for each ordinal from one up to its window, and for
no other. -/
def checkSelection (unit : SourceUnit) (selection : Selection) : Except MergeError Unit :=
  let window := Selection.window selection
  if unit.count < window then .error (.ordinalOutOfRange window unit.count)
  else
    let missing := Selection.missing selection
    if !missing.isEmpty then .error (.incompleteSelection window missing)
    else if selection.contains 0 then .error (.ordinalOutOfRange 0 unit.count)
    else .ok ()

/-- Checks the spans, and then the selection. -/
def check (unit : SourceUnit) (spans : List Span) (selection : Selection) : Except MergeError Unit := do
  checkSpans unit spans
  checkSelection unit selection

def assemble (unit : SourceUnit) (spans : List Span) (selection : Selection)
    (candidates : List (Nat × String)) : Variant :=
  let text := (weave? unit.text spans (.ofList candidates)).getD unit.text
  ⟨unit.id, Selection.window selection, selection, text⟩

def fetch (store : CandidateStore σ) (content : σ) (unit : UnitId) :
    List (Nat × Nat) → Except StoreError (List (Nat × String))
  | [] => .ok []
  | (ordinal, attempt) :: rest => do
      let text ← store.get unit ordinal attempt content
      let others ← fetch store content unit rest
      return (ordinal, text) :: others

def merge (store : CandidateStore σ) (content : σ) (unit : SourceUnit) (spans : List Span)
    (selection : Selection) : Except MergeError Variant := do
  check unit spans selection
  let candidates ← (fetch store content unit.id selection.entries).mapError .store
  return assemble unit spans selection candidates

end Variant

end Graft
