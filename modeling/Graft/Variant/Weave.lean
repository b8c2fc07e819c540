import Graft.Code.Location
import Graft.OrdinalMap

/-!
Putting other text in the place of spans. The spans are always those of the text as it was, and
what lies between them is copied as it stands.
-/

namespace Graft.Variant

open Graft.Text Graft.Code

/-- The text from a byte offset on, with the replacements of the spans that have one; nothing when
such a span does not lie between characters behind that offset. -/
def weaveFrom? (text : List Char) (replacements : OrdinalMap String) (offset : Nat) :
    List Span → Option (List Char)
  | [] => (cut? text offset).map (·.2)
  | span :: spans =>
      match replacements.get? span.ordinal with
      | none => weaveFrom? text replacements offset spans
      | some replacement => do
          let gap ← slice? text offset span.start
          let rest ← weaveFrom? text replacements span.stop spans
          return gap ++ replacement.toList ++ rest

/-- The text with the replacements of the spans that have one. -/
def weave? (text : String) (spans : List Span) (replacements : OrdinalMap String) : Option String :=
  (weaveFrom? text.toList replacements 0 spans).map String.ofList

end Graft.Variant
