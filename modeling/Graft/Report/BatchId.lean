import Graft.Json.Decoder
import Graft.Text.Lines
import Graft.Text.Search

/-!
The identity of a batch: sixteen bytes, written as 32 hexadecimal digits in five groups. The text is
also read without the groups, in braces, and behind `urn:uuid:`.
-/

namespace Graft

open Text Json

/-- The identity of a batch, by its 32 lower-case digits. -/
structure BatchId where
  digits : List Char
  deriving Repr, DecidableEq, Inhabited

namespace BatchId

/-- The identity whose digits are all zero. -/
def nil : BatchId := ⟨List.replicate 32 '0'⟩

def groups : List Nat := [8, 4, 4, 4, 12]

def cutGroups : List Nat → List Char → List (List Char)
  | [], _ => []
  | size :: rest, digits => digits.take size :: cutGroups rest (digits.drop size)

def render (id : BatchId) : String :=
  "-".intercalate ((cutGroups groups id.digits).map String.ofList)

def ofDigits? (digits : List Char) : Option BatchId :=
  if digits.length = 32 ∧ digits.all (hexDigit? · |>.isSome) then some ⟨digits.map Char.toLower⟩
  else none

/-- The identity that groups of digits with hyphens between them write. -/
def ofGroups? (text : List Char) : Option BatchId :=
  let pieces := splitAtChar '-' text
  if pieces.map List.length = groups then ofDigits? pieces.flatten else none

def read? (text : String) : Option BatchId :=
  let body := match text.toList with
    | '\x7b' :: rest => if rest.getLast? = some '\x7d' then some (rest.dropLast) else none
    | other => dropHead? "urn:uuid:".toList other
  match body with
  | some inner => ofGroups? inner
  | none => (ofGroups? text.toList).orElse fun _ => ofDigits? text.toList

def toJson (id : BatchId) : Json := .string id.render

def decode : Decoder BatchId
  | .string text => read? text
  | _ => none

end BatchId

end Graft
