/-!
Lines of a text. A line ends at a line feed, one carriage return before it belongs to the ending,
and a text that ends in a line feed has no empty last line.
-/

namespace Graft.Text

/-- The pieces between the separators: one more than there are separators. -/
def splitAtChar (separator : Char) : List Char → List (List Char)
  | [] => [[]]
  | c :: rest =>
      if c = separator then [] :: splitAtChar separator rest
      else
        match splitAtChar separator rest with
        | [] => [[c]]
        | piece :: pieces => (c :: piece) :: pieces

theorem splitAtChar_ne_nil (separator : Char) (text : List Char) :
    splitAtChar separator text ≠ [] := by
  cases text with
  | nil => simp [splitAtChar]
  | cons c rest => unfold splitAtChar; split <;> (try split) <;> simp

def dropReturn (line : List Char) : List Char :=
  if line.getLast? = some '\r' then line.dropLast else line

/-- The pieces between the line feeds; the last one is dropped when it is empty, and loses no
carriage return since no line feed follows it. -/
def linesOf (text : List Char) : List (List Char) :=
  let pieces := splitAtChar '\n' text
  let ended := pieces.dropLast.map dropReturn
  match pieces.getLast? with
  | some [] | none => ended
  | some last => ended ++ [last]

def lines (text : String) : List String :=
  (linesOf text.toList).map String.ofList

def lineCount (text : String) : Nat := (linesOf text.toList).length

end Graft.Text
