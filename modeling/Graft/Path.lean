import Graft.Text.Lines
import Graft.Text.Quoted
import Graft.Text.Search

/-!
Paths as text. A path is a row of parts between slashes; empty parts and single dots stand for
nothing, except that a path may start with a dot. The last part is the file name, unless it is two
dots, and the last dot in a file name starts its extension, unless it starts the name.
-/

namespace Graft.Path

open Graft.Text

def isAbsolute (path : String) : Bool := startsWith "/" path

/-- Whether a piece between slashes leads somewhere: it is neither empty nor a single dot. -/
def leads (piece : String) : Bool := piece != "" && piece != "."

def parts (path : String) : List String :=
  ((splitAtChar '/' path.toList).map String.ofList).filter leads

def fileName? (path : String) : Option String :=
  match (parts path).getLast? with
  | some ".." | none => none
  | some name => some name

/-- What stands before and after the dot that starts the extension. -/
def cutName (name : String) : String × Option String :=
  match cutLast? '.' name.toList with
  | some (_ :: before, after) =>
      (String.ofList (name.toList.take (before.length + 1)), some (String.ofList after))
  | _ => (name, none)

def stem? (path : String) : Option String := (fileName? path).map fun name => (cutName name).1

def extension? (path : String) : Option String := (fileName? path).bind fun name => (cutName name).2

/-- The path that leads on from another one; an absolute path leads from the root. -/
def join (base path : String) : String :=
  if isAbsolute path || base.isEmpty then path
  else if endsWith "/" base then base ++ path
  else base ++ "/" ++ path

/-- The path without its last part; nothing for the root and for a path without parts. -/
def parent? (path : String) : Option String :=
  let backwards := ((splitAtChar '/' path.toList).map String.ofList).reverse
  match backwards.dropWhile (!leads ·) with
  | _ :: above =>
      let kept := (above.dropWhile (!leads ·)).reverse
      if !kept.isEmpty then some ("/".intercalate kept)
      else if isAbsolute path then some "/"
      else some (if startsWith "./" path then "." else "")
  | [] => if startsWith "." path then some "" else none

/-- The path in quotes for a message. An apostrophe is escaped like a quote. -/
def quoted (path : String) : String :=
  let escaped (c : Char) := if c = '\'' then ['\\', c] else quotedChar c
  String.ofList (['"'] ++ path.toList.flatMap escaped ++ ['"'])

end Graft.Path
