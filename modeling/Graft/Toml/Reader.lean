import Graft.Toml.Scalar
import Graft.Toml.Table

/-!
Reading TOML. A document is a row of lines that set keys, under headers that name the table to which
the keys belong. Values nest at most 79 deep, and so do keys.
-/

namespace Graft.Toml

def maxDepth : Nat := 79

/-- The rest after a comment, if there is one; a control character in it is refused. -/
def skipComment? : List Char → Option (List Char)
  | '#' :: rest =>
      let (comment, rest) := rest.span fun c => c != '\n' && c != '\r'
      if comment.all isPlain then some rest else none
  | rest => some rest

def skipLines? : Nat → List Char → Option (List Char)
  | 0, text => some text
  | fuel + 1, text => do
      let rest ← skipComment? (skipBlanks text)
      match newline? rest with
      | some rest => skipLines? fuel rest
      | none => return rest

/-- The rest after the end of a line: blanks, a comment, and a line ending or the end of the text. -/
def lineEnd? (text : List Char) : Option (List Char) := do
  let rest ← skipComment? (skipBlanks text)
  if rest.isEmpty then some [] else newline? rest

def isKeyChar (c : Char) : Bool :=
  c.isAlphanum || c == '-' || c == '_'

def keyPart? (text : List Char) : Option (String × List Char) :=
  match text with
  | '"' :: _ | '\'' :: _ => shortString? text
  | _ =>
      let (name, rest) := text.span isKeyChar
      if name.isEmpty then none else some (String.ofList name, rest)

def keyParts? : Nat → List Char → Option (List String × List Char)
  | 0, _ => none
  | fuel + 1, text => do
      let (part, rest) ← keyPart? (skipBlanks text)
      match skipBlanks rest with
      | '.' :: rest =>
          let (parts, rest) ← keyParts? fuel rest
          return (part :: parts, rest)
      | rest => return ([part], rest)

def key? (text : List Char) : Option (Key × List Char) := do
  let (parts, rest) ← keyParts? maxDepth text
  let name ← parts.getLast?
  return (⟨parts.dropLast, name⟩, rest)

mutual

/-- A value. `depth` is how many arrays and tables may still open. -/
def value? : Nat → Nat → List Char → Option (Json × List Char)
  | 0, _, _ => none
  | fuel + 1, depth, text =>
      match text with
      | '[' :: rest =>
          if depth = 0 then none
          else do
            let (items, rest) ← items? fuel (depth - 1) rest
            return (.array items, rest)
      | '{' :: rest =>
          if depth = 0 then none
          else
            match skipBlanks rest with
            | '}' :: rest => some (.object [], rest)
            | rest => do
                let (pairs, rest) ← pairs? fuel (depth - 1) rest
                let entries ← Entries.assignAll pairs []
                return (.object (entriesToMembers entries), rest)
      | _ => scalar? text

/-- The items of an array up to its closing bracket; a comma may stand behind the last one. -/
def items? : Nat → Nat → List Char → Option (List Json × List Char)
  | 0, _, _ => none
  | fuel + 1, depth, text => do
      match ← skipLines? text.length text with
      | ']' :: rest => return ([], rest)
      | rest =>
          let (item, rest) ← value? fuel depth rest
          match ← skipLines? rest.length rest with
          | ',' :: rest =>
              let (items, rest) ← items? fuel depth rest
              return (item :: items, rest)
          | ']' :: rest => return ([item], rest)
          | _ => none

/-- The keys and values of a table between braces, up to the closing one. -/
def pairs? : Nat → Nat → List Char → Option (List (Key × Json) × List Char)
  | 0, _, _ => none
  | fuel + 1, depth, text => do
      let (pair, rest) ← pair? fuel depth text
      match skipBlanks rest with
      | ',' :: rest =>
          let (pairs, rest) ← pairs? fuel depth rest
          return (pair :: pairs, rest)
      | '}' :: rest => return ([pair], rest)
      | _ => none

/-- A key with its value. -/
def pair? : Nat → Nat → List Char → Option ((Key × Json) × List Char)
  | 0, _, _ => none
  | fuel + 1, depth, text => do
      let (key, rest) ← key? text
      match rest with
      | '=' :: rest =>
          let (value, rest) ← value? fuel depth (skipBlanks rest)
          return ((key, value), rest)
      | _ => none

end

/-- The lines that set keys, up to a header or the end of the text. -/
def body? : Nat → List Char → Option (List (Key × Json) × List Char)
  | 0, _ => none
  | fuel + 1, text => do
      let rest ← skipLines? text.length text
      match rest with
      | [] => return ([], [])
      | '[' :: _ => return ([], rest)
      | _ =>
          let (pair, rest) ← pair? (rest.length + 1) maxDepth rest
          let (pairs, rest) ← body? fuel (← lineEnd? rest)
          return (pair :: pairs, rest)

/-- A header with its brackets, and whether it adds a table to a row. -/
def header? : List Char → Option ((Key × Bool) × List Char)
  | '[' :: '[' :: rest => do
      let (key, rest) ← key? rest
      match rest with
      | ']' :: ']' :: rest => return ((key, true), ← lineEnd? rest)
      | _ => none
  | '[' :: rest => do
      let (key, rest) ← key? rest
      match rest with
      | ']' :: rest => return ((key, false), ← lineEnd? rest)
      | _ => none
  | _ => none

def sections? : Nat → List Char → Option (List Section)
  | 0, _ => none
  | _, [] => some []
  | fuel + 1, text => do
      let ((header, inRow), rest) ← header? text
      let (pairs, rest) ← body? (rest.length + 1) rest
      return ⟨header, inRow, pairs⟩ :: (← sections? fuel rest)

/-- The document that a text writes, as an object. A byte order mark in front is passed over. -/
def read? (text : String) : Option Json := do
  let characters := match text.toList with
    | '\uFEFF' :: rest => rest
    | characters => characters
  let (pairs, rest) ← body? (characters.length + 1) characters
  let entries ← Entries.assignAll pairs []
  let sections ← sections? (rest.length + 1) rest
  let entries ← sections.foldlM (fun entries part => Entries.addSection part entries) entries
  return .object (entriesToMembers entries)

end Graft.Toml
