import Graft.Text.Numeral

/-!
Scripts of the command language in which builds are written: simple commands with redirections,
joined by pipes, by `&&` and `||`, and by the usual compound commands. A word is kept as the parts
of which it is made, since each part is expanded in its own way.
-/

namespace Graft.Machine

open Graft.Text

/-- A part of a word. What stands in quotes is not taken apart after its expansion. -/
inductive WordPart where
  | text (content : String) (quoted : Bool)
  | parameter (name : String) (quoted : Bool)
  /-- What a script prints. -/
  | output (script : String) (quoted : Bool)
  /-- The value of an expression. -/
  | arithmetic (expression : String) (quoted : Bool)
  deriving Repr, DecidableEq, Inhabited

abbrev Word := List WordPart

inductive Redirection where
  | write (descriptor : Nat) (target : Word)
  | append (descriptor : Nat) (target : Word)
  | read (source : Word)
  /-- The same way as another descriptor. -/
  | copy (descriptor source : Nat)
  deriving Repr, Inhabited

inductive Script where
  | simple (line : Nat) (assignments : List (String × Word)) (words : List Word)
      (redirections : List Redirection)
  | pipe (first second : Script)
  | both (first second : Script)
  | either (first second : Script)
  | sequence (first second : Script)
  | negation (script : Script)
  | choice (condition accepted rejected : Script)
  | loop (condition body : Script)
  | forEach (name : String) (words : List Word) (body : Script)
  | redirected (script : Script) (redirections : List Redirection)
  | subshell (script : Script)
  | skip
  deriving Inhabited

/-- A token of a script: a word with its line, an operator, or the start of a redirection with the
descriptor in front of it. -/
inductive ScriptToken where
  | word (parts : Word) (line : Nat)
  | operator (sign : String)
  | redirect (descriptor : Option Nat) (sign : String)
  deriving Inhabited

namespace Script

def isBreak (c : Char) : Bool :=
  c == ' ' || c == '\t' || c == '\n' || ";&|<>()".toList.contains c

def isNameChar (c : Char) : Bool := c.isAlphanum || c == '_'

/-- The characters up to the parenthesis that closes one already open, and what follows it. -/
def takeParenthesis : Nat → List Char → Option (List Char × List Char)
  | _, [] => none
  | depth, c :: rest =>
      if c = ')' ∧ depth = 0 then some ([], rest)
      else
        let depth := if c = '(' then depth + 1 else if c = ')' then depth - 1 else depth
        (takeParenthesis depth rest).map fun (inner, after) => (c :: inner, after)

def takeUntil? (sign : Char) (text : List Char) : Option (List Char × List Char) :=
  let inner := text.takeWhile (· != sign)
  match text.drop inner.length with
  | _ :: after => some (inner, after)
  | [] => none

def takeDollar? (quoted : Bool) (text : List Char) : Option (WordPart × List Char) :=
  match text with
  | '(' :: rest => do
      let (inner, after) ← takeParenthesis 0 rest
      match inner with
      | '(' :: expression =>
          if expression.getLast? = some ')' then
            return (.arithmetic (String.ofList expression.dropLast) quoted, after)
          else return (.output (String.ofList inner) quoted, after)
      | _ => return (.output (String.ofList inner) quoted, after)
  | '{' :: rest => do
      let (inner, after) ← takeUntil? '\x7d' rest
      return (.parameter (String.ofList inner) quoted, after)
  | c :: rest =>
      if c.isDigit || "@*#?$!-".toList.contains c then
        some (.parameter (String.ofList [c]) quoted, rest)
      else if isNameChar c then
        let name := text.takeWhile isNameChar
        some (.parameter (String.ofList name) quoted, text.drop name.length)
      else some (.text "$" quoted, text)
  | [] => some (.text "$" quoted, [])

def takeDoubleQuoted : Nat → List Char → Option (Word × List Char)
  | 0, _ => none
  | _ + 1, [] => none
  | fuel + 1, c :: rest =>
      let go (part : WordPart) (rest : List Char) : Option (Word × List Char) :=
        (takeDoubleQuoted fuel rest).map fun (parts, after) => (part :: parts, after)
      if c = '"' then some ([], rest)
      else if c = '\\' then
        match rest with
        | '\n' :: rest => takeDoubleQuoted fuel rest
        | d :: rest' =>
            if "$\x60\"\\".toList.contains d then go (.text (String.ofList [d]) true) rest'
            else go (.text "\\" true) rest
        | [] => none
      else if c = '$' then do
        let (part, rest) ← takeDollar? true rest
        go part rest
      else if c = '\x60' then do
        let (inner, rest) ← takeUntil? '\x60' rest
        go (.output (String.ofList inner) true) rest
      else go (.text (String.ofList [c]) true) rest

def takeWord : Nat → List Char → Option (Word × List Char)
  | 0, _ => none
  | _ + 1, [] => some ([], [])
  | fuel + 1, c :: rest =>
      let go (part : WordPart) (rest : List Char) : Option (Word × List Char) :=
        (takeWord fuel rest).map fun (parts, after) => (part :: parts, after)
      if isBreak c then some ([], c :: rest)
      else if c = '\'' then do
        let (inner, rest) ← takeUntil? '\'' rest
        go (.text (String.ofList inner) true) rest
      else if c = '"' then do
        let (inner, rest) ← takeDoubleQuoted (rest.length + 1) rest
        let (parts, after) ← takeWord fuel rest
        return (.text "" true :: inner ++ parts, after)
      else if c = '\\' then
        match rest with
        | '\n' :: rest => takeWord fuel rest
        | d :: rest => go (.text (String.ofList [d]) true) rest
        | [] => go (.text "\\" true) []
      else if c = '$' then do
        let (part, rest) ← takeDollar? false rest
        go part rest
      else if c = '\x60' then do
        let (inner, rest) ← takeUntil? '\x60' rest
        go (.output (String.ofList inner) false) rest
      else go (.text (String.ofList [c]) false) rest

/-- The operators, a longer one before the one that starts it. -/
def operators : List String := ["&&", "||", ";;", ";", "&", "|", "(", ")", "\n"]

/-- The signs of redirections, a longer one before the one that starts it. -/
def redirectSigns : List String := [">>", ">&", "<&", ">|", ">", "<"]

def takeSign? (signs : List String) (text : List Char) : Option (String × List Char) :=
  signs.findSome? fun sign =>
    if sign.toList.isPrefixOf text then some (sign, text.drop sign.length) else none

def tokens : Nat → Nat → List Char → Option (List ScriptToken)
  | 0, _, _ => none
  | _ + 1, _, [] => some []
  | fuel + 1, line, c :: rest =>
      let text := c :: rest
      if c = ' ' ∨ c = '\t' then tokens fuel line rest
      else if c = '\\' ∧ rest.head? = some '\n' then tokens fuel (line + 1) rest.tail
      else if c = '#' then tokens fuel line (rest.dropWhile (· != '\n'))
      else
        let digits := text.takeWhile Char.isDigit
        match takeSign? redirectSigns (text.drop digits.length) with
        | some (sign, rest) =>
            let descriptor := digitsValue? 10 digit? digits
            let descriptor := if digits.isEmpty then none else descriptor
            (tokens fuel line rest).map (.redirect descriptor sign :: ·)
        | none =>
            match takeSign? operators text with
            | some (sign, rest) =>
                let line := if sign = "\n" then line + 1 else line
                (tokens fuel line rest).map (.operator sign :: ·)
            | none => do
                let (parts, rest) ← takeWord (text.length + 1) text
                return .word parts line :: (← tokens fuel line rest)

/-- The text of a word that is written without quotes and expansions. -/
def plain? (word : Word) : Option String :=
  (word.mapM fun part => match part with
    | WordPart.text content false => some content
    | _ => none).map String.join

def closers : List String := ["then", "else", "elif", "fi", "do", "done", "\x7d"]

def startsWithWord (name : String) : List ScriptToken → Bool
  | .word parts _ :: _ => plain? parts == some name
  | _ => false

def expect (name : String) : List ScriptToken → Option (List ScriptToken)
  | .word parts _ :: rest => if plain? parts = some name then some rest else none
  | _ => none

def skipLines : List ScriptToken → List ScriptToken
  | .operator "\n" :: rest => skipLines rest
  | .operator ";" :: rest => skipLines rest
  | tokens => tokens

def assignment? (word : Word) : Option (String × Word) := do
  let characters (part : WordPart) : List (Char ⊕ WordPart) := match part with
    | .text content false => content.toList.map .inl
    | other => [.inr other]
  let all := word.flatMap characters
  let name := all.takeWhile fun x => match x with
    | .inl c => isNameChar c
    | .inr _ => false
  let letters := name.filterMap fun x => match x with
    | .inl c => some c
    | .inr _ => none
  match letters, all.drop name.length with
  | first :: _, .inl '=' :: value =>
      if first.isDigit then none
      else some (String.ofList letters, value.map fun x => match x with
        | .inl c => .text (String.ofList [c]) false
        | .inr part => part)
  | _, _ => none

def redirection? (descriptor : Option Nat) (sign : String) (word : Word) : Option Redirection :=
  match sign with
  | ">" | ">|" => some (.write (descriptor.getD 1) word)
  | ">>" => some (.append (descriptor.getD 1) word)
  | "<" => some (.read word)
  | ">&" => do return .copy (descriptor.getD 1) (← (← plain? word).toNat?)
  | _ => none

def redirections : List ScriptToken → Option (List Redirection × List ScriptToken)
  | .redirect descriptor sign :: .word parts _ :: rest => do
      let first ← redirection? descriptor sign parts
      let (others, rest) ← redirections rest
      return (first :: others, rest)
  | .redirect .. :: _ => none
  | rest => some ([], rest)

def wordsOf : List ScriptToken → List Word × List ScriptToken
  | .word parts _ :: rest =>
      let (words, rest) := wordsOf rest
      (parts :: words, rest)
  | rest => ([], rest)

/-- A simple command, whose first tokens have been read into it. -/
def simpleFrom (line : Nat) (assignments : List (String × Word)) (words : List Word)
    (redirects : List Redirection) : List ScriptToken → Option (Script × List ScriptToken)
  | .word parts here :: rest =>
      let line := if assignments.isEmpty && words.isEmpty then here else line
      match if words.isEmpty then assignment? parts else none with
      | some found => simpleFrom line (assignments ++ [found]) words redirects rest
      | none => simpleFrom line assignments (words ++ [parts]) redirects rest
  | .redirect descriptor sign :: .word parts _ :: rest => do
      let found ← redirection? descriptor sign parts
      simpleFrom line assignments words (redirects ++ [found]) rest
  | .redirect .. :: _ => none
  | rest =>
      if assignments.isEmpty && words.isEmpty && redirects.isEmpty then none
      else some (.simple line assignments words redirects, rest)

mutual

def list? : Nat → List ScriptToken → Option (Script × List ScriptToken)
  | 0, _ => none
  | fuel + 1, input =>
      let input := skipLines input
      let ended := match input with
        | [] | .operator ")" :: _ => true
        | _ => closers.any (startsWithWord · input)
      if ended then some (.skip, input)
      else do
        let (first, rest) ← andOr? fuel input
        match rest with
        | .operator ";" :: rest | .operator "\n" :: rest | .operator "&" :: rest =>
            let (second, rest) ← list? fuel rest
            return (.sequence first second, rest)
        | _ => return (first, rest)

/-- Pipelines joined by `&&` and `||`. -/
def andOr? : Nat → List ScriptToken → Option (Script × List ScriptToken)
  | 0, _ => none
  | fuel + 1, input => do
      let (first, rest) ← pipeline? fuel input
      andOrFrom? fuel first rest

def andOrFrom? : Nat → Script → List ScriptToken → Option (Script × List ScriptToken)
  | 0, _, _ => none
  | fuel + 1, first, rest =>
      match rest with
      | .operator "&&" :: rest => do
          let (second, rest) ← pipeline? fuel (skipLines rest)
          andOrFrom? fuel (.both first second) rest
      | .operator "||" :: rest => do
          let (second, rest) ← pipeline? fuel (skipLines rest)
          andOrFrom? fuel (.either first second) rest
      | _ => some (first, rest)

/-- Commands joined by pipes, of which `!` may turn the answer. -/
def pipeline? : Nat → List ScriptToken → Option (Script × List ScriptToken)
  | 0, _ => none
  | fuel + 1, input =>
      match expect "!" input with
      | some rest => do
          let (script, rest) ← pipeline? fuel rest
          return (.negation script, rest)
      | none => do
          let (first, rest) ← command? fuel input
          match rest with
          | .operator "|" :: rest =>
              let (second, rest) ← pipeline? fuel (skipLines rest)
              return (.pipe first second, rest)
          | _ => return (first, rest)

def command? : Nat → List ScriptToken → Option (Script × List ScriptToken)
  | 0, _ => none
  | fuel + 1, input =>
      let wrapped (script : Script) (rest : List ScriptToken) : Option (Script × List ScriptToken) := do
        let (found, rest) ← redirections rest
        return (if found.isEmpty then script else .redirected script found, rest)
      match input with
      | .operator "(" :: rest => do
          let (body, rest) ← list? fuel rest
          match rest with
          | .operator ")" :: rest => wrapped (.subshell body) rest
          | _ => none
      | _ =>
          if startsWithWord "\x7b" input then do
            let (body, rest) ← list? fuel input.tail
            wrapped body (← expect "\x7d" rest)
          else if startsWithWord "if" input then do
            let (script, rest) ← choice? fuel input.tail
            wrapped script rest
          else if startsWithWord "while" input || startsWithWord "until" input then do
            let (condition, rest) ← list? fuel input.tail
            let (body, rest) ← list? fuel (← expect "do" rest)
            let condition := if startsWithWord "while" input then condition else .negation condition
            wrapped (.loop condition body) (← expect "done" rest)
          else if startsWithWord "for" input then
            match input.tail with
            | .word name _ :: rest => do
                let name ← plain? name
                let (words, rest) := wordsOf (← expect "in" rest)
                let (body, rest) ← list? fuel (← expect "do" (skipLines rest))
                wrapped (.forEach name words body) (← expect "done" rest)
            | _ => none
          else simpleFrom 1 [] [] [] input

def choice? : Nat → List ScriptToken → Option (Script × List ScriptToken)
  | 0, _ => none
  | fuel + 1, input => do
      let (condition, rest) ← list? fuel input
      let (accepted, rest) ← list? fuel (← expect "then" rest)
      if startsWithWord "elif" rest then
        let (rejected, rest) ← choice? fuel rest.tail
        return (.choice condition accepted rejected, rest)
      else if startsWithWord "else" rest then
        let (rejected, rest) ← list? fuel rest.tail
        return (.choice condition accepted rejected, ← expect "fi" rest)
      else return (.choice condition accepted .skip, ← expect "fi" rest)

end

def read? (text : String) : Option Script := do
  let input ← tokens (text.length + 2) 1 text.toList
  let (script, rest) ← list? (8 * input.length + 8) input
  if rest.isEmpty then some script else none

end Script

end Graft.Machine
