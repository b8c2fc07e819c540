import Graft.Text.Numeral

/-!
Whole-number arithmetic as scripts write it: numbers, variables, the usual operators and parentheses.
A truth value is one or zero.
-/

namespace Graft.Machine.Arithmetic

open Graft.Text

inductive Token where
  | number (value : Int)
  | name (text : String)
  | sign (text : String)
  deriving Repr, DecidableEq, Inhabited

/-- The signs, a longer one before the one that starts it. -/
def signs : List String :=
  ["<=", ">=", "==", "!=", "&&", "||", "+", "-", "*", "/", "%", "<", ">", "(", ")", "!", "="]

def tokens? : Nat → List Char → Option (List Token)
  | 0, _ => none
  | _ + 1, [] => some []
  | fuel + 1, c :: rest =>
      if c = ' ' ∨ c = '\t' ∨ c = '\n' ∨ c = '$' then tokens? fuel rest
      else if c.isDigit then do
        let digits := (c :: rest).takeWhile Char.isDigit
        let value ← digitsValue? 10 digit? digits
        return .number value :: (← tokens? fuel ((c :: rest).drop digits.length))
      else if c.isAlpha || c == '_' then do
        let name := (c :: rest).takeWhile fun c => c.isAlphanum || c == '_'
        return .name (String.ofList name) :: (← tokens? fuel ((c :: rest).drop name.length))
      else do
        let sign ← signs.find? fun sign => sign.toList.isPrefixOf (c :: rest)
        return .sign sign :: (← tokens? fuel ((c :: rest).drop sign.length))

/-- The operators of each level, those that bind most loosely first. -/
def levels : List (List String) :=
  [["||"], ["&&"], ["==", "!="], ["<", ">", "<=", ">="], ["+", "-"], ["*", "/", "%"]]

def ofBool (value : Bool) : Int := if value then 1 else 0

/-- What an operator makes of two numbers; nothing of a division by zero. -/
def combine? (sign : String) (a b : Int) : Option Int :=
  match sign with
  | "+" => some (a + b)
  | "-" => some (a - b)
  | "*" => some (a * b)
  | "/" => if b = 0 then none else some (a.tdiv b)
  | "%" => if b = 0 then none else some (a.tmod b)
  | "<" => some (ofBool (a < b))
  | ">" => some (ofBool (b < a))
  | "<=" => some (ofBool (a ≤ b))
  | ">=" => some (ofBool (b ≤ a))
  | "==" => some (ofBool (a == b))
  | "!=" => some (ofBool (a != b))
  | "&&" => some (ofBool (a != 0 && b != 0))
  | "||" => some (ofBool (a != 0 || b != 0))
  | _ => none

mutual

/-- The value of an expression whose operators are of some levels, and the tokens behind it. -/
def level? (value : String → Int) : Nat → List (List String) → List Token →
    Option (Int × List Token)
  | 0, _, _ => none
  | fuel + 1, [], tokens => operand? value fuel tokens
  | fuel + 1, signs :: tighter, tokens => do
      let (first, rest) ← level? value fuel tighter tokens
      levelFrom? value fuel signs tighter first rest

def levelFrom? (value : String → Int) : Nat → List String → List (List String) → Int → List Token →
    Option (Int × List Token)
  | 0, _, _, _, _ => none
  | fuel + 1, signs, tighter, first, tokens =>
      match tokens with
      | .sign sign :: rest =>
          if signs.contains sign then do
            let (second, rest) ← level? value fuel tighter rest
            levelFrom? value fuel signs tighter (← combine? sign first second) rest
          else some (first, tokens)
      | _ => some (first, tokens)

/-- A number, a variable, or an expression in parentheses, with signs in front of it. -/
def operand? (value : String → Int) : Nat → List Token → Option (Int × List Token)
  | 0, _ => none
  | fuel + 1, tokens =>
      match tokens with
      | .number n :: rest => some (n, rest)
      | .name name :: rest => some (value name, rest)
      | .sign "-" :: rest => (operand? value fuel rest).map fun (n, rest) => (-n, rest)
      | .sign "+" :: rest => operand? value fuel rest
      | .sign "!" :: rest => (operand? value fuel rest).map fun (n, rest) => (ofBool (n == 0), rest)
      | .sign "(" :: rest => do
          let (n, rest) ← level? value fuel levels rest
          match rest with
          | .sign ")" :: rest => return (n, rest)
          | _ => none
      | _ => none

end

def evaluate? (value : String → Int) (text : String) : Option Int := do
  let tokens ← tokens? (text.length + 1) text.toList
  if tokens.isEmpty then return 0
  let (result, rest) ← level? value (16 * tokens.length + 16) levels tokens
  if rest.isEmpty then some result else none

end Graft.Machine.Arithmetic
