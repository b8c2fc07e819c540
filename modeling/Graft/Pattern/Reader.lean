import Graft.Pattern.Basic
import Graft.Text.Numeral

/-!
Reading a pattern as an operator writes it: literals, classes, groups, choice, greedy and lazy
repetition, the anchors and the flags `i`, `m`, `s` and `x`. References back to a group and
conditions on what lies ahead or behind are refused, as is every escape that means nothing.
-/

namespace Graft.Pattern

open Graft.Text

structure Flags where
  ignoreCase : Bool := false
  multiLine : Bool := false
  dotAll : Bool := false
  verbose : Bool := false
  deriving Repr, DecidableEq, Inhabited

def ofClass (flags : Flags) (set : CharClass) : Pattern :=
  if flags.ignoreCase then .classIgnoringCase set else .class set

/-- The rest after white space and remarks, which only a verbose pattern ignores. -/
def skipIgnored (flags : Flags) (text : List Char) : List Char :=
  if flags.verbose then go false text else text
where
  go (inRemark : Bool) : List Char → List Char
    | [] => []
    | c :: rest =>
        if inRemark then go (c != '\n') rest
        else if isBlank c then go false rest
        else if c = '#' then go true rest
        else c :: rest

/-- Hexadecimal digits, either a fixed number of them or any number between braces. -/
def readHex? (width : Nat) : List Char → Option (Char × List Char)
  | '{' :: rest => do
      let digits := rest.takeWhile (· != '}')
      if digits.isEmpty then none
      else
        let value ← digitsValue? 16 hexDigit? digits
        if value.isValidChar then
          match rest.drop digits.length with
          | '}' :: rest => some (Char.ofNat value, rest)
          | _ => none
        else none
  | text => do
      let digits := text.take width
      if digits.length < width then none
      else
        let value ← digitsValue? 16 hexDigit? digits
        if value.isValidChar then some (Char.ofNat value, text.drop width) else none

def classEscape? : Char → Option CharClass
  | 'd' => some .digit
  | 'D' => some (.complement .digit)
  | 'w' => some .word
  | 'W' => some (.complement .word)
  | 's' => some .blank
  | 'S' => some (.complement .blank)
  | _ => none

def charEscape? : List Char → Option (Char × List Char)
  | 'a' :: rest => some ('\x07', rest)
  | 'f' :: rest => some ('\x0c', rest)
  | 't' :: rest => some ('\t', rest)
  | 'n' :: rest => some ('\n', rest)
  | 'r' :: rest => some ('\r', rest)
  | 'v' :: rest => some ('\x0b', rest)
  | 'x' :: rest => readHex? 2 rest
  | 'u' :: rest => readHex? 4 rest
  | 'U' :: rest => readHex? 8 rest
  | c :: rest =>
      if c.toNat < 0x80 && !c.isAlphanum && c != '<' && c != '>' then some (c, rest) else none
  | [] => none

def conditionEscape? : List Char → Option (Condition × List Char)
  | 'b' :: '{' :: 's' :: 't' :: 'a' :: 'r' :: 't' :: '}' :: rest => some (.wordStart, rest)
  | 'b' :: '{' :: 'e' :: 'n' :: 'd' :: '}' :: rest => some (.wordEnd, rest)
  | 'b' :: rest => some (.wordEdge, rest)
  | 'B' :: rest => some (.noWordEdge, rest)
  | 'A' :: rest => some (.textStart, rest)
  | 'z' :: rest => some (.textEnd, rest)
  | '<' :: rest => some (.wordStart, rest)
  | '>' :: rest => some (.wordEnd, rest)
  | _ => none

/-- The classes with names of their own, ASCII only. -/
def namedClasses : List (String × CharClass) :=
  let lower := CharClass.range 'a' 'z'
  let upper := CharClass.range 'A' 'Z'
  let digits := CharClass.range '0' '9'
  let alpha := CharClass.union lower upper
  let alnum := CharClass.union alpha digits
  let graph := CharClass.range '!' '~'
  [("alnum", alnum), ("alpha", alpha), ("ascii", .range '\x00' '\x7f'),
   ("blank", .ofList [' ', '\t']), ("cntrl", .union (.range '\x00' '\x1f') (.single '\x7f')),
   ("digit", digits), ("graph", graph), ("lower", lower), ("print", .range ' ' '~'),
   ("punct", .inter graph (.complement alnum)),
   ("space", .ofList [' ', '\t', '\n', '\x0b', '\x0c', '\r']), ("upper", upper),
   ("word", .union alnum (.single '_')),
   ("xdigit", .union digits (.union (.range 'a' 'f') (.range 'A' 'F')))]

/-- A named class between `[:` and `:]`, after its opening. -/
def namedClass? (text : List Char) : Option (CharClass × List Char) := do
  let (negated, text) := match text with
    | '^' :: rest => (true, rest)
    | rest => (false, rest)
  let name := text.takeWhile Char.isAlpha
  match text.drop name.length with
  | ':' :: ']' :: rest =>
      let set ← namedClasses.lookup (String.ofList name)
      return (if negated then .complement set else set, rest)
  | _ => none

def classAtom? : List Char → Option ((Char ⊕ CharClass) × List Char)
  | '\\' :: c :: rest =>
      match classEscape? c with
      | some set => some (.inr set, rest)
      | none => (charEscape? (c :: rest)).map fun (found, rest) => (.inl found, rest)
  | ['\\'] => none
  | c :: rest => some (.inl c, rest)
  | [] => none

mutual

/-- The items of a class up to its closing bracket. `soFar` is their union. -/
def classItems? : Nat → CharClass → List Char → Option (CharClass × List Char)
  | 0, _, _ => none
  | fuel + 1, soFar, text =>
      match text with
      | [] => none
      | ']' :: rest => some (soFar, rest)
      | '&' :: '&' :: rest => do
          let (right, rest) ← classItems? fuel .none rest
          return (.inter soFar right, rest)
      | '-' :: '-' :: rest => do
          let (right, rest) ← classItems? fuel .none rest
          return (.inter soFar (.complement right), rest)
      | '~' :: '~' :: rest => do
          let (right, rest) ← classItems? fuel .none rest
          return (.union (.inter soFar (.complement right)) (.inter right (.complement soFar)), rest)
      | '[' :: ':' :: rest =>
          match namedClass? rest with
          | some (set, rest) => classItems? fuel (.union soFar set) rest
          | none => do
              let (set, rest) ← bracket? fuel (':' :: rest)
              classItems? fuel (.union soFar set) rest
      | '[' :: rest => do
          let (set, rest) ← bracket? fuel rest
          classItems? fuel (.union soFar set) rest
      | text => do
          let (first, rest) ← classAtom? text
          match first, rest with
          | .inl first, '-' :: next :: rest =>
              if next = ']' || next = '-' then
                classItems? fuel (.union soFar (.single first)) ('-' :: next :: rest)
              else
                let (last, rest) ← classAtom? (next :: rest)
                match last with
                | .inl last =>
                    if first ≤ last then classItems? fuel (.union soFar (.range first last)) rest
                    else none
                | .inr _ => none
          | .inl first, rest => classItems? fuel (.union soFar (.single first)) rest
          | .inr set, rest => classItems? fuel (.union soFar set) rest

/-- A class after its opening bracket. A closing bracket and hyphens in front stand for
themselves. -/
def bracket? : Nat → List Char → Option (CharClass × List Char)
  | 0, _ => none
  | fuel + 1, text => do
      let (negated, text) := match text with
        | '^' :: rest => (true, rest)
        | rest => (false, rest)
      let hyphens := text.takeWhile (· == '-')
      let text := text.drop hyphens.length
      let (start, text) := match hyphens, text with
        | [], ']' :: rest => (CharClass.single ']', rest)
        | [], rest => (CharClass.none, rest)
        | _, rest => (CharClass.single '-', rest)
      let (set, rest) ← classItems? fuel start text
      return (if negated then .complement set else set, rest)

end

/-- The flags that letters set, and after a hyphen clear. -/
def readFlags? (set : Bool) (flags : Flags) : List Char → Option (Flags × List Char)
  | 'i' :: rest => readFlags? set { flags with ignoreCase := set } rest
  | 'm' :: rest => readFlags? set { flags with multiLine := set } rest
  | 's' :: rest => readFlags? set { flags with dotAll := set } rest
  | 'x' :: rest => readFlags? set { flags with verbose := set } rest
  | 'u' :: rest => if set then readFlags? set flags rest else none
  | 'U' :: rest => readFlags? set flags rest
  | '-' :: rest => if set && rest.head?.any Char.isAlpha then readFlags? false flags rest else none
  | rest => some (flags, rest)

def readCount? (text : List Char) : Option (Nat × List Char) :=
  let text := text.dropWhile isBlank
  let digits := text.takeWhile Char.isDigit
  if digits.isEmpty then none
  else do
    let value ← digitsValue? 10 digit? digits
    if value ≤ maxUnsigned 32 then some (value, (text.drop digits.length).dropWhile isBlank) else none

def readCounts? (text : List Char) : Option (Nat × Option Nat × List Char) := do
  let (least, rest) ← readCount? text
  match rest with
  | '}' :: rest => return (least, some least, rest)
  | ',' :: rest =>
      match rest.dropWhile isBlank with
      | '}' :: rest => return (least, none, rest)
      | rest =>
          let (most, rest) ← readCount? rest
          match rest with
          | '}' :: rest => if least ≤ most then return (least, some most, rest) else none
          | _ => none
  | _ => none

/-- The rest after the mark of a lazy repetition, which finds the same stretches. -/
def skipLazy : List Char → List Char
  | '?' :: rest => rest
  | rest => rest

def groupName? (text : List Char) : Option (List Char) := do
  let name := text.takeWhile (· != '>')
  let valid := match name with
    | first :: rest =>
        (first == '_' || first.isAlpha || (0x80 ≤ first.toNat && isWordLike first)) &&
          rest.all fun c => isWordLike c || c == '.' || c == '[' || c == ']'
    | [] => false
  match text.drop name.length with
  | '>' :: rest => if valid then some rest else none
  | _ => none

mutual

def choice? : Nat → Flags → List Char → Option (Pattern × List Char)
  | 0, _, _ => none
  | fuel + 1, flags, text => do
      let (first, flags, rest) ← sequence? fuel flags .empty none text
      match rest with
      | '|' :: rest =>
          let (second, rest) ← choice? fuel flags rest
          return (.choice first second, rest)
      | rest => return (first, rest)

/-- The parts of a sequence. `done` is what stands before the last part, which may still be
repeated; the flags that hold at the end are answered too. -/
def sequence? : Nat → Flags → Pattern → Option Pattern → List Char →
    Option (Pattern × Flags × List Char)
  | 0, _, _, _, _ => none
  | fuel + 1, flags, done, last, text =>
      let whole := match last with
        | some last => Pattern.sequence done last
        | none => done
      match skipIgnored flags text with
      | [] => some (whole, flags, [])
      | ')' :: rest => some (whole, flags, ')' :: rest)
      | '|' :: rest => some (whole, flags, '|' :: rest)
      | '*' :: rest => do sequence? fuel flags done (some (star (← last))) (skipLazy rest)
      | '+' :: rest => do sequence? fuel flags done (some (plus (← last))) (skipLazy rest)
      | '?' :: rest => do sequence? fuel flags done (some (Pattern.option (← last))) (skipLazy rest)
      | '{' :: rest => do
          let body ← last
          let (least, most, rest) ← readCounts? rest
          sequence? fuel flags done (some (.repeated body least most)) (skipLazy rest)
      | '(' :: '?' :: rest => do
          match rest with
          | 'P' :: '<' :: rest | '<' :: rest =>
              let rest ← groupName? rest
              let (body, rest) ← group? fuel flags rest
              sequence? fuel flags whole (some body) rest
          | rest =>
              let (inner, rest') ← readFlags? true flags rest
              match rest' with
              | ':' :: after =>
                  let (body, rest) ← group? fuel inner after
                  sequence? fuel flags whole (some body) rest
              | ')' :: after => if rest.head? = some ')' then none else
                  sequence? fuel inner whole none after
              | _ => none
      | '(' :: rest => do
          let (body, rest) ← group? fuel flags rest
          sequence? fuel flags whole (some body) rest
      | '[' :: rest => do
          let (set, rest) ← bracket? (rest.length + 1) rest
          sequence? fuel flags whole (some (ofClass flags set)) rest
      | '.' :: rest =>
          let set := if flags.dotAll then CharClass.all else CharClass.withinLine
          sequence? fuel flags whole (some (.class set)) rest
      | '^' :: rest =>
          let condition := if flags.multiLine then Condition.lineStart else .textStart
          sequence? fuel flags whole (some (.atPlace condition)) rest
      | '$' :: rest =>
          let condition := if flags.multiLine then Condition.lineEnd else .textEnd
          sequence? fuel flags whole (some (.atPlace condition)) rest
      | '\\' :: c :: rest =>
          match classEscape? c with
          | some set => sequence? fuel flags whole (some (ofClass flags set)) rest
          | none =>
              match conditionEscape? (c :: rest) with
              | some (condition, rest) =>
                  sequence? fuel flags whole (some (.atPlace condition)) rest
              | none => do
                  let (found, rest) ← charEscape? (c :: rest)
                  sequence? fuel flags whole (some (ofClass flags (.single found))) rest
      | ['\\'] => none
      | c :: rest => sequence? fuel flags whole (some (ofClass flags (.single c))) rest

def group? : Nat → Flags → List Char → Option (Pattern × List Char)
  | 0, _, _ => none
  | fuel + 1, flags, text => do
      let (body, rest) ← choice? fuel flags text
      match rest with
      | ')' :: rest => return (body, rest)
      | _ => none

end

def read? (text : String) : Option Pattern := do
  let characters := text.toList
  let (pattern, rest) ← choice? (3 * characters.length + 3) {} characters
  if rest.isEmpty then some pattern else none

end Graft.Pattern
