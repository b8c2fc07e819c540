import Graft.Text.Classes

/-!
Patterns over text: classes of characters, sequence, choice, repetition and conditions on a place.
A pattern is data, so that operators can write one (`Pattern.read?`) and the library can build its
own from the words it looks for.
-/

namespace Graft

open Text

inductive CharClass where
  | range (first last : Char)
  | digit
  | word
  | blank
  | none
  | complement (inner : CharClass)
  | union (a b : CharClass)
  | inter (a b : CharClass)
  deriving Repr, DecidableEq, Inhabited

namespace CharClass

def single (c : Char) : CharClass := .range c c

def all : CharClass := .complement .none

def withinLine : CharClass := .complement (.single '\n')

def ofList (chars : List Char) : CharClass := chars.foldl (fun s c => .union s (.single c)) .none

def mem : CharClass → Char → Bool
  | .range first last, c => first ≤ c && c ≤ last
  | .digit, c => isDecimalDigit c
  | .word, c => isWordLike c
  | .blank, c => isBlank c
  | .none, _ => false
  | .complement inner, c => !inner.mem c
  | .union a b, c => a.mem c || b.mem c
  | .inter a b, c => a.mem c && b.mem c

/-- Pairs of upper-case and lower-case ranges that lie at a fixed distance from each other. -/
def caseRanges : List (Nat × Nat × Nat) :=
  [(0x41, 0x5A, 0x20), (0xC0, 0xD6, 0x20), (0xD8, 0xDE, 0x20), (0x391, 0x3A1, 0x20),
   (0x3A3, 0x3AB, 0x20), (0x400, 0x40F, 0x50), (0x410, 0x42F, 0x20), (0x531, 0x556, 0x30)]

/-- Letters that differ from a letter in case only, though they lie elsewhere. -/
def caseExceptions : List (List Nat) :=
  [[0x4B, 0x6B, 0x212A], [0x53, 0x73, 0x17F], [0xC5, 0xE5, 0x212B], [0x3A3, 0x3C2, 0x3C3],
   [0xB5, 0x39C, 0x3BC], [0x398, 0x3B8, 0x3D1, 0x3F4], [0x3A9, 0x3C9, 0x2126], [0xDF, 0x1E9E],
   [0x178, 0xFF]]

def caseVariants (c : Char) : List Char :=
  let n := c.toNat
  let shifted := caseRanges.filterMap fun (first, last, distance) =>
    if first ≤ n && n ≤ last then some (Char.ofNat (n + distance))
    else if first + distance ≤ n && n ≤ last + distance then some (Char.ofNat (n - distance))
    else Option.none
  let paired :=
    if 0x100 ≤ n && n ≤ 0x137 || 0x14A ≤ n && n ≤ 0x177 || 0x460 ≤ n && n ≤ 0x481 then
      [Char.ofNat (if n % 2 = 0 then n + 1 else n - 1)]
    else []
  let listed := (caseExceptions.filter (·.contains n)).flatten.map Char.ofNat
  c :: shifted ++ paired ++ listed

/-- Whether the class holds a character that differs from the given one at most in case. The
complement is taken after case is ignored. -/
def memIgnoringCase : CharClass → Char → Bool
  | .range first last, c => (caseVariants c).any fun v => first ≤ v && v ≤ last
  | .complement inner, c => !inner.memIgnoringCase c
  | .union a b, c => a.memIgnoringCase c || b.memIgnoringCase c
  | .inter a b, c => a.memIgnoringCase c && b.memIgnoringCase c
  | simple, c => simple.mem c

end CharClass

inductive Condition where
  | textStart
  | textEnd
  | lineStart
  | lineEnd
  | wordEdge
  | noWordEdge
  | wordStart
  | wordEnd
  deriving Repr, DecidableEq, Inhabited

inductive Pattern where
  | empty
  | class (set : CharClass)
  | classIgnoringCase (set : CharClass)
  | atPlace (condition : Condition)
  | sequence (first second : Pattern)
  | choice (first second : Pattern)
  | repeated (body : Pattern) (least : Nat) (most : Option Nat)
  deriving Repr, DecidableEq, Inhabited

namespace Pattern

def all (parts : List Pattern) : Pattern := parts.foldr .sequence .empty

def anyOf : List Pattern → Pattern
  | [] => .class .none
  | [only] => only
  | first :: rest => .choice first (anyOf rest)

def literal (text : String) : Pattern := all (text.toList.map fun c => .class (.single c))

def star (body : Pattern) : Pattern := .repeated body 0 Option.none

def plus (body : Pattern) : Pattern := .repeated body 1 Option.none

def option (body : Pattern) : Pattern := .repeated body 0 (some 1)

def blanks : Pattern := star (.class .blank)

end Pattern

end Graft
