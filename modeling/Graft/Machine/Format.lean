import Graft.Text.Numeral
import Graft.Text.Utf8

/-!
Formatted printing: a format with escapes and with places for arguments, which is used again until
all arguments are printed. Bytes may be written by their octal numerals.
-/

namespace Graft.Machine

open Graft.Text

/-- A piece of a format: bytes as they are, or the place of an argument with its flags, its width,
its precision and its kind. -/
inductive FormatPiece where
  | bytes (content : Bytes)
  | place (flags : List Char) (width : Nat) (precision : Option Nat) (kind : Char)
  /-- Ends all output. -/
  | stop
  deriving Inhabited

private def bytesOf (c : Char) : Bytes := encode (String.ofList [c])

/-- The bytes of an escape behind its backslash, with at most so many octal digits; nothing for the
escape that ends the output. -/
def escapeBytes (octalDigits : Nat) (text : List Char) : Option Bytes × List Char :=
  match text with
  | [] => (some (bytesOf '\\'), [])
  | c :: rest =>
      let digits := (text.take octalDigits).takeWhile fun d => '0' ≤ d && d ≤ '7'
      if !digits.isEmpty then
        let value := (digitsValue? 8 digit? digits).getD 0
        (some [UInt8.ofNat value], text.drop digits.length)
      else
        let simple := [('n', 10), ('t', 9), ('r', 13), ('a', 7), ('b', 8), ('f', 12), ('v', 11),
          ('\\', 92), ('"', 34), ('e', 27)]
        if c = 'c' then (none, [])
        else
          match simple.lookup c with
          | some code => (some [UInt8.ofNat code], rest)
          | none => (some (bytesOf '\\' ++ bytesOf c), rest)

/-- The text with its escapes read, and whether output goes on behind it. Octal numerals start with
a zero. -/
def unescape : Nat → List Char → Bytes × Bool
  | 0, _ => ([], true)
  | _ + 1, [] => ([], true)
  | fuel + 1, '\\' :: '0' :: rest =>
      let (found, rest) := escapeBytes 4 ('0' :: rest)
      let (others, more) := unescape fuel rest
      (found.getD [] ++ others, more)
  | fuel + 1, '\\' :: rest =>
      match escapeBytes 0 rest with
      | (none, _) => ([], false)
      | (some found, rest) =>
          let (others, more) := unescape fuel rest
          (found ++ others, more)
  | fuel + 1, c :: rest =>
      let (others, more) := unescape fuel rest
      (bytesOf c ++ others, more)

def formatPieces : Nat → List Char → List FormatPiece
  | 0, _ => []
  | _ + 1, [] => []
  | fuel + 1, '\\' :: rest =>
      match escapeBytes 3 rest with
      | (none, _) => [.stop]
      | (some found, rest) => .bytes found :: formatPieces fuel rest
  | fuel + 1, '%' :: '%' :: rest => .bytes (bytesOf '%') :: formatPieces fuel rest
  | fuel + 1, '%' :: rest =>
      let flags := rest.takeWhile ("-0+ #".toList.contains ·)
      let rest := rest.drop flags.length
      let width := rest.takeWhile Char.isDigit
      let rest := rest.drop width.length
      let (precision, rest) := match rest with
        | '.' :: rest =>
            let digits := rest.takeWhile Char.isDigit
            (some ((digitsValue? 10 digit? digits).getD 0), rest.drop digits.length)
        | rest => (none, rest)
      match rest with
      | kind :: rest =>
          .place flags ((digitsValue? 10 digit? width).getD 0) precision kind ::
            formatPieces fuel rest
      | [] => [.bytes (bytesOf '%')]
  | fuel + 1, c :: rest => .bytes (bytesOf c) :: formatPieces fuel rest

/-- The number that an argument writes: decimal, or the code of a character behind a quote. -/
def numberOf (argument : String) : Int :=
  match argument.toList with
  | '\'' :: c :: _ | '"' :: c :: _ => c.toNat
  | '-' :: digits => -(((digitsValue? 10 digit? digits).getD 0 : Nat) : Int)
  | digits => ((digitsValue? 10 digit? digits).getD 0 : Nat)

def fill (flags : List Char) (width : Nat) (numeric : Bool) (content : Bytes) : Bytes :=
  let missing := width - content.length
  let blank := if numeric && flags.contains '0' && !flags.contains '-' then 48 else 32
  if flags.contains '-' then content ++ List.replicate missing 32
  else
    match content with
    | 45 :: digits =>
        if blank = 48 then 45 :: List.replicate missing 48 ++ digits
        else List.replicate missing 32 ++ content
    | _ => List.replicate missing blank ++ content

def formatOne (flags : List Char) (width : Nat) (precision : Option Nat) (kind : Char)
    (argument : String) : Bytes × Bool :=
  let cut (content : Bytes) : Bytes := match precision with
    | some n => content.take n
    | none => content
  let number := numberOf argument
  let based (base : Nat) : Bytes := encode (String.ofList (Nat.toDigits base number.toNat))
  match kind with
  | 's' => (fill flags width false (cut (encode argument)), true)
  | 'b' =>
      let (content, more) := unescape (argument.length + 1) argument.toList
      (fill flags width false (cut content), more)
  | 'c' => (fill flags width false ((encode argument).take 1), true)
  | 'd' | 'i' | 'u' =>
      let sign := if flags.contains '+' && 0 ≤ number then "+" else ""
      (fill flags width true (encode (sign ++ toString number)), true)
  | 'x' => (fill flags width true (based 16), true)
  | 'X' => (fill flags width true ((based 16).map fun b => if 97 ≤ b then b - 32 else b), true)
  | 'o' => (fill flags width true (based 8), true)
  | _ => ([], true)

/-- One pass through a format: what it prints, the arguments that are left, and whether output goes
on behind it. -/
def formatPass : List FormatPiece → List String → Bytes × List String × Bool
  | [], arguments => ([], arguments, true)
  | .stop :: _, arguments => ([], arguments, false)
  | .bytes content :: rest, arguments =>
      let (others, arguments, more) := formatPass rest arguments
      (content ++ others, arguments, more)
  | .place flags width precision kind :: rest, arguments =>
      match formatOne flags width precision kind (arguments.head?.getD "") with
      | (content, false) => (content, arguments.tail, false)
      | (content, true) =>
          let (others, arguments, more) := formatPass rest arguments.tail
          (content ++ others, arguments, more)

def FormatPiece.takesArgument : FormatPiece → Bool
  | .place .. => true
  | _ => false

/-- Prints a format again and again until the arguments are used up. -/
def formatAll (pieces : List FormatPiece) : Nat → List String → Bytes
  | 0, _ => []
  | fuel + 1, arguments =>
      let (printed, rest, more) := formatPass pieces arguments
      if !more || rest.isEmpty || !pieces.any (·.takesArgument) then printed
      else printed ++ formatAll pieces fuel rest

def formatted (format : String) (arguments : List String) : Bytes :=
  formatAll (formatPieces (format.length + 1) format.toList) (arguments.length + 1) arguments

end Graft.Machine
