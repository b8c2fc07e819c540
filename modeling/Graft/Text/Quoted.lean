import Graft.Text.Printable
import Graft.Text.Numeral

/-!
Text in quotes for a message. What cannot be shown as it is, is written with an escape, so that the
message stays on one line and every character of the text can be told.
-/

namespace Graft.Text

def hexNumeral (n : Nat) : String := String.ofList (Nat.toDigits 16 n)

def quotedChar (c : Char) : List Char :=
  if c = '\x00' then ['\\', '0']
  else if c = '\t' then ['\\', 't']
  else if c = '\n' then ['\\', 'n']
  else if c = '\r' then ['\\', 'r']
  else if c = '"' then ['\\', '"']
  else if c = '\\' then ['\\', '\\']
  else if isPrintable c then [c]
  else "\\u\x7b".toList ++ (hexNumeral c.toNat).toList ++ ['\x7d']

def quoted (text : String) : String :=
  String.ofList (['"'] ++ text.toList.flatMap quotedChar ++ ['"'])

end Graft.Text
