import Scriptlet.Text.PrintTables
import Scriptlet.Text.Ranges

/-!
A text in double quotes as diagnostics show it. Quotes, backslashes and the common controls have
short escapes; a character that would not be seen, or that would attach itself to the one before
it, is written by its code point.
-/

namespace Scriptlet.Text

def isVisible (c : Char) : Bool :=
  !inRanges extendingRanges c.toNat && !inRanges shapelessRanges c.toNat

def quotedChar (c : Char) : List Char :=
  match c with
  | '\x00' => ['\\', '0']
  | '\t' => ['\\', 't']
  | '\r' => ['\\', 'r']
  | '\n' => ['\\', 'n']
  | '\\' => ['\\', '\\']
  | '"' => ['\\', '"']
  | c =>
      if isVisible c then [c]
      else ['\\', 'u', '\x7b'] ++ Nat.toDigits 16 c.toNat ++ ['\x7d']

def quoted (s : String) : String :=
  String.ofList ('"' :: (s.toList.flatMap quotedChar ++ ['"']))

end Scriptlet.Text
