import Scriptlet.Json

/-!
JSON text. A string is written with the short escapes where there are any and `\u00xx` for the
other controls; every other character stands for itself. The compact form has no space outside
strings; the indented form puts each item on a line of its own, two spaces deeper than its parent,
and writes empty arrays and objects without a break. Fields are written in the order in which the
object holds them.
-/

namespace Scriptlet.Json

def hexDigit (n : Nat) : Char :=
  if n < 10 then Char.ofNat ('0'.toNat + n) else Char.ofNat ('a'.toNat + (n - 10))

/-- How a character is written inside a string. -/
def escapeChar (c : Char) : List Char :=
  match c with
  | '"' => ['\\', '"']
  | '\\' => ['\\', '\\']
  | '\n' => ['\\', 'n']
  | '\t' => ['\\', 't']
  | '\r' => ['\\', 'r']
  | c =>
      if c.toNat = 8 then ['\\', 'b']
      else if c.toNat = 12 then ['\\', 'f']
      else if c.toNat < 32 then
        ['\\', 'u', '0', '0', hexDigit (c.toNat / 16), hexDigit (c.toNat % 16)]
      else [c]

def quote (s : String) : String :=
  String.ofList ('"' :: (s.toList.flatMap escapeChar ++ ['"']))

mutual

/-- Text without spaces. -/
def compact : Json → String
  | .null => "null"
  | .bool b => if b then "true" else "false"
  | .integer n => toString n
  | .float x => Number.documentText x
  | .string s => quote s
  | .array items => "[" ++ compactItems items ++ "]"
  | .object fields => "\x7b" ++ compactFields fields ++ "\x7d"

def compactItems : List Json → String
  | [] => ""
  | [item] => compact item
  | item :: more => compact item ++ "," ++ compactItems more

def compactFields : List (String × Json) → String
  | [] => ""
  | [(key, value)] => quote key ++ ":" ++ compact value
  | (key, value) :: more => quote key ++ ":" ++ compact value ++ "," ++ compactFields more

end

def indentation (depth : Nat) : String :=
  String.ofList (List.replicate (2 * depth) ' ')

mutual

/-- Text over several lines, for a value that starts at `depth`. -/
def indented (depth : Nat) : Json → String
  | .array [] => "[]"
  | .array items =>
      "[\n" ++ indentedItems (depth + 1) items ++ "\n" ++ indentation depth ++ "]"
  | .object [] => "\x7b\x7d"
  | .object fields =>
      "\x7b\n" ++ indentedFields (depth + 1) fields ++ "\n" ++ indentation depth ++ "\x7d"
  | .null => "null"
  | .bool b => if b then "true" else "false"
  | .integer n => toString n
  | .float x => Number.documentText x
  | .string s => quote s

def indentedItems (depth : Nat) : List Json → String
  | [] => ""
  | [item] => indentation depth ++ indented depth item
  | item :: more =>
      indentation depth ++ indented depth item ++ ",\n" ++ indentedItems depth more

def indentedFields (depth : Nat) : List (String × Json) → String
  | [] => ""
  | [(key, value)] => indentation depth ++ quote key ++ ": " ++ indented depth value
  | (key, value) :: more =>
      indentation depth ++ quote key ++ ": " ++ indented depth value ++ ",\n"
        ++ indentedFields depth more

end

/-- The indented form of a whole document. -/
def pretty (json : Json) : String :=
  indented 0 json

end Scriptlet.Json
