import Scriptlet.Toml.Scalar
import Scriptlet.Toml.Table

/-!
Reading a TOML document: keys, arrays, inline tables, and the lines of a document. Arrays may
break over lines and hold comments; an inline table stands on one line and has no comma at its
end. Values nest to a limit, and a key has no more parts than that limit.
-/

namespace Scriptlet.Toml

open Text (isDigit isLetter)

/-- Arrays and inline tables that may be open at once, and parts that a key may have. -/
def nestingLimit : Nat := 79

def isBare (c : Char) : Bool :=
  isLetter c || isDigit c || c == '_' || c == '-'

/-- One part of a key. -/
def part? (cs : List Char) : Option (String × List Char) :=
  match cs with
  | '"' :: rest => (basic? rest).map fun (text, rest) => (String.ofList text, rest)
  | '\'' :: rest => (literal? rest).map fun (text, rest) => (String.ofList text, rest)
  | cs =>
      match cs.takeWhile isBare with
      | [] => none
      | name => some (String.ofList name, cs.dropWhile isBare)

/-- The parts of a dotted key, at most `fuel` of them, with the spaces around them. -/
def parts? : Nat → List Char → Option (List String × List Char)
  | 0, _ => none
  | fuel + 1, cs => do
      let (part, rest) ← part? (skipSpaces cs)
      match skipSpaces rest with
      | '.' :: rest => (parts? fuel rest).map fun (parts, rest) => (part :: parts, rest)
      | rest => some ([part], rest)

def key? (cs : List Char) : Option (Key × List Char) := do
  let (parts, rest) ← parts? nestingLimit cs
  let last ← parts.getLast?
  some ({ path := parts.dropLast, last }, rest)

/-- The rest of a comment, from its mark on. -/
def skipComment (cs : List Char) : List Char :=
  cs.dropWhile isPlain

/-- Skips blanks, line breaks and comments; the flag says whether a comment is open. -/
def skipLayout : Bool → List Char → List Char
  | _, [] => []
  | _, '\n' :: rest => skipLayout false rest
  | _, '\r' :: '\n' :: rest => skipLayout false rest
  | true, c :: rest => if isPlain c then skipLayout true rest else c :: rest
  | false, c :: rest =>
      if isSpace c then skipLayout false rest
      else if c == '#' then skipLayout true rest
      else c :: rest

mutual

/-- A value, in which at most `depth` arrays and inline tables are open at once. -/
def value? : Nat → Nat → List Char → Option (Toml × List Char)
  | 0, _, _ => none
  | fuel + 1, depth, cs =>
      match cs, depth with
      | '[' :: _, 0 | '{' :: _, 0 => none
      | '[' :: rest, depth + 1 =>
          (items? fuel depth rest).map fun (items, rest) => (.array items, rest)
      | '{' :: rest, depth + 1 =>
          match skipSpaces rest with
          | '}' :: rest => some (.table [], rest)
          | rest => do
              let (pairs, rest) ← pairs? fuel depth rest
              some (← ofPairs? pairs, rest)
      | cs, _ => scalarValue? cs

/-- The items of an array up to its closing bracket. -/
def items? : Nat → Nat → List Char → Option (List Toml × List Char)
  | 0, _, _ => none
  | fuel + 1, depth, cs =>
      match skipLayout false cs with
      | ']' :: rest => some ([], rest)
      | cs => do
          let (item, rest) ← value? fuel depth cs
          match skipLayout false rest with
          | ',' :: rest => (items? fuel depth rest).map fun (items, rest) => (item :: items, rest)
          | ']' :: rest => some ([item], rest)
          | _ => none

/-- The pairs of an inline table up to its closing brace. -/
def pairs? : Nat → Nat → List Char → Option (List (Key × Toml) × List Char)
  | 0, _, _ => none
  | fuel + 1, depth, cs => do
      let (key, rest) ← key? cs
      let rest ← mark? '=' rest
      let (value, rest) ← value? fuel depth (skipSpaces rest)
      match skipSpaces rest with
      | ',' :: rest => (pairs? fuel depth rest).map fun (pairs, rest) => ((key, value) :: pairs, rest)
      | '}' :: rest => some ([(key, value)], rest)
      | _ => none

end

/-- The rest behind the end of a line, on which nothing but a comment may stand. -/
def lineEnd? (cs : List Char) : Option (List Char) :=
  let rest := match skipSpaces cs with
    | '#' :: rest => skipComment rest
    | rest => rest
  match rest with
  | [] => some []
  | rest => newline? rest

/-- What stands on a line, which is not blank. -/
def statement? (cs : List Char) : Option (Statement × List Char) :=
  match cs with
  | '[' :: '[' :: rest => do
      let (key, rest) ← key? rest
      let rest ← mark? ']' rest
      let rest ← mark? ']' rest
      some (.listHeader key, rest)
  | '[' :: rest => do
      let (key, rest) ← key? rest
      let rest ← mark? ']' rest
      some (.header key, rest)
  | cs => do
      let (key, rest) ← key? cs
      let rest ← mark? '=' rest
      let rest := skipSpaces rest
      let (value, rest) ← value? (2 * rest.length + 2) nestingLimit rest
      some (.pair key value, rest)

/-- The statements of a document, one a line. -/
def statements? : Nat → List Char → Option (List Statement)
  | 0, _ => none
  | fuel + 1, cs =>
      match skipLayout false cs with
      | [] => some []
      | cs => do
          let (statement, rest) ← statement? cs
          let rest ← lineEnd? rest
          (statements? fuel rest).map (statement :: ·)

/-- The table of a document; a byte order mark in front of it does not count. -/
def read? (text : String) : Option Toml := do
  let cs := match text.toList with
    | '\ufeff' :: rest => rest
    | cs => cs
  let statements ← statements? (cs.length + 1) cs
  ofStatements? statements

end Scriptlet.Toml
