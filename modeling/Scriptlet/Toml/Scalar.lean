import Scriptlet.Number.Reading
import Scriptlet.Text.Ascii
import Scriptlet.Toml

/-!
Strings, numbers, dates and times of TOML. Every reader takes the text from where its value
starts and returns the value and the text behind it. A reader stops where its value cannot go on,
and whether what follows may follow is for its caller to say.
-/

namespace Scriptlet.Toml

open Text (isDigit isLetter hexValue?)

def isSpace (c : Char) : Bool :=
  c == ' ' || c == '\t'

/-- Characters that stand in a comment: no controls but the tab. -/
def isPlain (c : Char) : Bool :=
  c == '\t' || (' ' ≤ c && c != '\x7f')

def skipSpaces (cs : List Char) : List Char :=
  cs.dropWhile isSpace

/-- The rest behind a line break. -/
def newline? : List Char → Option (List Char)
  | '\n' :: rest => some rest
  | '\r' :: '\n' :: rest => some rest
  | _ => none

/-! ### Strings -/

/-- The character of a code point, surrogates excluded. -/
def scalar? (n : Nat) : Option Char :=
  if n.isValidChar then some (Char.ofNat n) else none

/-- The character of a row of hexadecimal digits. -/
def hexChar? (digits : List Char) : Option Char := do
  let values ← digits.mapM hexValue?
  scalar? (values.foldl (fun n d => n * 16 + d) 0)

/-- What a letter behind a backslash stands for, when that is one character. -/
def escape? : Char → Option Char
  | 'b' => some (Char.ofNat 8)
  | 't' => some '\t'
  | 'n' => some '\n'
  | 'f' => some (Char.ofNat 12)
  | 'r' => some '\r'
  | '"' => some '"'
  | '\\' => some '\\'
  | _ => none

/-- Puts a character in front of a text that was read. -/
def prepend (c : Option Char) (rest : Option (List Char × List Char)) :
    Option (List Char × List Char) := do
  let c ← c
  let (text, rest) ← rest
  some (c :: text, rest)

/-- From behind the opening quote of a string on one line. -/
def basic? : List Char → Option (List Char × List Char)
  | '"' :: rest => some ([], rest)
  | '\\' :: 'u' :: a :: b :: c :: d :: rest => prepend (hexChar? [a, b, c, d]) (basic? rest)
  | '\\' :: 'U' :: a :: b :: c :: d :: e :: f :: g :: h :: rest =>
      prepend (hexChar? [a, b, c, d, e, f, g, h]) (basic? rest)
  | '\\' :: c :: rest => prepend (escape? c) (basic? rest)
  | c :: rest => if isPlain c && c != '\\' then prepend (some c) (basic? rest) else none
  | [] => none

/-- Whether nothing but spaces stands before the end of the line. -/
def lineEnds (cs : List Char) : Bool :=
  (newline? (skipSpaces cs)).isSome

/-- From behind the opening quotes of a string on many lines. One or two quotes may stand inside
it, also right before the three that close it. While `skipping`, which a backslash at the end of a
line starts, blanks and line breaks are dropped. -/
def multiline? (skipping : Bool) : List Char → Option (List Char × List Char)
  | '"' :: '"' :: '"' :: '"' :: '"' :: rest => some (['"', '"'], rest)
  | '"' :: '"' :: '"' :: '"' :: rest => some (['"'], rest)
  | '"' :: '"' :: '"' :: rest => some ([], rest)
  | '\r' :: '\n' :: rest =>
      if skipping then multiline? true rest else prepend (some '\n') (multiline? false rest)
  | '\n' :: rest =>
      if skipping then multiline? true rest else prepend (some '\n') (multiline? false rest)
  | '\\' :: 'u' :: a :: b :: c :: d :: rest =>
      prepend (hexChar? [a, b, c, d]) (multiline? false rest)
  | '\\' :: 'U' :: a :: b :: c :: d :: e :: f :: g :: h :: rest =>
      prepend (hexChar? [a, b, c, d, e, f, g, h]) (multiline? false rest)
  | '\\' :: c :: rest =>
      if lineEnds (c :: rest) then multiline? true (c :: rest)
      else prepend (escape? c) (multiline? false rest)
  | c :: rest =>
      if skipping && isSpace c then multiline? true rest
      else if isPlain c && c != '\\' then prepend (some c) (multiline? false rest)
      else none
  | [] => none

/-- From behind the opening apostrophe of a string on one line, which has no escapes. -/
def literal? : List Char → Option (List Char × List Char)
  | '\'' :: rest => some ([], rest)
  | c :: rest => if isPlain c then prepend (some c) (literal? rest) else none
  | [] => none

/-- From behind the opening apostrophes of a string on many lines. -/
def multilineLiteral? : List Char → Option (List Char × List Char)
  | '\'' :: '\'' :: '\'' :: '\'' :: '\'' :: rest => some (['\'', '\''], rest)
  | '\'' :: '\'' :: '\'' :: '\'' :: rest => some (['\''], rest)
  | '\'' :: '\'' :: '\'' :: rest => some ([], rest)
  | '\r' :: '\n' :: rest => prepend (some '\n') (multilineLiteral? rest)
  | '\n' :: rest => prepend (some '\n') (multilineLiteral? rest)
  | c :: rest => if isPlain c then prepend (some c) (multilineLiteral? rest) else none
  | [] => none

/-- A line break right behind the opening quotes does not count. -/
def skipNewline (cs : List Char) : List Char :=
  (newline? cs).getD cs

def string? (cs : List Char) : Option (String × List Char) :=
  let text := match cs with
    | '"' :: '"' :: '"' :: rest => multiline? false (skipNewline rest)
    | '"' :: rest => basic? rest
    | '\'' :: '\'' :: '\'' :: rest => multilineLiteral? (skipNewline rest)
    | '\'' :: rest => literal? rest
    | _ => none
  text.map fun (text, rest) => (String.ofList text, rest)

/-! ### Numbers -/

/-- Digits with single underscores between them. -/
def digitRun (ok : Char → Bool) : List Char → List Char × List Char
  | '_' :: d :: rest =>
      if ok d then
        let (digits, rest) := digitRun ok rest
        (d :: digits, rest)
      else ([], '_' :: d :: rest)
  | c :: rest =>
      if ok c then
        let (digits, rest) := digitRun ok rest
        (c :: digits, rest)
      else ([], c :: rest)
  | [] => ([], [])

/-- One digit or more. -/
def digits? (ok : Char → Bool) : List Char → Option (List Char × List Char)
  | '_' :: _ => none
  | cs =>
      match digitRun ok cs with
      | ([], _) => none
      | found => some found

/-- The digits of a whole number: a zero stands alone. -/
def whole? : List Char → Option (List Char × List Char)
  | '0' :: rest => some (['0'], rest)
  | cs => digits? isDigit cs

def fraction? : List Char → Option (List Char × List Char)
  | '.' :: rest => digits? isDigit rest
  | _ => none

def exponent? : List Char → Option ((Bool × List Char) × List Char)
  | c :: rest =>
      if c == 'e' || c == 'E' then
        let (down, rest) := Number.sign rest
        (digits? isDigit rest).map fun (digits, rest) => ((down, digits), rest)
      else none
  | [] => none

/-- A number with a fraction, an exponent or both. -/
def numeral? (cs : List Char) : Option (Number.Numeral × List Char) := do
  let (negative, rest) := Number.sign cs
  let (whole, rest) ← whole? rest
  match fraction? rest with
  | some (fraction, rest) =>
      match exponent? rest with
      | some (exponent, rest) =>
          some ({ negative, whole, fraction := some fraction, exponent := some exponent }, rest)
      | none => some ({ negative, whole, fraction := some fraction }, rest)
  | none =>
      let (exponent, rest) ← exponent? rest
      some ({ negative, whole, exponent := some exponent }, rest)

/-- A float may not exceed the range of floats upwards. -/
def float? (cs : List Char) : Option (Toml × List Char) :=
  match numeral? cs with
  | some (numeral, rest) =>
      let x := numeral.nearest
      if x.isInf && !numeral.negative then none else some (.float x, rest)
  | none =>
      let (negative, rest) := Number.sign cs
      match rest with
      | 'i' :: 'n' :: 'f' :: rest => some (.float (Number.signed negative (1.0 / 0.0)), rest)
      | 'n' :: 'a' :: 'n' :: rest => some (.float (0.0 / 0.0), rest)
      | _ => none

/-- An integer of 64 bits. -/
def bounded? (n : Int) (rest : List Char) : Option (Toml × List Char) :=
  if Number.Fits n then some (.integer n, rest) else none

/-- An integer in a base, from its digits on. -/
def based? (base : Nat) (cs : List Char) : Option (Toml × List Char) := do
  let ok (c : Char) := (hexValue? c).any (· < base)
  let (digits, rest) ← digits? ok cs
  let n := digits.foldl (fun n c => n * base + (hexValue? c).getD 0) 0
  bounded? n rest

def integer? : List Char → Option (Toml × List Char)
  | '0' :: 'x' :: rest => based? 16 rest
  | '0' :: 'o' :: rest => based? 8 rest
  | '0' :: 'b' :: rest => based? 2 rest
  | cs => do
      let (negative, rest) := Number.sign cs
      let (digits, rest) ← whole? rest
      let n := Int.ofNat (Number.natOfDigits digits)
      bounded? (if negative then -n else n) rest

/-! ### Dates and times -/

/-- A number of exactly `count` digits within bounds. -/
def field? (count low high : Nat) (cs : List Char) : Option (Nat × List Char) :=
  let digits := cs.take count
  let n := Number.natOfDigits digits
  if digits.length = count ∧ digits.all isDigit ∧ low ≤ n ∧ n ≤ high then
    some (n, cs.drop count)
  else none

def mark? (c : Char) : List Char → Option (List Char)
  | d :: rest => if c = d then some rest else none
  | [] => none

def daysIn (year month : Nat) : Nat :=
  match month with
  | 2 => if year % 4 = 0 ∧ (year % 100 ≠ 0 ∨ year % 400 = 0) then 29 else 28
  | 4 | 6 | 9 | 11 => 30
  | _ => 31

/-- The text behind a date of the calendar. -/
def date? (cs : List Char) : Option (List Char) := do
  let (year, rest) ← field? 4 0 9999 cs
  let rest ← mark? '-' rest
  let (month, rest) ← field? 2 1 12 rest
  let rest ← mark? '-' rest
  let (_, rest) ← field? 2 1 (daysIn year month) rest
  some rest

/-- The text behind a time of day; a minute may have a leap second. -/
def time? (cs : List Char) : Option (List Char) := do
  let (_, rest) ← field? 2 0 23 cs
  let rest ← mark? ':' rest
  let (_, rest) ← field? 2 0 59 rest
  let rest ← mark? ':' rest
  let (_, rest) ← field? 2 0 60 rest
  match rest with
  | '.' :: d :: more => if isDigit d then some (more.dropWhile isDigit) else some rest
  | _ => some rest

/-- The text behind the offset from universal time. -/
def offset? (cs : List Char) : Option (List Char) :=
  match cs with
  | 'Z' :: rest | 'z' :: rest => some rest
  | '+' :: rest | '-' :: rest => do
      let (_, rest) ← field? 2 0 23 rest
      let rest ← mark? ':' rest
      let (_, rest) ← field? 2 0 59 rest
      some rest
  | _ => none

/-- The text behind a date with a time. -/
def dateTime? (cs : List Char) : Option (List Char) :=
  match cs with
  | c :: rest =>
      if c == 'T' || c == 't' || c == ' ' then
        (time? rest).map fun rest => (offset? rest).getD rest
      else none
  | [] => none

/-- The text behind a date, a time, or both. -/
def behindMoment? (cs : List Char) : Option (List Char) :=
  match date? cs with
  | some rest => some ((dateTime? rest).getD rest)
  | none => time? cs

def moment? (cs : List Char) : Option (Toml × List Char) :=
  (behindMoment? cs).map fun rest =>
    (.moment (String.ofList (cs.take (cs.length - rest.length))), rest)

/-- A value without parts. -/
def scalarValue? (cs : List Char) : Option (Toml × List Char) :=
  match cs with
  | '"' :: _ | '\'' :: _ => (string? cs).map fun (s, rest) => (.string s, rest)
  | 't' :: 'r' :: 'u' :: 'e' :: rest => some (.boolean true, rest)
  | 'f' :: 'a' :: 'l' :: 's' :: 'e' :: rest => some (.boolean false, rest)
  | _ => moment? cs <|> float? cs <|> integer? cs

end Scriptlet.Toml
