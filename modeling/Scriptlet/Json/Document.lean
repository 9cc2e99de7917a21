import Scriptlet.Json
import Scriptlet.Number.Numeral
import Scriptlet.Text.Ascii

/-!
Reading JSON text. A text is read into a `Document`, which keeps what a JSON value forgets: the
spelling of numerals, the order and repetition of fields, and strings that stand for no text
because they hold half a surrogate pair. A typed reader may take what it needs from there and
ignore the rest; `Document.toJson?` is the reader of untyped values.
-/

namespace Scriptlet.Json

open Text (isDigit hexValue?)

/-- A text in its written form. A string is `none` when a surrogate escape stands alone. -/
inductive Document where
  | null
  | bool (b : Bool)
  | number (n : Number.Numeral)
  | string (s : Option String)
  | array (items : List Document)
  | object (fields : List (Option String × Document))

namespace Document

def isBlank (c : Char) : Bool :=
  c == ' ' || c == '\n' || c == '\t' || c == '\r'

def skipBlank (cs : List Char) : List Char :=
  cs.dropWhile isBlank

/-- Four hexadecimal digits. -/
def unit? : List Char → Option (Nat × List Char)
  | a :: b :: c :: d :: rest => do
      let w ← hexValue? a
      let x ← hexValue? b
      let y ← hexValue? c
      let z ← hexValue? d
      some (((w * 16 + x) * 16 + y) * 16 + z, rest)
  | _ => none

/-- The low half of a surrogate pair, if it comes next. -/
def lowHalf? : List Char → Option (Nat × List Char)
  | '\\' :: 'u' :: rest =>
      match unit? rest with
      | some (n, rest) => if 0xDC00 ≤ n && n ≤ 0xDFFF then some (n, rest) else none
      | none => none
  | _ => none

/-- The characters after an opening quote up to the closing one. The first component is `none`
once an escape was half a surrogate pair. -/
def body? : Nat → List Char → Option (Option (List Char) × List Char)
  | 0, _ => none
  | fuel + 1, cs =>
      let single (c : Char) (rest : List Char) :=
        (body? fuel rest).map fun (text, rest) => (text.map (c :: ·), rest)
      match cs with
      | [] => none
      | '"' :: rest => some (some [], rest)
      | '\\' :: '"' :: rest => single '"' rest
      | '\\' :: '\\' :: rest => single '\\' rest
      | '\\' :: '/' :: rest => single '/' rest
      | '\\' :: 'b' :: rest => single (Char.ofNat 8) rest
      | '\\' :: 'f' :: rest => single (Char.ofNat 12) rest
      | '\\' :: 'n' :: rest => single '\n' rest
      | '\\' :: 'r' :: rest => single '\r' rest
      | '\\' :: 't' :: rest => single '\t' rest
      | '\\' :: 'u' :: rest =>
          match unit? rest with
          | none => none
          | some (n, rest) =>
              if 0xD800 ≤ n && n ≤ 0xDBFF then
                match lowHalf? rest with
                | some (m, rest) =>
                    single (Char.ofNat (0x10000 + (n - 0xD800) * 0x400 + (m - 0xDC00))) rest
                | none => (body? fuel rest).map fun (_, rest) => (none, rest)
              else if 0xDC00 ≤ n && n ≤ 0xDFFF then
                (body? fuel rest).map fun (_, rest) => (none, rest)
              else single (Char.ofNat n) rest
      | '\\' :: _ => none
      | c :: rest => if c.toNat < 32 then none else single c rest

def text? (cs : List Char) : Option (Option String × List Char) :=
  (body? (cs.length + 1) cs).map fun (text, rest) => (text.map String.ofList, rest)

/-- No digit may follow a leading zero. -/
def whole? (cs : List Char) : Option (List Char × List Char) :=
  match cs.takeWhile isDigit, cs.dropWhile isDigit with
  | [], _ => none
  | '0' :: _ :: _, _ => none
  | ds, rest => some (ds, rest)

def fraction? : List Char → Option (Option (List Char) × List Char)
  | '.' :: rest =>
      match rest.takeWhile isDigit with
      | [] => none
      | ds => some (some ds, rest.dropWhile isDigit)
  | rest => some (none, rest)

def exponentDigits? (down : Bool) (cs : List Char) :
    Option (Option (Bool × List Char) × List Char) :=
  match cs.takeWhile isDigit with
  | [] => none
  | ds => some (some (down, ds), cs.dropWhile isDigit)

def exponent? : List Char → Option (Option (Bool × List Char) × List Char)
  | c :: rest =>
      if c == 'e' || c == 'E' then
        match rest with
        | '-' :: rest => exponentDigits? true rest
        | '+' :: rest => exponentDigits? false rest
        | rest => exponentDigits? false rest
      else some (none, c :: rest)
  | [] => some (none, [])

def unsigned? (negative : Bool) (cs : List Char) : Option (Document × List Char) := do
  let (whole, rest) ← whole? cs
  let (fraction, rest) ← fraction? rest
  let (exponent, rest) ← exponent? rest
  some (.number { negative, whole, fraction, exponent }, rest)

mutual

/-- A value and the text behind it. `fuel` bounds the number of nested calls. -/
def value? : Nat → List Char → Option (Document × List Char)
  | 0, _ => none
  | fuel + 1, cs =>
      match skipBlank cs with
      | 'n' :: 'u' :: 'l' :: 'l' :: rest => some (.null, rest)
      | 't' :: 'r' :: 'u' :: 'e' :: rest => some (.bool true, rest)
      | 'f' :: 'a' :: 'l' :: 's' :: 'e' :: rest => some (.bool false, rest)
      | '"' :: rest => (text? rest).map fun (text, rest) => (.string text, rest)
      | '[' :: rest =>
          match skipBlank rest with
          | ']' :: rest => some (.array [], rest)
          | _ => (items? fuel rest).map fun (items, rest) => (.array items, rest)
      | '{' :: rest =>
          match skipBlank rest with
          | '}' :: rest => some (.object [], rest)
          | _ => (fields? fuel rest).map fun (fields, rest) => (.object fields, rest)
      | '-' :: rest => unsigned? true rest
      | cs => unsigned? false cs

def items? : Nat → List Char → Option (List Document × List Char)
  | 0, _ => none
  | fuel + 1, cs => do
      let (item, rest) ← value? fuel cs
      match skipBlank rest with
      | ',' :: rest => (items? fuel rest).map fun (items, rest) => (item :: items, rest)
      | ']' :: rest => some ([item], rest)
      | _ => none

def fields? : Nat → List Char → Option (List (Option String × Document) × List Char)
  | 0, _ => none
  | fuel + 1, cs =>
      match skipBlank cs with
      | '"' :: rest => do
          let (key, rest) ← text? rest
          match skipBlank rest with
          | ':' :: rest =>
              let (value, rest) ← value? fuel rest
              match skipBlank rest with
              | ',' :: rest =>
                  (fields? fuel rest).map fun (fields, rest) => ((key, value) :: fields, rest)
              | '}' :: rest => some ([(key, value)], rest)
              | _ => none
          | _ => none
      | _ => none

end

/-- The document of a whole text, with nothing but blanks around it. -/
def read? (text : String) : Option Document :=
  let cs := text.toList
  match value? (2 * cs.length + 2) cs with
  | some (document, rest) => if (skipBlank rest).isEmpty then some document else none
  | none => none

def ofNumeral? (n : Number.Numeral) : Option Json :=
  n.scaled.map fun
    | .integer n => .integer n
    | .float x => .float x

mutual

/-- The value of a document, in which at most `depth` arrays and objects are open at once. -/
def valueWithin? (depth : Nat) : Document → Option Json
  | .null => some .null
  | .bool b => some (.bool b)
  | .number n => ofNumeral? n
  | .string s => s.map .string
  | .array items =>
      match depth with
      | 0 => none
      | depth + 1 => (itemsWithin? depth items).map .array
  | .object fields =>
      match depth with
      | 0 => none
      | depth + 1 => (fieldsWithin? depth fields).map .ofFields

def itemsWithin? (depth : Nat) : List Document → Option (List Json)
  | [] => some []
  | item :: more => do
      let item ← valueWithin? depth item
      let more ← itemsWithin? depth more
      some (item :: more)

def fieldsWithin? (depth : Nat) : List (Option String × Document) → Option (List (String × Json))
  | [] => some []
  | (key, value) :: more => do
      let key ← key
      let value ← valueWithin? depth value
      let more ← fieldsWithin? depth more
      some ((key, value) :: more)

end

/-- How many arrays and objects may be open at once. -/
def nestingLimit : Nat := 127

def toJson? (document : Document) : Option Json :=
  document.valueWithin? nestingLimit

end Document

/-- The value of a JSON text. -/
def read? (text : String) : Option Json :=
  Document.read? text >>= Document.toJson?

end Scriptlet.Json
