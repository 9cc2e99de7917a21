import Scriptlet.Grammar.Build
import Scriptlet.Number.Shortest

/-!
Writing an expression down. It is first made a phrase: parentheses are put exactly where a part
binds less tightly than its place asks for, and signs in a row become one row of signs, as the
grammar reads them. The phrase is then written out character by character, and its lexemes are
listed beside that, so that what the scanner does to the text and what the rules do to the lexemes
can be looked at one at a time.

A float has many numerals. Which one is written is left open: `spell` chooses it.
-/

namespace Scriptlet

open Grammar

/-! ### How tightly a phrase binds -/

namespace Grammar

/-- The place of a level among the ranks; a conditional has rank zero. -/
def Level.rank : Level → Nat
  | .coalesce => 1
  | .or => 2
  | .and => 3
  | .equality => 4
  | .comparison => 5
  | .additive => 6
  | .multiplicative => 7

end Grammar

def BinaryOp.level : BinaryOp → Level
  | .coalesce => .coalesce
  | .or => .or
  | .and => .and
  | .eq | .ne => .equality
  | .lt | .le | .gt | .ge => .comparison
  | .add | .sub => .additive
  | .mul | .div | .rem => .multiplicative

namespace Grammar

namespace Phrase

def rank : Phrase → Nat
  | .conditional .. => 0
  | .binary op _ _ => op.level.rank
  | .signed .. => 8
  | _ => 9

/-- In parentheses unless it binds as tightly as its place asks for. -/
def fit (needed : Nat) (p : Phrase) : Phrase :=
  if p.rank < needed then .group p else p

/-- One more sign in front. -/
def addSign (op : UnaryOp) : Phrase → Phrase
  | .signed signs operand => .signed (op :: signs) operand
  | p => .signed [op] p

end Phrase

end Grammar

namespace Number

def isNegative (x : Float) : Bool :=
  match content x with
  | .finite negative _ _ | .infinite negative => negative
  | .nan => false

end Number

mutual

/-- The phrase of an expression with the fewest parentheses. A negative number is a minus in front
of a numeral. -/
def Expr.phrase (spell : Float → Number.Numeral) : Expr → Phrase
  | .null => .null
  | .bool b => .bool b
  | .int n =>
      let digits := Number.decimalDigits n.toInt.natAbs
      if n.toInt < 0 then .signed [.neg] (.integer digits) else .integer digits
  | .float x =>
      if Number.isNegative x then .signed [.neg] (.float (spell x)) else .float (spell x)
  | .string s => .string s
  | .list items => .list (phrases spell items)
  | .ident name => .name name
  | .member object property => .member ((object.phrase spell).fit 9) property
  | .index object key => .index ((object.phrase spell).fit 9) (key.phrase spell)
  | .call callee args => .call ((callee.phrase spell).fit 9) (phrases spell args)
  | .unary op operand => ((operand.phrase spell).fit 8).addSign op
  | .binary op left right =>
      .binary op ((left.phrase spell).fit op.level.rank)
        ((right.phrase spell).fit (op.level.rank + 1))
  | .conditional test thenE elseE =>
      .conditional ((test.phrase spell).fit 1) (thenE.phrase spell) (elseE.phrase spell)

def phrases (spell : Float → Number.Numeral) : List Expr → List Phrase
  | [] => []
  | e :: es => e.phrase spell :: phrases spell es

end

/-! ### The characters and the lexemes of a phrase -/

namespace Number

def exponentText : Option (Bool × List Char) → List Char
  | some (true, digits) => 'e' :: '-' :: digits
  | some (false, digits) => 'e' :: digits
  | none => []

def fractionText : Option (List Char) → List Char
  | some digits => '.' :: digits
  | none => []

/-- A numeral without a sign. -/
def Numeral.text (n : Numeral) : List Char :=
  n.whole ++ (fractionText n.fraction ++ exponentText n.exponent)

end Number

namespace Grammar

/-- A character of a string as it is written between the quotes. -/
def escape : Char → List Char
  | '"' => ['\\', '"']
  | '\\' => ['\\', '\\']
  | '\n' => ['\\', 'n']
  | '\t' => ['\\', 't']
  | '\r' => ['\\', 'r']
  | c => [c]

/-- The marks of a row of characters that are no blanks. -/
def marks : List Char → List Lexeme
  | [] => []
  | [c] => [.mark c false]
  | c :: d :: rest => .mark c (joins c d) :: marks (d :: rest)

namespace Phrase

mutual

def text : Phrase → List Char
  | .null => "null".toList
  | .bool b => (if b then "true" else "false").toList
  | .integer digits => digits
  | .float numeral => numeral.text
  | .string s => '"' :: (s.toList.flatMap escape ++ ['"'])
  | .name n => n.toList
  | .list items => '[' :: (textItems items ++ [']'])
  | .group inner => '(' :: (inner.text ++ [')'])
  | .member object property => object.text ++ '.' :: property.toList
  | .index object key => object.text ++ '[' :: (key.text ++ [']'])
  | .call callee args => callee.text ++ '(' :: (textItems args ++ [')'])
  | .signed signs operand => signs.flatMap (·.symbol.toList) ++ operand.text
  | .binary op left right => left.text ++ ' ' :: (op.symbol.toList ++ ' ' :: right.text)
  | .conditional test thenP elseP =>
      test.text ++ ' ' :: '?' :: ' ' :: (thenP.text ++ ' ' :: ':' :: ' ' :: elseP.text)

def textItems : List Phrase → List Char
  | [] => []
  | item :: more => item.text ++ textFurther more

def textFurther : List Phrase → List Char
  | [] => []
  | item :: more => ',' :: ' ' :: (item.text ++ textFurther more)

end

mutual

def lexemes : Phrase → List Lexeme
  | .null => [.word "null"]
  | .bool b => [.word (if b then "true" else "false")]
  | .integer digits => [.integer digits]
  | .float numeral => [.float numeral]
  | .string s => [.string s]
  | .name n => [.word n]
  | .list items => .mark '[' false :: (lexemesItems items ++ [.mark ']' false])
  | .group inner => .mark '(' false :: (inner.lexemes ++ [.mark ')' false])
  | .member object property => object.lexemes ++ [.mark '.' false, .word property]
  | .index object key => object.lexemes ++ .mark '[' false :: (key.lexemes ++ [.mark ']' false])
  | .call callee args =>
      callee.lexemes ++ .mark '(' false :: (lexemesItems args ++ [.mark ')' false])
  | .signed signs operand => signs.flatMap (marks ·.symbol.toList) ++ operand.lexemes
  | .binary op left right => left.lexemes ++ (marks op.symbol.toList ++ right.lexemes)
  | .conditional test thenP elseP =>
      test.lexemes ++ .mark '?' false ::
        (thenP.lexemes ++ .mark ':' false :: elseP.lexemes)

def lexemesItems : List Phrase → List Lexeme
  | [] => []
  | item :: more => item.lexemes ++ lexemesFurther more

def lexemesFurther : List Phrase → List Lexeme
  | [] => []
  | item :: more => .mark ',' false :: (item.lexemes ++ lexemesFurther more)

end

end Phrase

/-! ### Phrases that the grammar can read -/

def IsIdentifier (name : String) : Prop :=
  (∃ c cs, name.toList = c :: cs ∧ startsWord c = true ∧ ∀ d ∈ cs, continuesWord d = true) ∧
    isKeyword name = false

def IsDigits (digits : List Char) : Prop :=
  digits ≠ [] ∧ ∀ c ∈ digits, Text.isDigit c = true

/-- A float as the grammar has it: a point or an exponent, and no sign in front. -/
structure IsFloat (n : Number.Numeral) : Prop where
  unsigned : n.negative = false
  whole : IsDigits n.whole
  fraction : ∀ digits ∈ n.fraction, IsDigits digits
  exponent : ∀ e ∈ n.exponent, IsDigits e.2
  not_integer : n.isInteger = false

namespace Phrase

mutual

/-- Names, digits and numerals are such as the grammar reads, and every part binds as tightly as
its place asks for. -/
def Proper : Phrase → Prop
  | .null | .bool _ | .string _ => True
  | .integer digits => IsDigits digits
  | .float numeral => IsFloat numeral
  | .name n => IsIdentifier n
  | .list items => ProperItems items
  | .group inner => inner.Proper
  | .member object property => object.Proper ∧ 9 ≤ object.rank ∧ IsIdentifier property
  | .index object key => object.Proper ∧ 9 ≤ object.rank ∧ key.Proper
  | .call callee args => callee.Proper ∧ 9 ≤ callee.rank ∧ ProperItems args
  | .signed signs operand => signs ≠ [] ∧ operand.Proper ∧ 9 ≤ operand.rank
  | .binary op left right =>
      left.Proper ∧ op.level.rank ≤ left.rank ∧ right.Proper ∧ op.level.rank < right.rank
  | .conditional test thenP elseP =>
      test.Proper ∧ 1 ≤ test.rank ∧ thenP.Proper ∧ elseP.Proper

def ProperItems : List Phrase → Prop
  | [] => True
  | item :: more => item.Proper ∧ ProperItems more

end

end Phrase

end Grammar

/-- The text of an expression. -/
def Expr.source (spell : Float → Number.Numeral) (e : Expr) : String :=
  String.ofList (e.phrase spell).text

end Scriptlet
