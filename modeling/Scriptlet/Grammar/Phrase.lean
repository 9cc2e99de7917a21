import Scriptlet.Expr
import Scriptlet.Grammar.Lexeme

/-!
Phrases are what the grammar reads: expressions with their parentheses, with the signs in front of
an operand still in a row, and with integers still digits. The rules are an ordered-choice
grammar. A rule takes a phrase off the front of the lexemes or takes nothing; a repetition goes on
while its body succeeds and never gives anything back; an operator whose right operand is missing
is left where it stands.
-/

namespace Scriptlet.Grammar

inductive Phrase where
  | null
  | bool (b : Bool)
  | integer (digits : List Char)
  | float (numeral : Number.Numeral)
  | string (text : String)
  | name (n : String)
  | list (items : List Phrase)
  | group (inner : Phrase)
  | member (object : Phrase) (property : String)
  | index (object : Phrase) (key : Phrase)
  | call (callee : Phrase) (args : List Phrase)
  | signed (signs : List UnaryOp) (operand : Phrase)
  | binary (op : BinaryOp) (left : Phrase) (right : Phrase)
  | conditional (test : Phrase) (thenP : Phrase) (elseP : Phrase)
  deriving Repr

/-- A rule of the grammar: what it reads and the lexemes behind it. -/
abbrev Rule (α : Type) := List Lexeme → Option (α × List Lexeme)

def isKeyword (name : String) : Bool :=
  name == "true" || name == "false" || name == "null"

def identifier : Rule String
  | .word name :: rest => if isKeyword name then none else some (name, rest)
  | _ => none

def literal : Rule Phrase
  | .integer digits :: rest => some (.integer digits, rest)
  | .float numeral :: rest => some (.float numeral, rest)
  | .string text :: rest => some (.string text, rest)
  | .word name :: rest =>
      if name == "true" then some (.bool true, rest)
      else if name == "false" then some (.bool false, rest)
      else if name == "null" then some (.null, rest)
      else none
  | _ => none

/-- The levels of binary operators, from the loosest to the tightest. -/
inductive Level where
  | coalesce | or | and | equality | comparison | additive | multiplicative
  deriving Repr, DecidableEq

def Level.all : List Level :=
  [.coalesce, .or, .and, .equality, .comparison, .additive, .multiplicative]

/-- An operator of a level. An operator of two characters is two marks glued together, and it is
tried before the one that it starts with. -/
def operator : Level → Rule BinaryOp
  | .coalesce, .mark '?' true :: .mark '?' _ :: rest => some (.coalesce, rest)
  | .or, .mark '|' true :: .mark '|' _ :: rest => some (.or, rest)
  | .and, .mark '&' true :: .mark '&' _ :: rest => some (.and, rest)
  | .equality, .mark '=' true :: .mark '=' _ :: rest => some (.eq, rest)
  | .equality, .mark '!' true :: .mark '=' _ :: rest => some (.ne, rest)
  | .comparison, .mark '<' true :: .mark '=' _ :: rest => some (.le, rest)
  | .comparison, .mark '>' true :: .mark '=' _ :: rest => some (.ge, rest)
  | .comparison, .mark '<' _ :: rest => some (.lt, rest)
  | .comparison, .mark '>' _ :: rest => some (.gt, rest)
  | .additive, .mark '+' _ :: rest => some (.add, rest)
  | .additive, .mark '-' _ :: rest => some (.sub, rest)
  | .multiplicative, .mark '*' _ :: rest => some (.mul, rest)
  | .multiplicative, .mark '/' _ :: rest => some (.div, rest)
  | .multiplicative, .mark '%' _ :: rest => some (.rem, rest)
  | _, _ => none

/-- The signs in front of an operand. -/
def signs : List Lexeme → List UnaryOp × List Lexeme
  | .mark '-' _ :: rest => let (ops, rest) := signs rest; (.neg :: ops, rest)
  | .mark '!' _ :: rest => let (ops, rest) := signs rest; (.not :: ops, rest)
  | rest => ([], rest)

section Rules

/-! Each rule below is given the rule for a whole expression, which it uses inside brackets and
branches, and a bound on the turns of its repetitions. -/

variable (nested : Rule Phrase)

/-- Further items, each behind a comma. -/
def furtherItems : Nat → List Lexeme → List Phrase × List Lexeme
  | 0, s => ([], s)
  | turns + 1, s =>
      match s with
      | .mark ',' _ :: rest =>
          match nested rest with
          | some (item, rest) =>
              let (items, rest) := furtherItems turns rest
              (item :: items, rest)
          | none => ([], s)
      | _ => ([], s)

/-- Items between commas up to a closing bracket, possibly none. -/
def itemsUpTo (close : Char) (turns : Nat) : Rule (List Phrase) := fun s =>
  let (items, rest) :=
    match nested s with
    | some (item, rest) =>
        let (items, rest) := furtherItems nested turns rest
        (item :: items, rest)
    | none => ([], s)
  match rest with
  | .mark c _ :: rest => if c = close then some (items, rest) else none
  | _ => none

def primary (turns : Nat) : Rule Phrase := fun s =>
  match literal s with
  | some result => some result
  | none =>
      match s with
      | .mark '[' _ :: rest =>
          match itemsUpTo nested ']' turns rest with
          | some (items, rest) => some (.list items, rest)
          | none => none
      | .mark '(' _ :: rest =>
          match nested rest with
          | some (inner, .mark ')' _ :: rest) => some (.group inner, rest)
          | _ => none
      | _ =>
          match identifier s with
          | some (name, rest) => some (.name name, rest)
          | none => none

/-- A member, an index or a call behind `base`. -/
def suffix (base : Phrase) (turns : Nat) : Rule Phrase
  | .mark '.' _ :: rest =>
      match identifier rest with
      | some (property, rest) => some (.member base property, rest)
      | none => none
  | .mark '[' _ :: rest =>
      match nested rest with
      | some (key, .mark ']' _ :: rest) => some (.index base key, rest)
      | _ => none
  | .mark '(' _ :: rest =>
      match itemsUpTo nested ')' turns rest with
      | some (args, rest) => some (.call base args, rest)
      | none => none
  | _ => none

def suffixes : Nat → Phrase → List Lexeme → Phrase × List Lexeme
  | 0, base, s => (base, s)
  | turns + 1, base, s =>
      match suffix nested base turns s with
      | some (phrase, rest) => suffixes turns phrase rest
      | none => (base, s)

/-- An operand with everything that is behind it. -/
def suffixed (turns : Nat) : Rule Phrase := fun s =>
  match primary nested turns s with
  | some (base, rest) => some (suffixes nested turns base rest)
  | none => none

def unary (turns : Nat) : Rule Phrase := fun s =>
  let (ops, rest) := signs s
  match suffixed nested turns rest with
  | some (operand, rest) => some (if ops.isEmpty then operand else .signed ops operand, rest)
  | none => none

/-- Pairs of an operator and its right operand, folded to the left. -/
def chainFrom (op : Rule BinaryOp) (operand : Rule Phrase) :
    Nat → Phrase → List Lexeme → Phrase × List Lexeme
  | 0, left, s => (left, s)
  | turns + 1, left, s =>
      match op s with
      | some (o, rest) =>
          match operand rest with
          | some (right, rest) => chainFrom op operand turns (.binary o left right) rest
          | none => (left, s)
      | none => (left, s)

/-- The binary operators of the given levels over `unary` operands. -/
def binary (turns : Nat) : List Level → Rule Phrase
  | [] => unary nested turns
  | level :: tighter => fun s =>
      match binary turns tighter s with
      | some (left, rest) =>
          some (chainFrom (operator level) (binary turns tighter) turns left rest)
      | none => none

/-- A test with two branches, or an operand alone when what follows is no complete pair of
branches. -/
def conditional (turns : Nat) : Rule Phrase := fun s =>
  match binary nested turns Level.all s with
  | none => none
  | some (test, rest) =>
      match rest with
      | .mark '?' _ :: afterMark =>
          match nested afterMark with
          | some (thenP, .mark ':' _ :: afterColon) =>
              match nested afterColon with
              | some (elseP, behind) => some (.conditional test thenP elseP, behind)
              | none => some (test, rest)
          | _ => some (test, rest)
      | _ => some (test, rest)

end Rules

/-- An expression in which at most `depth` brackets and branches are open inside one another. -/
def expression : Nat → Rule Phrase
  | 0 => fun _ => none
  | depth + 1 => conditional (expression depth) (depth + 1)

/-- A whole source: one expression, then perhaps a semicolon. Every bracket takes a lexeme, so
the number of lexemes bounds the nesting and the turns of every repetition. -/
def program (s : List Lexeme) : Option Phrase :=
  match expression (s.length + 1) s with
  | some (phrase, []) => some phrase
  | some (phrase, [.mark ';' _]) => some phrase
  | _ => none

end Scriptlet.Grammar
