import Scriptlet.Grammar.Phrase

/-!
Where a refused source goes wrong, and what could stand there. A source is read once from left to
right. At each lexeme the reader knows which brackets and branches are open and what must come
next, and the first lexeme that cannot come there is the place to report: every source that begins
with the lexemes before it can still be completed. What could stand there is named by the rules of
the grammar, outermost first.
-/

namespace Scriptlet.Grammar

/-- What is open at a place of a source. A branch is the part between `?` and `:`. -/
inductive Opener where
  | group
  | list
  | index
  | call
  | branch
  deriving Repr, DecidableEq

/-- What the next lexeme may be. `mayClose` is set right behind the bracket of a list or a call,
`signed` behind a sign. -/
inductive Awaited where
  | operand (mayClose : Bool) (signed : Bool)
  | continuation
  | memberName
  | nothing
  deriving Repr, DecidableEq

/-- What could stand where a source goes wrong. -/
inductive Expected where
  | operand
  | signedOperand
  | memberName
  | ending
  | continuation (mayEnd : Bool)
  deriving Repr, DecidableEq

/-- Names of grammar rules. -/
def Expected.rules : Expected → List String
  | .operand => ["unary"]
  | .signedOperand => ["unary_op", "primary"]
  | .memberName => ["identifier"]
  | .ending => ["EOI"]
  | .continuation mayEnd =>
      (if mayEnd then ["EOI"] else [])
        ++ ["eq_op", "cmp_op", "add_op", "mul_op", "member", "index", "call"]

/-- The first lexeme that cannot come where it comes, as the source from there on. -/
def firstMisfit : List Opener → Awaited → List (List Char × Lexeme) →
    Option (List Char × Expected)
  | _, .operand _ signed, [] => some ([], if signed then .signedOperand else .operand)
  | openers, .operand mayClose signed, (here, l) :: rest =>
      match l with
      | .integer _ | .float _ | .string _ | .word _ => firstMisfit openers .continuation rest
      | .mark '(' _ => firstMisfit (.group :: openers) (.operand false false) rest
      | .mark '[' _ => firstMisfit (.list :: openers) (.operand true false) rest
      | .mark '-' _ | .mark '!' _ => firstMisfit openers (.operand false true) rest
      | .mark c _ =>
          match mayClose, c, openers with
          | true, ')', .call :: outer => firstMisfit outer .continuation rest
          | true, ']', .list :: outer => firstMisfit outer .continuation rest
          | _, _, _ => some (here, if signed then .signedOperand else .operand)
  | _, .memberName, [] => some ([], .memberName)
  | openers, .memberName, (here, l) :: rest =>
      match l with
      | .word name =>
          if isKeyword name then some (here, .memberName)
          else firstMisfit openers .continuation rest
      | _ => some (here, .memberName)
  | _, .nothing, [] => none
  | _, .nothing, (here, _) :: _ => some (here, .ending)
  | openers, .continuation, [] =>
      if openers.isEmpty then none else some ([], .continuation false)
  | openers, .continuation, (here, l) :: rest =>
      match l, rest, openers with
      | .mark '.' _, rest, openers => firstMisfit openers .memberName rest
      | .mark '[' _, rest, openers => firstMisfit (.index :: openers) (.operand false false) rest
      | .mark '(' _, rest, openers => firstMisfit (.call :: openers) (.operand true false) rest
      | .mark '=' true, (_, .mark '=' _) :: rest, openers
      | .mark '!' true, (_, .mark '=' _) :: rest, openers
      | .mark '<' true, (_, .mark '=' _) :: rest, openers
      | .mark '>' true, (_, .mark '=' _) :: rest, openers
      | .mark '&' true, (_, .mark '&' _) :: rest, openers
      | .mark '|' true, (_, .mark '|' _) :: rest, openers
      | .mark '?' true, (_, .mark '?' _) :: rest, openers =>
          firstMisfit openers (.operand false false) rest
      | .mark '<' _, rest, openers | .mark '>' _, rest, openers
      | .mark '+' _, rest, openers | .mark '-' _, rest, openers
      | .mark '*' _, rest, openers | .mark '/' _, rest, openers
      | .mark '%' _, rest, openers => firstMisfit openers (.operand false false) rest
      | .mark '?' _, rest, openers => firstMisfit (.branch :: openers) (.operand false false) rest
      | .mark ':' _, rest, .branch :: outer => firstMisfit outer (.operand false false) rest
      | .mark ')' _, rest, .group :: outer | .mark ')' _, rest, .call :: outer
      | .mark ']' _, rest, .list :: outer | .mark ']' _, rest, .index :: outer =>
          firstMisfit outer .continuation rest
      | .mark ',' _, rest, .list :: outer =>
          firstMisfit (.list :: outer) (.operand false false) rest
      | .mark ',' _, rest, .call :: outer =>
          firstMisfit (.call :: outer) (.operand false false) rest
      | .mark ';' _, rest, [] => firstMisfit [] .nothing rest
      | _, _, openers => some (here, .continuation openers.isEmpty)

/-- A place in a source and what could stand there. -/
structure Diagnostic where
  line : Nat
  column : Nat
  lineText : List Char
  expected : Expected
  deriving Repr, DecidableEq

/-- Lines and columns count from one, and a column is a character. A carriage return is no part of
the text of its line. -/
def Diagnostic.at (source here : List Char) (expected : Expected) : Diagnostic :=
  let before := source.take (source.length - here.length)
  let lineBefore := (before.reverse.takeWhile (· != '\n')).reverse
  { line := before.count '\n' + 1
    column := lineBefore.length + 1
    lineText := (lineBefore ++ here.takeWhile (· != '\n')).filter (· != '\r')
    expected }

/-- The diagnosis of a source that is no expression. -/
def diagnose (source : String) : Diagnostic :=
  let cs := source.toList
  let (here, expected) :=
    (firstMisfit [] (.operand false false) (scan cs)).getD ([], .ending)
  Diagnostic.at cs here expected

/-- `a`, `a or b`, `a, b, or c`. -/
def alternatives : List String → String
  | [] => ""
  | [a] => a
  | [a, b] => a ++ " or " ++ b
  | names => ", ".intercalate names.dropLast ++ ", or " ++ names.getLastD ""

/-- The line with a mark under the place, in a margin as wide as the line number. -/
def Diagnostic.render (d : Diagnostic) : String :=
  let number := toString d.line
  let margin := String.ofList (List.replicate number.length ' ')
  let underline := (d.lineText.take (d.column - 1)).map fun c => if c = '\t' then '\t' else ' '
  margin ++ "--> " ++ number ++ ":" ++ toString d.column ++ "\n"
    ++ margin ++ " |\n"
    ++ number ++ " | " ++ String.ofList d.lineText ++ "\n"
    ++ margin ++ " | " ++ String.ofList underline ++ "^---\n"
    ++ margin ++ " |\n"
    ++ margin ++ " = expected " ++ alternatives d.expected.rules

end Scriptlet.Grammar
