import Scriptlet.Proofs.Grammar.Peg
import Scriptlet.Proofs.Grammar.Strings
import Scriptlet.Number.Reading

/-!
A builder that trusts nothing. It is given the nodes of the grammar and checks what the grammar
ought to have seen to: that there is an operand where one is needed, that an operator is one, that
an escape stands for something, that digits are a number. Whatever is missing or unknown it has a
complaint about.
-/

namespace Scriptlet.Grammar

open Text (isDigit)

/-- What is wrong with a text that is to be an integer of 64 bits. -/
inductive IntegerFault where
  | empty | invalidDigit | tooLarge | tooSmall
  deriving Repr, DecidableEq

def IntegerFault.message : IntegerFault → String
  | .empty => "cannot parse integer from empty string"
  | .invalidDigit => "invalid digit found in string"
  | .tooLarge => "number too large to fit in target type"
  | .tooSmall => "number too small to fit in target type"

/-- What the builder complains of. -/
inductive Complaint where
  | expected (what : String)
  | unexpected (place : String) (rule : Nonterminal)
  | unknownOperator (symbol : String)
  | invalidEscape (c : Option Char)
  | unreadable (text : String)
  | outOfRange (text : String) (fault : IntegerFault)
  | tooDeep (limit : Nat)
  deriving Repr, DecidableEq

/-- The name of a rule in the grammar. -/
def Nonterminal.label : Nonterminal → String
  | .whitespace => "WHITESPACE"
  | .comment => "COMMENT"
  | .program => "program"
  | .expression => "expression"
  | .conditional => "conditional"
  | .coalesce => "coalesce"
  | .orExpr => "or_expr"
  | .andExpr => "and_expr"
  | .equality => "equality"
  | .comparison => "comparison"
  | .additive => "additive"
  | .multiplicative => "multiplicative"
  | .unary => "unary"
  | .suffixed => "postfix"
  | .eqOp => "eq_op"
  | .cmpOp => "cmp_op"
  | .addOp => "add_op"
  | .mulOp => "mul_op"
  | .unaryOp => "unary_op"
  | .member => "member"
  | .index => "index"
  | .call => "call"
  | .primary => "primary"
  | .list => "list"
  | .literal => "literal"
  | .exponent => "exponent"
  | .float => "float"
  | .integer => "integer"
  | .string => "string"
  | .stringInner => "string_inner"
  | .stringChar => "string_char"
  | .boolean => "boolean"
  | .nullLit => "null_lit"
  | .keyword => "keyword"
  | .identifier => "identifier"
  | .identChar => "ident_char"
  | .ending => "EOI"

def Complaint.message : Complaint → String
  | .expected what => "Invalid expression: Expected " ++ what
  | .unexpected place rule =>
      "Invalid expression: Unexpected " ++ place ++ " rule: " ++ rule.label
  | .unknownOperator symbol => "Invalid expression: Unknown operator '" ++ symbol ++ "'"
  | .invalidEscape c =>
      "Invalid expression: Invalid escape sequence '\\" ++ String.ofList c.toList ++ "'"
  | .unreadable text =>
      "Invalid expression: Failed to parse number '" ++ text ++ "': invalid float literal"
  | .outOfRange text fault =>
      "Invalid expression: Integer literal '" ++ text ++ "' out of range: " ++ fault.message
  | .tooDeep limit => "Expression is nested too deeply (limit " ++ toString limit ++ ")"

/-! ### Leaves -/

/-- The greatest magnitude of 64 bits; with a minus it is one more. -/
def greatest (negative : Bool) : Nat :=
  if negative then 0x8000000000000000 else 0x7fffffffffffffff

/-- The magnitude of digits behind what has been read of them. -/
def magnitude (negative : Bool) : Nat → List Char → Except IntegerFault Nat
  | n, [] => .ok n
  | n, c :: rest =>
      if isDigit c then
        let next := n * 10 + Number.digitValue c
        if next ≤ greatest negative then magnitude negative next rest
        else .error (if negative then .tooSmall else .tooLarge)
      else .error .invalidDigit

/-- An integer of 64 bits, with a sign or without. -/
def integerOfText (text : List Char) : Except IntegerFault Int64 :=
  let (negative, digits) := Number.sign text
  match text, digits with
  | [], _ => .error .empty
  | _, [] => .error .invalidDigit
  | _, digits =>
      (magnitude negative 0 digits).map fun n => Int64.ofInt (if negative then -n else n)

def readInteger (text : List Char) : Except Complaint Expr :=
  match integerOfText text with
  | .ok n => .ok (.int n)
  | .error fault => .error (.outOfRange (String.ofList text) fault)

def readFloat (text : List Char) : Except Complaint Expr :=
  match Number.floatOfText? (String.ofList text) with
  | some x => .ok (.float x)
  | none => .error (.unreadable (String.ofList text))

/-- A text with its escapes resolved. -/
def unescape : List Char → Except Complaint (List Char)
  | [] => .ok []
  | '\\' :: [] => .error (.invalidEscape none)
  | '\\' :: d :: rest =>
      match unescape? d with
      | some c => (unescape rest).map (c :: ·)
      | none => .error (.invalidEscape (some d))
  | c :: rest => (unescape rest).map (c :: ·)

def operatorOf (symbol : List Char) : Except Complaint BinaryOp :=
  match BinaryOp.ofSymbol? (String.ofList symbol) with
  | some op => .ok op
  | none => .error (.unknownOperator (String.ofList symbol))

def ensureDepth (depth : Nat) : Except Complaint Nat :=
  if depthLimit < depth then .error (.tooDeep depthLimit) else .ok depth

/-! ### Signs -/

namespace Node

def rule : Node → Nonterminal
  | .mk rule _ _ => rule

def text : Node → List Char
  | .mk _ text _ => text

def parts : Node → List Node
  | .mk _ _ parts => parts

/-- The digits of a leaf that is an integer. -/
def digits? (leaf : Node) : Option (List Char) :=
  if leaf.rule = .integer then some leaf.text else none

def literalDigits? (literal : Node) : Option (List Char) :=
  if literal.rule = .literal then literal.parts.head?.bind digits? else none

/-- The digits of an operand that is nothing but an integer. -/
def integerLiteral? (operand : Node) : Option (List Char) :=
  match operand.parts with
  | [primary] => primary.parts.head?.bind literalDigits?
  | _ => none

def sign (node : Node) : UnaryOp :=
  if node.text = ['-'] then .neg else .not

end Node

/-- One more sign in front of an expression whose depth is known. -/
def putSign (op : UnaryOp) : Expr × Nat → Except Complaint (Expr × Nat)
  | (e, depth) =>
      match op, e with
      | .neg, .int n =>
          if n ≠ Int64.minValue then .ok (.int (-n), depth)
          else do
            let depth ← ensureDepth (depth + 1)
            .ok (.unary .neg e, depth)
      | .neg, .float x => .ok (.float (-x), depth)
      | op, e => do
          let depth ← ensureDepth (depth + 1)
          .ok (.unary op e, depth)

/-- The innermost sign binds first. -/
def putSigns (ops : List UnaryOp) (e : Expr) : Except Complaint Expr :=
  (ops.reverse.foldlM (fun made op => putSign op made) (e, e.depth)).map (·.1)

/-! ### Nodes -/

mutual

def Node.build : Node → Except Complaint Expr
  | .mk .expression _ parts | .mk .primary _ parts | .mk .literal _ parts =>
      buildFirst "operand" parts
  | .mk .conditional _ parts =>
      match parts with
      | [] => .error (.expected "condition")
      | test :: branches => do
          let test ← test.build
          match branches with
          | [] => .ok test
          | thenN :: more => do
              let thenE ← thenN.build
              let elseE ← buildFirst "else branch" more
              let made := Expr.conditional test thenE elseE
              let _ ← ensureDepth made.depth
              .ok made
  | .mk .coalesce _ parts => buildFixed .coalesce parts
  | .mk .orExpr _ parts => buildFixed .or parts
  | .mk .andExpr _ parts => buildFixed .and parts
  | .mk .equality _ parts | .mk .comparison _ parts | .mk .additive _ parts
  | .mk .multiplicative _ parts =>
      match parts with
      | [] => .error (.expected "operand")
      | first :: more => do
          let e ← first.build
          buildPairs e e.depth more
  | .mk .unary _ parts =>
      let ops : List UnaryOp := (parts.filter (·.rule == .unaryOp)).map (·.sign)
      let operand : Option Node := (parts.filter (·.rule != .unaryOp)).getLast?
      match ops.getLast?, operand.bind (·.integerLiteral?) with
      | some .neg, some digits => do
          let n ← readInteger ('-' :: digits)
          putSigns ops.dropLast n
      | _, _ => do
          let e ← buildOperand parts
          putSigns ops e
  | .mk .suffixed _ parts =>
      match parts with
      | [] => .error (.expected "primary expression")
      | base :: suffixes => do
          let e ← base.build
          buildSuffixes e e.depth suffixes
  | .mk .list _ parts => do
      let items ← buildAll parts
      let made := Expr.list items
      let _ ← ensureDepth made.depth
      .ok made
  | .mk .identifier text _ => .ok (.ident (String.ofList text))
  | .mk .integer text _ => readInteger text
  | .mk .float text _ => readFloat text
  | .mk .boolean text _ => .ok (.bool (text = "true".toList))
  | .mk .nullLit _ _ => .ok .null
  | .mk .string _ parts =>
      match parts with
      | [] => .error (.expected "string content")
      | content :: _ => (unescape content.text).map fun text => .string (String.ofList text)
  | .mk rule _ _ => .error (.unexpected "expression" rule)

/-- The first of some parts. -/
def buildFirst (what : String) : List Node → Except Complaint Expr
  | [] => .error (.expected what)
  | first :: _ => first.build

def buildAll : List Node → Except Complaint (List Expr)
  | [] => .ok []
  | node :: more => do
      let e ← node.build
      let es ← buildAll more
      .ok (e :: es)

/-- The last part that is no sign. -/
def buildOperand : List Node → Except Complaint Expr
  | [] => .error (.expected "unary operand")
  | node :: more =>
      if more.any (·.rule != .unaryOp) || node.rule == .unaryOp then buildOperand more
      else node.build

/-- Operands of an operator that the rule implies. -/
def buildFixed (op : BinaryOp) : List Node → Except Complaint Expr
  | [] => .error (.expected "operand")
  | first :: more => do
      let e ← first.build
      buildOperands op e e.depth more

def buildOperands (op : BinaryOp) (left : Expr) (depth : Nat) : List Node → Except Complaint Expr
  | [] => .ok left
  | node :: more => do
      let right ← node.build
      let depth ← ensureDepth (max depth right.depth + 1)
      buildOperands op (.binary op left right) depth more

/-- Operators, each with its right operand. -/
def buildPairs (left : Expr) (depth : Nat) : List Node → Except Complaint Expr
  | [] => .ok left
  | symbol :: more => do
      let op ← operatorOf symbol.text
      match more with
      | [] => .error (.expected "right operand")
      | node :: more => do
          let right ← node.build
          let depth ← ensureDepth (max depth right.depth + 1)
          buildPairs (.binary op left right) depth more

def buildSuffixes (base : Expr) (depth : Nat) : List Node → Except Complaint Expr
  | [] => .ok base
  | .mk .member _ parts :: more =>
      match parts with
      | [] => .error (.expected "member name")
      | property :: _ => do
          let depth ← ensureDepth (depth + 1)
          buildSuffixes (.member base (String.ofList property.text)) depth more
  | .mk .index _ parts :: more => do
      let key ← buildFirst "index expression" parts
      let depth ← ensureDepth (max depth key.depth + 1)
      buildSuffixes (.index base key) depth more
  | .mk .call _ parts :: more => do
      let args ← buildAll parts
      let widest := (args.map Expr.depth).foldl max 0
      let depth ← ensureDepth (max depth widest + 1)
      buildSuffixes (.call base args) depth more
  | .mk rule _ _ :: _ => .error (.unexpected "postfix" rule)

end

/-- The expression of a whole source, from the nodes that the grammar derives. -/
def buildProgram : List Node → Except Complaint Expr
  | [] => .error (.expected "program")
  | program :: _ => buildFirst "expression" program.parts

end Scriptlet.Grammar
