/-!
Expressions of the snippet language. A call keeps its target as an expression: whether the target
names a function is a question for validation and evaluation, not for the shape of the tree.
-/

namespace Scriptlet

inductive UnaryOp where
  | neg
  | not
  deriving Repr, DecidableEq

inductive BinaryOp where
  | add | sub | mul | div | rem
  | eq | ne | lt | le | gt | ge
  | and | or | coalesce
  deriving Repr, DecidableEq

def UnaryOp.symbol : UnaryOp → String
  | .neg => "-"
  | .not => "!"

def BinaryOp.symbol : BinaryOp → String
  | .add => "+"
  | .sub => "-"
  | .mul => "*"
  | .div => "/"
  | .rem => "%"
  | .eq => "=="
  | .ne => "!="
  | .lt => "<"
  | .le => "<="
  | .gt => ">"
  | .ge => ">="
  | .and => "&&"
  | .or => "||"
  | .coalesce => "??"

def UnaryOp.all : List UnaryOp :=
  [.neg, .not]

def BinaryOp.all : List BinaryOp :=
  [.add, .sub, .mul, .div, .rem, .eq, .ne, .lt, .le, .gt, .ge, .and, .or, .coalesce]

/-- The operator that a symbol stands for between two operands. -/
def BinaryOp.ofSymbol? (symbol : String) : Option BinaryOp :=
  BinaryOp.all.find? fun op => op.symbol == symbol

/-- The operators that a symbol stands for in front of an operand. -/
def UnaryOp.withSymbol (symbol : String) : List UnaryOp :=
  UnaryOp.all.filter fun op => op.symbol == symbol

inductive Expr where
  | null
  | bool (b : Bool)
  | int (n : Int64)
  | float (x : Float)
  | string (s : String)
  | list (items : List Expr)
  | ident (name : String)
  | member (object : Expr) (property : String)
  | index (object : Expr) (key : Expr)
  | call (callee : Expr) (args : List Expr)
  | unary (op : UnaryOp) (operand : Expr)
  | binary (op : BinaryOp) (left : Expr) (right : Expr)
  | conditional (test : Expr) (thenE : Expr) (elseE : Expr)
  deriving Repr, Inhabited

/-- The immediate parts of an expression, in source order. -/
def Expr.children : Expr → List Expr
  | .null | .bool _ | .int _ | .float _ | .string _ | .ident _ => []
  | .list items => items
  | .member object _ => [object]
  | .index object key => [object, key]
  | .call callee args => callee :: args
  | .unary _ operand => [operand]
  | .binary _ left right => [left, right]
  | .conditional test thenE elseE => [test, thenE, elseE]

end Scriptlet
