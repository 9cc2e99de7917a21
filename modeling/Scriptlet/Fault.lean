import Scriptlet.Builtin
import Scriptlet.Expr
import Scriptlet.Value

/-!
What can go wrong while an expression is evaluated, with the wording of each fault.
-/

namespace Scriptlet

/-- What an argument of a function has to be. -/
inductive Wanted where
  | number
  | string
  | list
  deriving Repr, DecidableEq

inductive Fault where
  | unknownIdentifier (name : String)
  | unknownFunction (space name : String)
  | invalidCallTarget
  | memberOfNull (property : String)
  | noMember (property : String)
  | memberOf (property : String) (kind : Kind)
  | listIndex (i : Int64) (length : Nat)
  | stringIndex (i : Int64)
  | indexIntoNull
  | cannotIndex (container key : Kind)
  | negationOverflow
  | overflow (left : Int64) (op : BinaryOp) (right : Int64)
  | divisionByZero
  | unaryOperand (op : UnaryOp) (kind : Kind)
  | binaryOperands (op : BinaryOp) (left right : Kind)
  | cannotCompare (op : BinaryOp) (left right : Kind)
  | compareNaN
  | notBool (op : BinaryOp) (kind : Kind)
  | conditionNotBool (kind : Kind)
  | missingArgument (f : Builtin) (position : Nat)
  | wrongArgument (f : Builtin) (wanted : Wanted) (position : Nat) (kind : Kind)
  | absOverflow
  | roundDigits
  | sqrtOfNegative
  | sumOverflow
  | sumOf (kind : Kind)
  | notFinite (x : Float)
  deriving Repr

def Wanted.name : Wanted → String
  | .number => "a number"
  | .string => "a string"
  | .list => "a list"

def Fault.message : Fault → String
  | .unknownIdentifier name => "Unknown identifier '" ++ name ++ "'"
  | .unknownFunction space name => "Unknown function '" ++ space ++ "." ++ name ++ "'"
  | .invalidCallTarget => "Only Namespace.Function(...) calls are supported"
  | .memberOfNull property => "Cannot read member '" ++ property ++ "' of null"
  | .noMember property => "Object has no member '" ++ property ++ "'"
  | .memberOf property kind => "Cannot read member '" ++ property ++ "' of " ++ kind.name
  | .listIndex i length =>
      "Index " ++ toString i.toInt ++ " out of range for list of length " ++ toString length
  | .stringIndex i => "Index " ++ toString i.toInt ++ " out of range for string"
  | .indexIntoNull => "Cannot index into null"
  | .cannotIndex container key => "Cannot index " ++ container.name ++ " with " ++ key.name
  | .negationOverflow => "Integer overflow in negation"
  | .overflow left op right =>
      "Integer overflow in " ++ toString left.toInt ++ " " ++ op.symbol ++ " "
        ++ toString right.toInt
  | .divisionByZero => "Division by zero"
  | .unaryOperand op kind => "Operator '" ++ op.symbol ++ "' cannot be applied to " ++ kind.name
  | .binaryOperands op left right =>
      "Operator '" ++ op.symbol ++ "' cannot be applied to " ++ left.name ++ " and " ++ right.name
  | .cannotCompare op left right =>
      "Operator '" ++ op.symbol ++ "' cannot compare " ++ left.name ++ " and " ++ right.name
  | .compareNaN => "Cannot compare NaN"
  | .notBool op kind => "Operator '" ++ op.symbol ++ "' requires bool operands, got " ++ kind.name
  | .conditionNotBool kind => "Condition must be a bool, got " ++ kind.name
  | .missingArgument f position =>
      f.fullName ++ "() is missing argument " ++ toString (position + 1)
  | .wrongArgument f wanted position kind =>
      f.fullName ++ "() expects " ++ wanted.name ++ " for argument " ++ toString (position + 1)
        ++ ", got " ++ kind.name
  | .absOverflow => "Math.Abs() overflowed"
  | .roundDigits => "Math.Round() digits must be an integer between 0 and 15"
  | .sqrtOfNegative => "Math.Sqrt() of a negative number"
  | .sumOverflow => "List.Sum() overflowed"
  | .sumOf kind => "List.Sum() expects numbers, got " ++ kind.name
  | .notFinite x => "result " ++ Number.plainText x ++ " is not a finite number"

end Scriptlet
