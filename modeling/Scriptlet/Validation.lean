import Scriptlet.Builtin
import Scriptlet.Expr

/-!
Checks on an expression that need no context: every call names a function and passes it a count of
arguments that it takes, and no namespace stands where a value is expected. The first mistake in
source order is reported; a call is checked before its arguments.
-/

namespace Scriptlet

inductive ValidationError where
  | invalidCallTarget
  | unknownFunction (name : String)
  | wrongArgumentCount (name : String) (least : Nat) (most : Option Nat) (found : Nat)
  | namespaceAsValue (name : String)
  deriving Repr, DecidableEq

def ValidationError.message : ValidationError → String
  | .invalidCallTarget => "Only Namespace.Function(...) calls are supported"
  | .unknownFunction name => "Unknown function '" ++ name ++ "'"
  | .wrongArgumentCount name least none found =>
      name ++ "() takes at least " ++ toString least ++ " argument(s), got " ++ toString found
  | .wrongArgumentCount name least (some most) found =>
      if most = least then
        name ++ "() takes " ++ toString least ++ " argument(s), got " ++ toString found
      else
        name ++ "() takes " ++ toString least ++ " to " ++ toString most ++ " arguments, got "
          ++ toString found
  | .namespaceAsValue name =>
      "'" ++ name ++ "' is a helper namespace and cannot be used as a value"

namespace Expr

/-- Checks the target of a call and the number of its arguments. -/
def validateCall (callee : Expr) (count : Nat) : Except ValidationError Unit :=
  match callee with
  | .member (.ident space) name =>
      let fullName := space ++ "." ++ name
      match Builtin.lookup? space name with
      | none => .error (.unknownFunction fullName)
      | some f =>
          if f.accepts count then .ok ()
          else .error (.wrongArgumentCount fullName f.arity.1 f.arity.2 count)
  | _ => .error .invalidCallTarget

mutual

def validate : Expr → Except ValidationError Unit
  | .null | .bool _ | .int _ | .float _ | .string _ => .ok ()
  | .ident name =>
      if Builtin.isNamespace name then .error (.namespaceAsValue name) else .ok ()
  | .list items => validateAll items
  | .member object _ => object.validate
  | .index object key => do
      object.validate
      key.validate
  | .call callee args => do
      validateCall callee args.length
      validateAll args
  | .unary _ operand => operand.validate
  | .binary _ left right => do
      left.validate
      right.validate
  | .conditional test thenE elseE => do
      test.validate
      thenE.validate
      elseE.validate

def validateAll : List Expr → Except ValidationError Unit
  | [] => .ok ()
  | e :: es => do
      e.validate
      validateAll es

end

end Expr

end Scriptlet
