import Scriptlet.Builtin.Call

/-!
The value of an expression in a context. `Context` names the whole context, and when that is an
object its fields are names too. Operands are evaluated from left to right and the first fault
ends the evaluation; `&&`, `||`, `??` and the branches of a conditional evaluate what they need
and no more. Arithmetic on two integers is exact or a fault, never rounded.
-/

namespace Scriptlet

/-- The identifier of the whole context. -/
def contextName : String := "Context"

/-- The value of a bare name. -/
def resolve (context : Value) (name : String) : Except Fault Value :=
  if name = contextName then .ok context
  else
    match context with
    | .object fields =>
        match fields.lookup name with
        | some v => .ok v
        | none => .error (.unknownIdentifier name)
    | _ => .error (.unknownIdentifier name)

/-- The function that a call target names. -/
def resolveCallee : Expr → Except Fault Builtin
  | .member (.ident space) name =>
      match Builtin.lookup? space name with
      | some f => .ok f
      | none => .error (.unknownFunction space name)
  | _ => .error .invalidCallTarget

namespace Value

def member (object : Value) (property : String) : Except Fault Value :=
  match object with
  | .string s =>
      if property = "Length" then .ok (.int (Int64.ofInt s.length))
      else .error (.memberOf property .string)
  | .list items =>
      if property = "Length" || property = "Count" then .ok (.int (Int64.ofInt items.length))
      else .error (.memberOf property .list)
  | .object fields =>
      match fields.lookup property with
      | some v => .ok v
      | none => .error (.noMember property)
  | .null => .error (.memberOfNull property)
  | other => .error (.memberOf property other.kind)

/-- Items count from zero; a negative index is out of range. -/
def nth? {α : Type} (items : List α) (i : Int64) : Option α :=
  if 0 ≤ i.toInt then items[i.toInt.toNat]? else none

def index (object key : Value) : Except Fault Value :=
  match object, key with
  | .list items, .int i =>
      match nth? items i with
      | some v => .ok v
      | none => .error (.listIndex i items.length)
  | .string s, .int i =>
      match nth? s.toList i with
      | some c => .ok (.string (String.singleton c))
      | none => .error (.stringIndex i)
  | .object fields, .string key =>
      match fields.lookup key with
      | some v => .ok v
      | none => .error (.noMember key)
  | .null, _ => .error .indexIntoNull
  | object, key => .error (.cannotIndex object.kind key.kind)

def applyUnary (op : UnaryOp) (v : Value) : Except Fault Value :=
  match op, v with
  | .neg, .int n =>
      match Number.int64? (-n.toInt) with
      | some m => .ok (.int m)
      | none => .error .negationOverflow
  | .neg, .float x => .ok (.float (-x))
  | .not, .bool b => .ok (.bool !b)
  | op, v => .error (.unaryOperand op v.kind)

/-- The exact result on integers; division truncates toward zero, and a remainder exists only
where the quotient does. -/
def exactly (op : BinaryOp) (a b : Int) : Int :=
  match op with
  | .add => a + b
  | .sub => a - b
  | .mul => a * b
  | .div => a.tdiv b
  | _ => a.tmod b

def integerArithmetic (op : BinaryOp) (a b : Int64) : Except Fault Value :=
  let divides := op = .div || op = .rem
  if divides && b.toInt = 0 then .error .divisionByZero
  else if op = .rem && (Number.int64? (a.toInt.tdiv b.toInt)).isNone then
    .error (.overflow a op b)
  else
    match Number.int64? (exactly op a.toInt b.toInt) with
    | some n => .ok (.int n)
    | none => .error (.overflow a op b)

def floatArithmetic (op : BinaryOp) (x y : Float) : Except Fault Value :=
  if (op = .div || op = .rem) && y == 0.0 then .error .divisionByZero
  else
    .ok (.float (match op with
      | .add => x + y
      | .sub => x - y
      | .mul => x * y
      | .div => x / y
      | _ => Number.remainder x y))

def arithmetic (op : BinaryOp) (left right : Value) : Except Fault Value :=
  match left, right with
  | .int a, .int b => integerArithmetic op a b
  | left, right =>
      match left.number?, right.number? with
      | some x, some y => floatArithmetic op x y
      | _, _ => .error (.binaryOperands op left.kind right.kind)

/-- Integers with integers and strings with strings by code point; other numbers as floats. -/
def order (op : BinaryOp) (left right : Value) : Except Fault Ordering :=
  match left, right with
  | .int a, .int b => .ok (compare a.toInt b.toInt)
  | .string a, .string b => .ok (compare a b)
  | left, right =>
      match left.number?, right.number? with
      | some x, some y =>
          match Number.compare? x y with
          | some o => .ok o
          | none => .error .compareNaN
      | _, _ => .error (.cannotCompare op left.kind right.kind)

def applyStrict (op : BinaryOp) (left right : Value) : Except Fault Value :=
  match op with
  | .eq => .ok (.bool (left.looselyEquals right))
  | .ne => .ok (.bool !(left.looselyEquals right))
  | .lt => do .ok (.bool ((← order op left right) == .lt))
  | .le => do .ok (.bool ((← order op left right) != .gt))
  | .gt => do .ok (.bool ((← order op left right) == .gt))
  | .ge => do .ok (.bool ((← order op left right) != .lt))
  | .add =>
      match left, right with
      | .string a, right => .ok (.string (a ++ right.display))
      | left, .string b => .ok (.string (left.display ++ b))
      | left, right => arithmetic op left right
  | op => arithmetic op left right

/-- The truth value of an operand of `&&` or `||`. -/
def asBool (op : BinaryOp) : Value → Except Fault Bool
  | .bool b => .ok b
  | v => .error (.notBool op v.kind)

end Value

mutual

/-- The value of an expression at a place of the snippet. -/
def Expr.eval (around : Surroundings) (context : Value) (site : Site) : Expr → Except Fault Value
  | .null => .ok .null
  | .bool b => .ok (.bool b)
  | .int n => .ok (.int n)
  | .float x => .ok (.float x)
  | .string s => .ok (.string s)
  | .ident name => resolve context name
  | .list items => do .ok (.list (← evalItems around context site 0 items))
  | .member object property => do
      (← object.eval around context (0 :: site)).member property
  | .index object key => do
      let object ← object.eval around context (0 :: site)
      let key ← key.eval around context (1 :: site)
      object.index key
  | .call callee args => do
      let f ← resolveCallee callee
      let args ← evalItems around context site 1 args
      f.call around site args
  | .unary op operand => do
      (← operand.eval around context (0 :: site)).applyUnary op
  | .binary .and left right => do
      if ← (← left.eval around context (0 :: site)).asBool .and then
        .ok (.bool (← (← right.eval around context (1 :: site)).asBool .and))
      else .ok (.bool false)
  | .binary .or left right => do
      if ← (← left.eval around context (0 :: site)).asBool .or then .ok (.bool true)
      else .ok (.bool (← (← right.eval around context (1 :: site)).asBool .or))
  | .binary .coalesce left right => do
      match ← left.eval around context (0 :: site) with
      | .null => right.eval around context (1 :: site)
      | v => .ok v
  | .binary op left right => do
      let left ← left.eval around context (0 :: site)
      let right ← right.eval around context (1 :: site)
      Value.applyStrict op left right
  | .conditional test thenE elseE => do
      match ← test.eval around context (0 :: site) with
      | .bool true => thenE.eval around context (1 :: site)
      | .bool false => elseE.eval around context (2 :: site)
      | v => .error (.conditionNotBool v.kind)

/-- The values of a row of expressions, the first of them at place `i`. -/
def evalItems (around : Surroundings) (context : Value) (site : Site) (i : Nat) :
    List Expr → Except Fault (List Value)
  | [] => .ok []
  | e :: es => do
      let v ← e.eval around context (i :: site)
      let vs ← evalItems around context site (i + 1) es
      .ok (v :: vs)

end

/-- The value of a whole snippet. -/
def Expr.evaluate (around : Surroundings) (context : Value) (e : Expr) : Except Fault Value :=
  e.eval around context []

end Scriptlet
