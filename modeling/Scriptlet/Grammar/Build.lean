import Scriptlet.Expr.Depth
import Scriptlet.Grammar.Phrase

/-!
Expressions from phrases. Parentheses disappear, integers are checked against the 64-bit range,
and a minus in front of a numeral becomes part of it, which is how the least integer can be
written at all. With a limit, every node is checked when it is made, so a tree that is too deep is
refused before it grows further; without one the same function builds every tree.
-/

namespace Scriptlet.Grammar

inductive BuildError where
  /-- An integer, with the minus that belongs to it, outside the 64-bit range. -/
  | integerOutOfRange (negative : Bool) (digits : List Char)
  | tooDeep (limit : Nat)
  deriving Repr, DecidableEq

/-- The integer that digits and a sign spell, when it has 64 bits. -/
def integer? (negative : Bool) (digits : List Char) : Option Int64 :=
  let n := Number.natOfDigits digits
  if negative then
    if n ≤ 0x8000000000000000 then some (Int64.ofInt (-n)) else none
  else
    if n < 0x8000000000000000 then some (Int64.ofInt n) else none

def buildInteger (negative : Bool) (digits : List Char) : Except BuildError Expr :=
  match integer? negative digits with
  | some n => .ok (.int n)
  | none => .error (.integerOutOfRange negative digits)

/-- Refuses a depth beyond the limit. -/
def checkDepth (limit : Option Nat) (depth : Nat) : Except BuildError Nat :=
  match limit with
  | none => .ok depth
  | some limit => if limit < depth then .error (.tooDeep limit) else .ok depth

/-- Applies signs, the last of them first. A minus disappears into a numeral, except into the
least integer, whose negation has no numeral. -/
def applySigns (limit : Option Nat) : List UnaryOp → Expr → Except BuildError Expr
  | [], e => .ok e
  | op :: ops, e => do
      let inner ← applySigns limit ops e
      match op, inner with
      | .neg, .int n =>
          if n = Int64.minValue then do
            let _ ← checkDepth limit (inner.depth + 1)
            .ok (.unary .neg inner)
          else .ok (.int (-n))
      | .neg, .float x => .ok (.float (-x))
      | op, inner => do
          let _ ← checkDepth limit (inner.depth + 1)
          .ok (.unary op inner)

mutual

/-- The expression of a phrase; parts are built in source order, then the node is checked. -/
def Phrase.build (limit : Option Nat) : Phrase → Except BuildError Expr
  | .null => .ok .null
  | .bool b => .ok (.bool b)
  | .integer digits => buildInteger false digits
  | .float numeral => .ok (.float numeral.nearest)
  | .string text => .ok (.string text)
  | .name n => .ok (.ident n)
  | .group inner => inner.build limit
  | .list items => do
      let items ← buildItems limit items
      let _ ← checkDepth limit (Expr.list items).depth
      .ok (.list items)
  | .member object property => do
      let object ← object.build limit
      let _ ← checkDepth limit (object.depth + 1)
      .ok (.member object property)
  | .index object key => do
      let object ← object.build limit
      let key ← key.build limit
      let _ ← checkDepth limit (max object.depth key.depth + 1)
      .ok (.index object key)
  | .call callee args => do
      let callee ← callee.build limit
      let args ← buildItems limit args
      let widest := (args.map Expr.depth).foldl max 0
      let _ ← checkDepth limit (max callee.depth widest + 1)
      .ok (.call callee args)
  | .signed signs operand => do
      -- a minus right in front of an integer belongs to the integer
      match signs.getLast?, operand with
      | some .neg, .integer digits =>
          let n ← buildInteger true digits
          applySigns limit signs.dropLast n
      | _, operand =>
          let e ← operand.build limit
          applySigns limit signs e
  | .binary op left right => do
      let left ← left.build limit
      let right ← right.build limit
      let _ ← checkDepth limit (max left.depth right.depth + 1)
      .ok (.binary op left right)
  | .conditional test thenP elseP => do
      let test ← test.build limit
      let thenE ← thenP.build limit
      let elseE ← elseP.build limit
      let _ ← checkDepth limit (Expr.conditional test thenE elseE).depth
      .ok (.conditional test thenE elseE)

def buildItems (limit : Option Nat) : List Phrase → Except BuildError (List Expr)
  | [] => .ok []
  | item :: more => do
      let item ← item.build limit
      let more ← buildItems limit more
      .ok (item :: more)

end

end Scriptlet.Grammar
