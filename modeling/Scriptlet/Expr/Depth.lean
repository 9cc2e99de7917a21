import Scriptlet.Expr

/-!
The depth of an expression. `height` defines it by recursion; `depth` computes it with a stack of
parts still to be visited, each with its level, so that the tree may be deeper than the recursion
that a machine affords. The loop ends because the parts on the stack hold ever fewer nodes.
-/

namespace Scriptlet.Expr

mutual

/-- One for a leaf, otherwise one more than the greatest height of the parts. -/
def height : Expr → Nat
  | .null | .bool _ | .int _ | .float _ | .string _ | .ident _ => 1
  | .list items => 1 + greatestHeight items
  | .member object _ => 1 + object.height
  | .index object key => 1 + max object.height key.height
  | .call callee args => 1 + max callee.height (greatestHeight args)
  | .unary _ operand => 1 + operand.height
  | .binary _ left right => 1 + max left.height right.height
  | .conditional test thenE elseE => 1 + max test.height (max thenE.height elseE.height)

def greatestHeight : List Expr → Nat
  | [] => 0
  | e :: es => max e.height (greatestHeight es)

end

mutual

def nodes : Expr → Nat
  | .null | .bool _ | .int _ | .float _ | .string _ | .ident _ => 1
  | .list items => 1 + totalNodes items
  | .member object _ => 1 + object.nodes
  | .index object key => 1 + (object.nodes + key.nodes)
  | .call callee args => 1 + (callee.nodes + totalNodes args)
  | .unary _ operand => 1 + operand.nodes
  | .binary _ left right => 1 + (left.nodes + right.nodes)
  | .conditional test thenE elseE => 1 + (test.nodes + (thenE.nodes + elseE.nodes))

def totalNodes : List Expr → Nat
  | [] => 0
  | e :: es => e.nodes + totalNodes es

end

theorem nodes_eq (e : Expr) : e.nodes = 1 + totalNodes e.children := by
  cases e <;> simp +arith [nodes, children, totalNodes]

/-- Puts parts of one level on a stack, the last one on top. -/
def push (level : Nat) : List Expr → List (Expr × Nat) → List (Expr × Nat)
  | [], stack => stack
  | e :: es, stack => push level es ((e, level) :: stack)

def pending (stack : List (Expr × Nat)) : Nat :=
  totalNodes (stack.map (·.1))

theorem pending_push (level : Nat) (es : List Expr) (stack : List (Expr × Nat)) :
    pending (push level es stack) = totalNodes es + pending stack := by
  induction es generalizing stack with
  | nil => simp [push, totalNodes]
  | cons e es ih =>
    rw [push, ih]
    simp only [pending, List.map_cons, totalNodes]
    omega

/-- The greatest level met while the stack is emptied. -/
def visit (deepest : Nat) : List (Expr × Nat) → Nat
  | [] => deepest
  | (e, level) :: stack => visit (max deepest level) (push (level + 1) e.children stack)
termination_by stack => pending stack
decreasing_by
  rw [pending_push]
  simp only [pending, List.map_cons, totalNodes, nodes_eq e]
  omega

/-- The height of a tree, computed without recursion on it. -/
def depth (e : Expr) : Nat :=
  visit 0 [(e, 1)]

end Scriptlet.Expr
