import Scriptlet.Builtin.Math

/-! The functions on lists. -/

namespace Scriptlet.Builtin

def count (args : List Value) : Except Fault Value := do
  .ok (.int (Int64.ofInt (← listArgument args 0 .listCount).length))

/-- Adds one item to a sum: integers exactly while there are only integers, floats from then on. -/
def addItem (total item : Value) : Except Fault Value :=
  match total, item with
  | .int a, .int b =>
      match Number.int64? (a.toInt + b.toInt) with
      | some n => .ok (.int n)
      | none => .error .sumOverflow
  | total, item =>
      match total.number?, item.number? with
      | some x, some y => .ok (.float (x + y))
      | _, _ => .error (.sumOf item.kind)

def sum (args : List Value) : Except Fault Value := do
  (← listArgument args 0 .listSum).foldlM addItem (.int 0)

def contains (args : List Value) : Except Fault Value := do
  let items ← listArgument args 0 .listContains
  let wanted ← argument args 1 .listContains
  .ok (.bool (items.any fun item => item.looselyEquals wanted))

end Scriptlet.Builtin
