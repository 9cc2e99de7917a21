import Scriptlet.Fault

/-!
How a function reads its arguments: by position, each with the kind it wants. An argument that is
not there is a fault of the call, whoever checked the count before.
-/

namespace Scriptlet.Builtin

def argument (args : List Value) (position : Nat) (f : Builtin) : Except Fault Value :=
  match args[position]? with
  | some v => .ok v
  | none => .error (.missingArgument f position)

def numberArgument (args : List Value) (position : Nat) (f : Builtin) : Except Fault Float := do
  let v ← argument args position f
  match v.number? with
  | some x => .ok x
  | none => .error (.wrongArgument f .number position v.kind)

def stringArgument (args : List Value) (position : Nat) (f : Builtin) : Except Fault String := do
  match ← argument args position f with
  | .string s => .ok s
  | v => .error (.wrongArgument f .string position v.kind)

def listArgument (args : List Value) (position : Nat) (f : Builtin) :
    Except Fault (List Value) := do
  match ← argument args position f with
  | .list items => .ok items
  | v => .error (.wrongArgument f .list position v.kind)

end Scriptlet.Builtin
