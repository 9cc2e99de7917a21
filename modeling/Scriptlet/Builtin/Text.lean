import Scriptlet.Builtin.Arguments
import Scriptlet.Text.Case
import Scriptlet.Text.Ranges

/-! The functions on strings. -/

namespace Scriptlet.Builtin

def toUpper (args : List Value) : Except Fault Value := do
  .ok (.string (Text.toUpper (← stringArgument args 0 .stringToUpper)))

def toLower (args : List Value) : Except Fault Value := do
  .ok (.string (Text.toLower (← stringArgument args 0 .stringToLower)))

def trim (args : List Value) : Except Fault Value := do
  .ok (.string (Text.trim (← stringArgument args 0 .stringTrim)))

/-- A test of a text against another. -/
def relate (args : List Value) (f : Builtin) (holds : String → String → Bool) :
    Except Fault Value := do
  let text ← stringArgument args 0 f
  let other ← stringArgument args 1 f
  .ok (.bool (holds text other))

/-- Null counts as empty. -/
def isNullOrEmpty (args : List Value) : Except Fault Value := do
  match ← argument args 0 .stringIsNullOrEmpty with
  | .null => .ok (.bool true)
  | _ => .ok (.bool ((← stringArgument args 0 .stringIsNullOrEmpty) == ""))

def join (args : List Value) : Except Fault Value := do
  let separator ← stringArgument args 0 .stringJoin
  let items ← listArgument args 1 .stringJoin
  .ok (.string (Text.join separator (items.map Value.display)))

def concat (args : List Value) : Except Fault Value :=
  .ok (.string (Text.join "" (args.map Value.display)))

end Scriptlet.Builtin
