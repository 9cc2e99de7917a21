import Scriptlet.Builtin.Lists
import Scriptlet.Builtin.Math
import Scriptlet.Builtin.Text

/-!
Calling a function with evaluated arguments. Three functions answer from the surroundings instead:
what they find there may differ from one call of a snippet to the next, so it is given by the
place of the call.
-/

namespace Scriptlet

/-- The way from the root of an expression to one of its parts. -/
abbrev Site := List Nat

/-- What a snippet can learn that is neither in its text nor in its context. -/
structure Surroundings where
  newGuid : Site → String
  utcNow : Site → String
  unixMillis : Site → Int64

namespace Builtin

/-- Arguments beyond those that a function reads are ignored. -/
def call (around : Surroundings) (site : Site) (f : Builtin) (args : List Value) :
    Except Fault Value :=
  match f with
  | .mathAbs => abs args
  | .mathFloor => integral args f Number.floor
  | .mathCeiling => integral args f Number.ceiling
  | .mathRound => round args
  | .mathMin => min args
  | .mathMax => max args
  | .mathPow => pow args
  | .mathSqrt => sqrt args
  | .stringToUpper => toUpper args
  | .stringToLower => toLower args
  | .stringTrim => trim args
  | .stringContains => relate args f Text.contains
  | .stringStartsWith => relate args f Text.startsWith
  | .stringEndsWith => relate args f Text.endsWith
  | .stringIsNullOrEmpty => isNullOrEmpty args
  | .stringJoin => join args
  | .stringConcat => concat args
  | .listCount => count args
  | .listSum => sum args
  | .listContains => contains args
  | .guidNewGuid => .ok (.string (around.newGuid site))
  | .dateTimeUtcNow => .ok (.string (around.utcNow site))
  | .dateTimeUnixMillis => .ok (.int (around.unixMillis site))

end Builtin

end Scriptlet
