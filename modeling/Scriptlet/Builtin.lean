/-!
The functions that a snippet may call, addressed as `Namespace.Function`. One table gives each
function its name and the argument counts it takes; looking a function up and checking a call both
read it.
-/

namespace Scriptlet

inductive Builtin where
  | mathAbs | mathFloor | mathCeiling | mathRound | mathMin | mathMax | mathPow | mathSqrt
  | stringToUpper | stringToLower | stringTrim | stringContains | stringStartsWith
  | stringEndsWith | stringIsNullOrEmpty | stringJoin | stringConcat
  | listCount | listSum | listContains
  | guidNewGuid | dateTimeUtcNow | dateTimeUnixMillis
  deriving Repr, DecidableEq

namespace Builtin

def all : List Builtin :=
  [.mathAbs, .mathFloor, .mathCeiling, .mathRound, .mathMin, .mathMax, .mathPow, .mathSqrt,
    .stringToUpper, .stringToLower, .stringTrim, .stringContains, .stringStartsWith,
    .stringEndsWith, .stringIsNullOrEmpty, .stringJoin, .stringConcat,
    .listCount, .listSum, .listContains,
    .guidNewGuid, .dateTimeUtcNow, .dateTimeUnixMillis]

def namespaces : List String :=
  ["Math", "String", "List", "Guid", "DateTime"]

def isNamespace (name : String) : Bool :=
  namespaces.contains name

/-- The namespace of a function and its name in it. -/
def path : Builtin → String × String
  | .mathAbs => ("Math", "Abs")
  | .mathFloor => ("Math", "Floor")
  | .mathCeiling => ("Math", "Ceiling")
  | .mathRound => ("Math", "Round")
  | .mathMin => ("Math", "Min")
  | .mathMax => ("Math", "Max")
  | .mathPow => ("Math", "Pow")
  | .mathSqrt => ("Math", "Sqrt")
  | .stringToUpper => ("String", "ToUpper")
  | .stringToLower => ("String", "ToLower")
  | .stringTrim => ("String", "Trim")
  | .stringContains => ("String", "Contains")
  | .stringStartsWith => ("String", "StartsWith")
  | .stringEndsWith => ("String", "EndsWith")
  | .stringIsNullOrEmpty => ("String", "IsNullOrEmpty")
  | .stringJoin => ("String", "Join")
  | .stringConcat => ("String", "Concat")
  | .listCount => ("List", "Count")
  | .listSum => ("List", "Sum")
  | .listContains => ("List", "Contains")
  | .guidNewGuid => ("Guid", "NewGuid")
  | .dateTimeUtcNow => ("DateTime", "UtcNow")
  | .dateTimeUnixMillis => ("DateTime", "UnixMillis")

def fullName (f : Builtin) : String :=
  f.path.1 ++ "." ++ f.path.2

def lookup? (space name : String) : Option Builtin :=
  all.find? fun f => f.path == (space, name)

/-- Least and greatest number of arguments; `none` is no bound. -/
def arity : Builtin → Nat × Option Nat
  | .guidNewGuid | .dateTimeUtcNow | .dateTimeUnixMillis => (0, some 0)
  | .mathAbs | .mathFloor | .mathCeiling | .mathSqrt | .stringToUpper | .stringToLower
  | .stringTrim | .stringIsNullOrEmpty | .listCount | .listSum => (1, some 1)
  | .mathRound => (1, some 2)
  | .mathMin | .mathMax | .mathPow | .stringContains | .stringStartsWith | .stringEndsWith
  | .stringJoin | .listContains => (2, some 2)
  | .stringConcat => (0, none)

def accepts (f : Builtin) (count : Nat) : Bool :=
  f.arity.1 ≤ count && f.arity.2.all (count ≤ ·)

/-- Functions whose result is no function of their arguments. -/
def isAmbient : Builtin → Bool
  | .guidNewGuid | .dateTimeUtcNow | .dateTimeUnixMillis => true
  | _ => false

end Builtin

end Scriptlet
