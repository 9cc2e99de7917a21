import Scriptlet.Grammar.Build
import Scriptlet.Grammar.Diagnostic
import Scriptlet.Grammar.Nesting

/-!
From source text to an expression, in three steps that may each refuse: the guard against nesting,
the grammar, and the building of the tree with its own limit.
-/

namespace Scriptlet

open Grammar

/-- Why a source is no expression. -/
inductive ParseError where
  | unexpected (diagnostic : Diagnostic)
  | build (error : BuildError)
  deriving Repr

/-- Greatest depth of an expression that is accepted. -/
def depthLimit : Nat := 256

/-- The phrase of a source, without any limit. -/
def Grammar.phrase? (source : String) : Option Phrase :=
  program (lexemes source)

def parse (source : String) : Except ParseError Expr :=
  if tooNested source then .error (.build (.tooDeep nestingLimit))
  else
    match phrase? source with
    | none => .error (.unexpected (diagnose source))
    | some phrase =>
        match phrase.build (some depthLimit) with
        | .ok e => .ok e
        | .error e => .error (.build e)

def Grammar.BuildError.message : BuildError → String
  | .integerOutOfRange negative digits =>
      "Invalid expression: Integer literal '" ++ (if negative then "-" else "")
        ++ String.ofList digits ++ "' out of range: number too "
        ++ (if negative then "small" else "large") ++ " to fit in target type"
  | .tooDeep limit => "Expression is nested too deeply (limit " ++ toString limit ++ ")"

def ParseError.message : ParseError → String
  | .unexpected d => "Syntax error: " ++ d.render
  | .build e => e.message

end Scriptlet
