import Scriptlet.Evaluation
import Scriptlet.Grammar.Parse
import Scriptlet.Validation

/-!
Compiling a snippet: it is parsed and validated, and what comes out can be run on any context. A
compile error keeps the source and the reason.
-/

namespace Scriptlet

/-- Why a snippet did not compile. `refused` is the word of a compiler other than the language's
own, and `panicked` a compiler that did not come back. -/
inductive CompileReason where
  | parse (error : ParseError)
  | validation (error : ValidationError)
  | refused (message : String)
  | panicked
  deriving Repr

def CompileReason.message : CompileReason → String
  | .parse e => e.message
  | .validation e => e.message
  | .refused message => message
  | .panicked => "compiler panicked"

structure CompileError where
  source : String
  reason : CompileReason
  deriving Repr

def CompileError.message (e : CompileError) : String :=
  "compile error: " ++ e.reason.message

/-- Parses and validates a snippet. -/
def check (source : String) : Except CompileError Expr :=
  match parse source with
  | .error e => .error ⟨source, .parse e⟩
  | .ok e =>
      match e.validate with
      | .error err => .error ⟨source, .validation err⟩
      | .ok () => .ok e

/-- Runs a compiled snippet: the context is read as a value, and the result has to be one that
JSON can write. -/
def Expr.run (around : Surroundings) (context : Json) (e : Expr) : Except Fault Json := do
  let v ← e.evaluate around (Value.ofJson context)
  match v.toJson with
  | .ok json => .ok json
  | .error x => .error (.notFinite x)

end Scriptlet
