import Scriptlet.Compilation
import Scriptlet.Duration
import Scriptlet.Signature

/-!
Scripts and the compilers that make them. A script turns a context into an output, both JSON
values, and takes its time over it. A runner is a script bound to a signature: contexts and
results of its types, with the faults of one invocation. How a context of a type becomes a JSON
value, and a JSON value a result of one, is up to the type.
-/

namespace Scriptlet

/-- How something ends: after some time with an outcome, or never. -/
inductive Ending (α : Type) where
  | after (time : Duration) (outcome : α)
  | never

namespace Ending

/-- Ends at once. -/
def now {α : Type} (outcome : α) : Ending α :=
  .after ⟨0⟩ outcome

def map {α β : Type} (f : α → β) : Ending α → Ending β
  | .after time outcome => .after time (f outcome)
  | .never => .never

/-- Cuts what takes longer than a limit; the limit itself is not too long. -/
def within {α : Type} (limit : Duration) (late : α) : Ending α → Ending α
  | .after time outcome =>
      if time.nanoseconds ≤ limit.nanoseconds then .after time outcome else .after limit late
  | .never => .after limit late

end Ending

/-! ### Contexts and results -/

/-- What types are to a runner. At each there are the contexts that can be handed in, and the
results that can be handed out; a type that serves for one of the two only has none of the other.
Binding a context and converting an output may fail, and then there is a message. -/
class Types (τ : Type) extends TypeNames τ where
  Context : τ → Type
  bind (t : τ) : Context t → Except String Json
  Result : τ → Type
  convert (t : τ) : Json → Except String (Result t)

/-- The type of JSON values, which are contexts and results as they are. -/
inductive AnyJson where
  | json
  deriving Repr, DecidableEq

instance : Types AnyJson where
  name _ := "serde_json::value::Value"
  Context _ := Json
  bind _ value := .ok value
  Result _ := Json
  convert _ value := .ok value

/-- The contexts of a signature. -/
abbrev Signature.Context {τ : Type} [Types τ] (s : Signature τ) : Type :=
  Types.Context s.context

/-- The results of a signature. -/
abbrev Signature.Result {τ : Type} [Types τ] (s : Signature τ) : Type :=
  Types.Result s.result

/-! ### Scripts -/

/-- A compiled snippet failed in one invocation. -/
inductive RuntimeFault where
  | evaluation (message : String)
  | contextBinding (message : String)
  | resultConversion (expected message : String)
  | timeout (limit : Duration)

def RuntimeFault.message : RuntimeFault → String
  | .evaluation message => message
  | .contextBinding message => "failed to bind context: " ++ message
  | .resultConversion expected message =>
      "result cannot be converted to `" ++ expected ++ "`: " ++ message
  | .timeout limit => "invocation timed out after " ++ limit.text

abbrev Script := Json → Ending (Except RuntimeFault Json)

abbrev Compiler (τ : Type) := String → Signature τ → Except CompileError Script

/-- A checked snippet as a script. It does not wait for anything. -/
def Expr.script (around : Surroundings) (e : Expr) : Script := fun context =>
  .now ((e.run around context).mapError fun fault => .evaluation fault.message)

/-- The compiler of the expression language. The types do not matter to it. -/
def Compiler.expressions {τ : Type} (around : Surroundings) : Compiler τ := fun source _ =>
  (check source).map (Expr.script around)

structure Runner (τ : Type) where
  signature : Signature τ
  script : Script

/-- Runs a script on a context of one type for a result of another. -/
def Script.invoke {τ : Type} [Types τ] (script : Script) (s : Signature τ) (context : s.Context) :
    Ending (Except RuntimeFault s.Result) :=
  match Types.bind s.context context with
  | .error message => .now (.error (.contextBinding message))
  | .ok bound =>
      (script bound).map fun
        | .error fault => .error fault
        | .ok output =>
            (Types.convert s.result output).mapError
              (.resultConversion (TypeNames.name s.result))

end Scriptlet
