/-!
The types that a snippet is bound to. A context is handed in at one type and the result is handed
out at another; the pair is the signature. Which types there are is left open: `τ` holds their
identities, and by these alone they are told apart. A name is for messages and fingerprints, and
several types may share one.
-/

namespace Scriptlet

/-- The names of types. -/
class TypeNames (τ : Type) where
  name : τ → String

structure Signature (τ : Type) where
  context : τ
  result : τ
  deriving Repr, DecidableEq

def Signature.text {τ : Type} [TypeNames τ] (s : Signature τ) : String :=
  "(" ++ TypeNames.name s.context ++ ") -> " ++ TypeNames.name s.result

end Scriptlet
