/-!
The guard that is run over a source before the grammar. It counts the brackets that are open and
every question mark of a conditional so far; strings and comments are passed over and `??` is no
conditional. It knows nothing of the grammar, so a source that is no expression is counted too,
and a closing bracket without its opening one is forgiven.
-/

namespace Scriptlet.Grammar

/-- What the guard is inside of; `escape` is behind a backslash in a string. -/
inductive Mode where
  | code
  | string
  | escape
  | comment
  deriving Repr, DecidableEq

/-- Whether the count exceeds the limit somewhere. -/
def exceeds (limit : Nat) : Mode → (opened : Nat) → (conditionals : Nat) → List Char → Bool
  | _, _, _, [] => false
  | .string, o, q, c :: rest =>
      if c = '\\' then exceeds limit .escape o q rest
      else if c = '"' then exceeds limit .code o q rest
      else exceeds limit .string o q rest
  | .escape, o, q, _ :: rest => exceeds limit .string o q rest
  | .comment, o, q, c :: rest =>
      exceeds limit (if c = '\n' then .code else .comment) o q rest
  | .code, o, q, '"' :: rest => exceeds limit .string o q rest
  | .code, o, q, '/' :: '/' :: rest => exceeds limit .comment o q rest
  | .code, o, q, '?' :: '?' :: rest => exceeds limit .code o q rest
  | .code, o, q, '?' :: rest =>
      limit < o + (q + 1) || exceeds limit .code o (q + 1) rest
  | .code, o, q, c :: rest =>
      if c = '(' || c = '[' then
        limit < (o + 1) + q || exceeds limit .code (o + 1) q rest
      else if c = ')' || c = ']' then exceeds limit .code (o - 1) q rest
      else exceeds limit .code o q rest

/-- Most brackets and conditionals accepted. -/
def nestingLimit : Nat := 32

def tooNested (source : String) : Bool :=
  exceeds nestingLimit .code 0 0 source.toList

end Scriptlet.Grammar
