/-!
The values of a TOML document. A date or a time is kept as it was written.
-/

namespace Scriptlet

inductive Toml where
  | string (s : String)
  | integer (n : Int)
  | float (x : Float)
  | boolean (b : Bool)
  | moment (text : String)
  | array (items : List Toml)
  | table (fields : List (String × Toml))
  deriving Repr, Inhabited

end Scriptlet
