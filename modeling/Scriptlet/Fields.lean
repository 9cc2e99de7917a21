/-! Tables as lists of pairs, in which a field keeps its place. -/

namespace Scriptlet

/-- Sets a field, in its place if it is there and at the end if not. -/
def setField {α : Type} (key : String) (value : α) : List (String × α) → List (String × α)
  | [] => [(key, value)]
  | (k, v) :: more => if k = key then (key, value) :: more else (k, v) :: setField key value more

end Scriptlet
