import Scriptlet.Number.Layout

/-!
JSON values. The fields of an object are sorted by key in code point order and no key occurs
twice; `insertField` keeps that, and a later field replaces an earlier one of its key.
-/

namespace Scriptlet

/-- A JSON value. The integers of a document lie between `-2^63` and `2^64 - 1`. -/
inductive Json where
  | null
  | bool (b : Bool)
  | integer (n : Int)
  | float (x : Float)
  | string (s : String)
  | array (items : List Json)
  | object (fields : List (String × Json))
  deriving Repr, Inhabited

namespace Json

/-- Puts a field at its place in a list sorted by key. -/
def insertField {α : Type} (key : String) (value : α) : List (String × α) → List (String × α)
  | [] => [(key, value)]
  | (k, v) :: rest =>
      if key < k then (key, value) :: (k, v) :: rest
      else if key = k then (key, value) :: rest
      else (k, v) :: insertField key value rest

/-- The object of a list of fields, in which the last field of a key counts. -/
def ofFields (fields : List (String × Json)) : Json :=
  .object (fields.foldl (fun acc (k, v) => insertField k v acc) [])

/-- The value of a field. -/
def field? (key : String) : Json → Option Json
  | .object fields => fields.lookup key
  | _ => none

end Json

end Scriptlet
