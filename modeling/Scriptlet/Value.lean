import Scriptlet.Json
import Scriptlet.Number.Integer
import Scriptlet.Number.Layout
import Scriptlet.Text.Search

/-!
Run-time values. They differ from JSON values in their numbers: an integer has 64 bits, and a
float may be infinite or NaN. The fields of an object are a list of pairs in which no key occurs
twice; nothing depends on their order, and a JSON object made of them is sorted again.
-/

namespace Scriptlet

inductive Value where
  | null
  | bool (b : Bool)
  | int (n : Int64)
  | float (x : Float)
  | string (s : String)
  | list (items : List Value)
  | object (fields : List (String × Value))
  deriving Repr, Inhabited

inductive Kind where
  | null | bool | int | float | string | list | object
  deriving Repr, DecidableEq

def Kind.name : Kind → String
  | .null => "null"
  | .bool => "bool"
  | .int => "int"
  | .float => "float"
  | .string => "string"
  | .list => "list"
  | .object => "object"

namespace Value

def kind : Value → Kind
  | .null => .null
  | .bool _ => .bool
  | .int _ => .int
  | .float _ => .float
  | .string _ => .string
  | .list _ => .list
  | .object _ => .object

def isNull : Value → Bool
  | .null => true
  | _ => false

/-- The number of a value; an integer is widened to the nearest float. -/
def number? : Value → Option Float
  | .int n => some (Number.ofInt64 n)
  | .float x => some x
  | _ => none

mutual

/-- The text of a value inside a string: null is empty, strings stand without quotes, and an
object does not show its fields. -/
def display : Value → String
  | .null => ""
  | .bool b => if b then "true" else "false"
  | .int n => toString n.toInt
  | .float x => Number.plainText x
  | .string s => s
  | .list items => "[" ++ displayItems items ++ "]"
  | .object _ => "[object]"

def displayItems : List Value → String
  | [] => ""
  | [item] => item.display
  | item :: more => item.display ++ ", " ++ displayItems more

end

mutual

/-- An integer of 64 bits stays an integer; every other number becomes a float. -/
def ofJson : Json → Value
  | .null => .null
  | .bool b => .bool b
  | .integer n =>
      if Number.Fits n then .int (Int64.ofInt n)
      else .float (Number.ofMagnitude (n < 0) n.natAbs)
  | .float x => .float x
  | .string s => .string s
  | .array items => .list (itemsOfJson items)
  | .object fields => .object (fieldsOfJson fields)

def itemsOfJson : List Json → List Value
  | [] => []
  | item :: more => ofJson item :: itemsOfJson more

def fieldsOfJson : List (String × Json) → List (String × Value)
  | [] => []
  | (key, value) :: more => (key, ofJson value) :: fieldsOfJson more

end

mutual

/-- The JSON form of a value, or the first float in it that has none. -/
def toJson : Value → Except Float Json
  | .null => .ok .null
  | .bool b => .ok (.bool b)
  | .int n => .ok (.integer n.toInt)
  | .float x => if x.isFinite then .ok (.float x) else .error x
  | .string s => .ok (.string s)
  | .list items => do .ok (.array (← itemsToJson items))
  | .object fields => do .ok (.ofFields (← fieldsToJson fields))

def itemsToJson : List Value → Except Float (List Json)
  | [] => .ok []
  | item :: more => do
      let item ← item.toJson
      let more ← itemsToJson more
      .ok (item :: more)

def fieldsToJson : List (String × Value) → Except Float (List (String × Json))
  | [] => .ok []
  | (key, value) :: more => do
      let value ← value.toJson
      let more ← fieldsToJson more
      .ok ((key, value) :: more)

end

mutual

/-- Equality by structure, in which an integer equals the float that it is widened to. NaN equals
nothing. -/
def looselyEquals : Value → Value → Bool
  | .null, .null => true
  | .bool a, .bool b => a == b
  | .int a, .int b => a == b
  | .int a, .float b => Number.ofInt64 a == b
  | .float a, .int b => Number.ofInt64 b == a
  | .float a, .float b => a == b
  | .string a, .string b => a == b
  | .list a, .list b => a.length == b.length && itemsEqual a b
  | .object a, .object b => a.length == b.length && fieldsEqual a b
  | _, _ => false

def itemsEqual : List Value → List Value → Bool
  | [], _ | _, [] => true
  | x :: xs, y :: ys => x.looselyEquals y && itemsEqual xs ys

/-- Every field of the first list has an equal partner in the second. -/
def fieldsEqual : List (String × Value) → List (String × Value) → Bool
  | [], _ => true
  | (key, x) :: more, b =>
      (match b.lookup key with
        | some y => x.looselyEquals y
        | none => false)
      && fieldsEqual more b

end

end Value

end Scriptlet
