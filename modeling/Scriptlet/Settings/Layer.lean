import Scriptlet.Fields
import Scriptlet.Json
import Scriptlet.Number.Reading
import Scriptlet.Settings.Reader
import Scriptlet.Toml.Scalar

/-!
The tree of the layer library that the program runs with. Each source gives values by path, all of
them are laid over one another in a tree, and a later value hides an earlier one at its place while
tables are merged. The tree is typed loosely: a count may be a text, a truth value or a float, and
names do not distinguish upper from lower case.
-/

namespace Scriptlet

/-- A value of a source. -/
inductive Layered where
  | nil
  | boolean (b : Bool)
  | integer (n : Int)
  | float (x : Float)
  | string (s : String)
  | array (items : List Layered)
  | table (fields : List (String × Layered))
  deriving Repr, Inhabited

namespace Layered

mutual

def ofToml : Toml → Layered
  | .string s => .string s
  | .integer n => .integer n
  | .float x => .float x
  | .boolean b => .boolean b
  | .moment text => .string text
  | .array items => .array (itemsOfToml items)
  | .table fields => .table (fieldsOfToml fields)

def itemsOfToml : List Toml → List Layered
  | [] => []
  | item :: more => ofToml item :: itemsOfToml more

def fieldsOfToml : List (String × Toml) → List (String × Layered)
  | [] => []
  | (key, value) :: more => (key, ofToml value) :: fieldsOfToml more

end

mutual

/-- An integer of more than 64 bits with its sign is a float. -/
def ofJson : Json → Layered
  | .null => .nil
  | .bool b => .boolean b
  | .integer n =>
      if Number.Fits n then .integer n
      else .float (Number.ofMagnitude (n < 0) n.natAbs)
  | .float x => .float x
  | .string s => .string s
  | .array items => .array (itemsOfJson items)
  | .object fields => .table (fieldsOfJson fields)

def itemsOfJson : List Json → List Layered
  | [] => []
  | item :: more => ofJson item :: itemsOfJson more

def fieldsOfJson : List (String × Json) → List (String × Layered)
  | [] => []
  | (key, value) :: more => (key, ofJson value) :: fieldsOfJson more

end

/-! ### Laying one value over another -/

/-- The fields of a table; anything else has none. -/
def fields : Layered → List (String × Layered)
  | .table fields => fields
  | _ => []

def items : Layered → List Layered
  | .array items => items
  | _ => []

mutual

/-- Lays a value over the field of a table. A table is merged with what is there. -/
def put (key : String) : Layered → Layered → Layered
  | .table incoming, root =>
      let key := Text.toLower key
      let target := (root.fields.lookup key).getD (.table [])
      .table (setField key (putAll incoming target) root.fields)
  | value, root => .table (setField (Text.toLower key) value root.fields)

def putAll : List (String × Layered) → Layered → Layered
  | [], target => target
  | (key, value) :: more, target => putAll more (put key value target)

end

/-- A step down a tree. A negative index counts from the end. -/
inductive Step where
  | field (key : String)
  | index (i : Int)
  deriving Repr, DecidableEq

/-- The place of an index in a list of `length` items. -/
def place? (i : Int) (length : Nat) : Option Nat :=
  if 0 ≤ i then some i.toNat
  else if i.natAbs ≤ length then some (length - i.natAbs)
  else none

/-- Changes the item at an index, filling up the list to it. -/
def onItem (f : Layered → Layered) (i : Int) (items : List Layered) : List Layered :=
  match place? i items.length with
  | none => items
  | some n =>
      let filled := items ++ List.replicate (n + 1 - items.length) .nil
      filled.modify n f

/-- Changes the value at a path. What stands in the way is replaced. -/
def change (f : Layered → Layered) : List Step → Layered → Layered
  | [], value => f value
  | .field key :: path, value =>
      let child := (value.fields.lookup key).getD .nil
      .table (setField key (change f path child) value.fields)
  | .index i :: path, value => .array (onItem (change f path) i value.items)

/-- Lays a value over the place at a path. -/
def putAt (path : List Step) (value root : Layered) : Layered :=
  match path.getLast? with
  | none => root
  | some (.field key) => change (put key value) path.dropLast root
  | some (.index i) => change (fun v => .array (onItem (fun _ => value) i v.items)) path.dropLast root

/-! ### Paths -/

def isName (c : Char) : Bool :=
  Text.isLetter c || Text.isDigit c || c == ' ' || c == '_' || c == '-'

/-- An index up to its closing bracket. -/
def index? (cs : List Char) : Option (Int × List Char) := do
  let (negative, rest) := match Toml.skipSpaces cs with
    | '-' :: rest => (true, rest)
    | rest => (false, rest)
  let n := Int.ofNat (Number.natOfDigits (rest.takeWhile Text.isDigit))
  let i := if negative then -n else n
  match rest.takeWhile Text.isDigit, Toml.skipSpaces (rest.dropWhile Text.isDigit) with
  | [], _ => none
  | _, ']' :: rest => if Number.Fits i then some (i, rest) else none
  | _, _ => none

/-- The steps behind the first name of a path. -/
def steps? : Nat → List Char → Option (List Step)
  | _, [] => some []
  | 0, _ => none
  | fuel + 1, '.' :: rest =>
      match rest.takeWhile isName with
      | [] => none
      | name =>
          (steps? fuel (rest.dropWhile isName)).map (.field (String.ofList name) :: ·)
  | fuel + 1, '[' :: rest => do
      let (i, rest) ← index? rest
      (steps? fuel rest).map (.index i :: ·)
  | _, _ => none

/-- The path that a key spells, such as `cache.max_entries` or `list[0]`; a key that spells none
is a name of its own. -/
def pathOf (key : String) : List Step :=
  let cs := key.toList
  match cs.takeWhile isName, steps? cs.length (cs.dropWhile isName) with
  | name@(_ :: _), some steps => .field (String.ofList name) :: steps
  | _, _ => [.field key]

/-- Lays a source over a tree. -/
def overlay (source : List (String × Layered)) (root : Layered) : Layered :=
  source.foldl (fun root (key, value) => putAt (pathOf key) value root) root

/-! ### Settings of a tree -/

/-- A float as a count of 64 bits: rounded, a half away from zero, and cut at both ends. -/
def countOfFloat (x : Float) : Nat :=
  match Number.content (Number.round x) with
  | .nan => 0
  | .infinite negative => if negative then 0 else 0xffffffffffffffff
  | .finite negative mantissa exponent =>
      if negative then 0
      else if exponent < 0 then mantissa / Nat.pow 2 exponent.natAbs
      else min (mantissa * Nat.pow 2 (min exponent.natAbs 64)) 0xffffffffffffffff

def countOfText? (text : String) : Option Nat :=
  match Text.toLower text with
  | "true" | "on" | "yes" => some 1
  | "false" | "off" | "no" => some 0
  | _ => Number.word? text

/-- A count, or nil for none. -/
def count? : Layered → Option (Option Nat)
  | .nil => some none
  | .integer n => if 0 ≤ n then some (some n.toNat) else none
  | .string s => (countOfText? s).map some
  | .boolean b => some (some b.toNat)
  | .float x => some (some (countOfFloat x))
  | _ => none

/-- A name in any case, or a table with one field of that name. -/
def choice? (names : List String) : Layered → Option String
  | .string name | .table [(name, _)] => names.find? (Text.toLower · = Text.toLower name)
  | _ => none

def namedFields? (names : List String) : Layered → Option (String → Option Layered)
  | .table fields => some fun name => fields.lookup name
  | .array items => some fun name => (names.idxOf? name).bind (items[·]?)
  | _ => none

def reader : Reader Layered :=
  { fields? := namedFields?, count?, choice? }

end Layered

end Scriptlet
