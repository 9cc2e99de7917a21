import Scriptlet.Fields
import Scriptlet.Toml

/-!
Putting tables together. A document and an inline table are written as a list of pairs and
headers, in which a dotted key or a header may speak of tables that stand elsewhere. No key is
given twice, and a table that was once written out is not reopened: a table is `implicit` as long
as only its parts were spoken of, and `dotted` when a dotted key did so. A value, an inline table
among them, is closed.
-/

namespace Scriptlet.Toml

inductive Node where
  | value (v : Toml)
  | table (implicit dotted : Bool) (fields : List (String × Node))
  | tables (items : List Node)
  deriving Inhabited

namespace Node

/-- A table that is written out and holds nothing yet. -/
def empty : Node := .table false false []

/-- Changes the last item. -/
def onLast {α : Type} (f : α → Option α) : List α → Option (List α)
  | [] => none
  | [a] => (f a).map ([·])
  | a :: more => (onLast f more).map (a :: ·)

/-- Changes the table at a path, making the tables on the way that are missing. A list of tables
stands for its last one. A dotted key does not lead into a table that was written out. -/
def change (dotted : Bool) (f : Node → Option Node) : List String → Node → Option Node
  | [], node => f node
  | key :: path, .table i d fields => do
      let into (child : Node) := change dotted f path child
      let child ← match (fields.lookup key).getD (.table true dotted []) with
        | .value _ => none
        | .tables items => (onLast into items).map .tables
        | .table i d fields =>
            if dotted && !i then none else into (.table i d fields)
      some (.table i d (setField key child fields))
  | _ :: _, _ => none

/-- Adds a value to a table, by its own key if `direct` and by a dotted one otherwise. -/
def addHere (direct : Bool) (key : String) (v : Toml) : Node → Option Node
  | .table i d fields =>
      if d == direct || (fields.lookup key).isSome then none
      else some (.table i d (fields ++ [(key, .value v)]))
  | _ => none

/-- Adds the value of a pair whose key has the parts `path` and `key`. -/
def add (path : List String) (key : String) (v : Toml) : Node → Option Node :=
  change true (addHere path.isEmpty key v) path

/-- Writes out the table of a header. It may have been spoken of by other headers only. -/
def openHere (key : String) : Node → Option Node
  | .table i d fields =>
      match fields.lookup key with
      | none => some (.table i d (fields ++ [(key, empty)]))
      | some (.table true false inner) => some (.table i d (setField key (.table false false inner) fields))
      | some _ => none
  | _ => none

/-- Appends a table to a list of tables. -/
def appendHere (key : String) : Node → Option Node
  | .table i d fields =>
      match fields.lookup key with
      | none => some (.table i d (fields ++ [(key, .tables [empty])]))
      | some (.tables items) => some (.table i d (setField key (.tables (items ++ [empty])) fields))
      | some _ => none
  | _ => none

mutual

def toToml : Node → Toml
  | .value v => v
  | .table _ _ fields => .table (fieldsToToml fields)
  | .tables items => .array (itemsToToml items)

def itemsToToml : List Node → List Toml
  | [] => []
  | item :: more => item.toToml :: itemsToToml more

def fieldsToToml : List (String × Node) → List (String × Toml)
  | [] => []
  | (key, node) :: more => (key, node.toToml) :: fieldsToToml more

end

end Node

/-- A key as written: the parts before its last one, and the last one. -/
structure Key where
  path : List String
  last : String

/-- A part of a document. -/
inductive Statement where
  | pair (key : Key) (value : Toml)
  | header (key : Key)
  | listHeader (key : Key)

/-- A document in the making: its tables, and the path of the last header. -/
structure Draft where
  root : Node := .empty
  current : List String := []

namespace Draft

def take (d : Draft) : Statement → Option Draft
  | .pair key v => do
      some { d with root := ← d.root.change false (Node.add key.path key.last v) d.current }
  | .header key => do
      let root ← d.root.change false (Node.openHere key.last) key.path
      some { root, current := key.path ++ [key.last] }
  | .listHeader key => do
      let root ← d.root.change false (Node.appendHere key.last) key.path
      some { root, current := key.path ++ [key.last] }

end Draft

/-- The table of a list of pairs. -/
def ofPairs? (pairs : List (Key × Toml)) : Option Toml :=
  (pairs.foldlM (fun node (pair : Key × Toml) =>
    Node.add pair.1.path pair.1.last pair.2 node) Node.empty).map Node.toToml

/-- The table of a document. -/
def ofStatements? (statements : List Statement) : Option Toml :=
  (statements.foldlM Draft.take {}).map fun draft => draft.root.toToml

end Scriptlet.Toml
