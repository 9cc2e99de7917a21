import Scriptlet.Settings.Load
import Scriptlet.Toml.Document

/-!
The document library that the program runs with. A value is taken as it is written: a count is an
integer, and a name is spelled as it is. A table may also be given as an array of its fields in
their order, and what the array lacks is missing.
-/

namespace Scriptlet.Toml

/-- The named fields of a table. A moment has none of them. -/
def namedFields? (names : List String) : Toml → Option (String → Option Toml)
  | .table fields => some fun name => fields.lookup name
  | .array items => some fun name => (names.idxOf? name).bind (items[·]?)
  | .moment _ => some fun _ => none
  | _ => none

def count? : Toml → Option (Option Nat)
  | .integer n => if 0 ≤ n then some (some n.toNat) else none
  | _ => none

/-- A name, or a table of one field with that name and nothing in it. -/
def choice? (names : List String) : Toml → Option String
  | .string name => names.find? (· = name)
  | .table [(name, .table [])] | .table [(name, .array [])] => names.find? (· = name)
  | _ => none

def library : Settings.DocumentLibrary where
  Value := Toml
  read? := read?
  reader := { fields? := namedFields?, count?, choice? }

end Scriptlet.Toml
