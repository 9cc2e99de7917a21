import Scriptlet.Json.Document
import Scriptlet.Settings.Layer
import Scriptlet.Settings.Load
import Scriptlet.Toml.Document

/-!
The layer library that the program runs with. A file is found with or without its extension, and
its format goes by that. A variable of the environment is a path and a value: its name without the
lead, in lower case, with a dot for each separator.
-/

namespace Scriptlet

namespace Settings

/-- The formats of files, with their extensions. -/
inductive Format where
  | toml
  | json
  deriving Repr, DecidableEq

def Format.all : List Format := [.toml, .json]

def Format.extension : Format → String
  | .toml => "toml"
  | .json => "json"

/-- The paths at which a file is looked for behind its own name. -/
def alternatives (name : String) : List (String × Format) :=
  if name.isEmpty then [] else Format.all.map fun f => (name ++ "." ++ f.extension, f)

/-- The file of a name and its format: the path itself, or the path with an extension. -/
def find? (files : Files) (name : String) : Option (String × Format) :=
  match files name with
  | some text =>
      (Format.all.find? fun f => extension? name = some f.extension).map fun f => (text, f)
  | none =>
      (alternatives name).findSome? fun (path, format) => (files path).map fun text => (text, format)

end Settings

namespace Layered

open Settings (Format Source)

/-- The fields of a file's root. -/
def ofFile? (text : String) : Format → Option (List (String × Layered))
  | .toml => (Toml.read? text).map fun document => (ofToml document).fields
  | .json =>
      let cs := match text.toList with
        | '\ufeff' :: rest => rest
        | cs => cs
      match Json.read? (String.ofList cs) with
      | some (.object fields) => some (fieldsOfJson fields)
      | _ => none

/-- The value that a variable spells: the first of truth value, integer, float and text. -/
def ofVariable (text : String) : Layered :=
  match Text.toLower text with
  | "true" => .boolean true
  | "false" => .boolean false
  | _ =>
      match Number.integerOfText? text, Number.floatOfText? text with
      | some n, _ => .integer n.toInt
      | none, some x => .float x
      | none, none => .string text

/-- The values that a source gives, by their paths. -/
def ofSource? (files : Files) (environment : Dotenv.Environment) :
    Source → Option (List (String × Layered))
  | .file name required =>
      match Settings.find? files name with
      | some (text, format) => ofFile? text format
      | none => if required then none else some []
  | .variables lead leadSeparator separator parsed =>
      let lead := (Text.toLower (lead ++ leadSeparator)).toList
      some <| environment.filterMap fun (name, value) =>
        let name := (Text.toLower name).toList
        if lead.isPrefixOf name then
          some ((String.ofList (name.drop lead.length)).replace separator ".",
            if parsed then ofVariable value else .string value)
        else none

def library : Settings.LayerLibrary where
  Value := Layered
  build? files environment sources :=
    sources.foldlM (fun root source => (ofSource? files environment source).map (overlay · root))
      (.table [])
  reader := reader

end Layered

end Scriptlet
