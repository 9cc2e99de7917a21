import Scriptlet.Settings.Dotenv
import Scriptlet.Settings.Reader

/-!
Settings from a text, and from a file with the environment on top of it. Both are read by
libraries, and everything here is about whichever libraries these are: one takes the text of a
document apart, the other finds files, lays the sources over one another, and brings them into a
tree of its own. A file is named, or it has a default name and may be missing. Variables of the
environment that start with `SNIPPET_` name a setting; two underscores go one step down.
-/

namespace Scriptlet

/-- The texts of files by their paths. -/
abbrev Files := String → Option String

namespace Settings

/-- The extension of a path: what stands behind the last dot in its last name. A dot that starts the
name starts no extension. -/
def extension? (path : String) : Option String :=
  let name := path.toList.reverse.takeWhile (· != '/')
  match name.dropWhile (· != '.') with
  | '.' :: _ :: _ => some (String.ofList (name.takeWhile (· != '.')).reverse)
  | _ => none

/-- Where settings may come from: a file, or the variables whose names start with `lead`. -/
inductive Source where
  | file (name : String) (required : Bool)
  | variables (lead leadSeparator separator : String) (parsed : Bool)
  deriving Repr, DecidableEq

/-- A library for the documents of one format. -/
structure DocumentLibrary where
  Value : Type
  read? : String → Option Value
  reader : Reader Value

/-- A library for several sources, of which the later ones hide the earlier ones. -/
structure LayerLibrary where
  Value : Type
  build? : Files → Dotenv.Environment → List Source → Option Value
  reader : Reader Value

/-- The settings that were read, once their bounds have been looked at. -/
def checked (refusal : SettingsError) : Option Settings → Except SettingsError Settings
  | none => .error refusal
  | some s => s.validate

/-- The settings of a text. -/
def ofText (library : DocumentLibrary) (text : String) : Except SettingsError Settings :=
  checked .parse (library.read? text >>= ofValue? library.reader)

/-- The name of the file that is looked for when none is named. -/
def defaultName : String := "snippet"

/-- The file of a path, or the default one if there is any, and above it the environment. -/
def sources : Option String → List Source
  | some path => [.file path true, .variables "SNIPPET" "_" "__" true]
  | none => [.file defaultName false, .variables "SNIPPET" "_" "__" true]

/-- Loads settings from a file and the environment. -/
def loadFrom (library : LayerLibrary) (files : Files) (environment : Dotenv.Environment)
    (path : Option String) : Except SettingsError Settings :=
  checked .load (library.build? files environment (sources path) >>= ofValue? library.reader)

/-- The file from which more variables are taken. -/
def dotenvPath : String := ".env"

/-- The variable that names the file. -/
def pathVariable : String := "SNIPPET_CONFIG_PATH"

/-- The environment with the variables of the file that holds more of them. -/
def environmentOf (files : Files) (environment : Dotenv.Environment) : Dotenv.Environment :=
  match files dotenvPath with
  | some text => Dotenv.extend environment text
  | none => environment

/-- Loads settings from where the environment says. -/
def load (library : LayerLibrary) (files : Files) (environment : Dotenv.Environment) :
    Except SettingsError Settings :=
  let environment := environmentOf files environment
  loadFrom library files environment (environment.lookup pathVariable)

end Settings

end Scriptlet
