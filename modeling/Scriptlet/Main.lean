import Scriptlet.CommandLine.Run
import Scriptlet.Settings.Sources
import Scriptlet.Surroundings

/-!
The program: it gathers the arguments, the files, the environment, the time and some random bytes,
runs the command line on them, and prints what comes out.
-/

open Scriptlet

/-- The contents of those paths that can be read. -/
def readFiles (paths : List String) : IO (List (String × String)) :=
  paths.filterMapM fun (path : String) => do
    try
      let text ← IO.FS.readFile path
      return some (path, text)
    catch _ => return none

/-- All variables of the process. -/
def readEnvironment : IO Dotenv.Environment := do
  try
    let text ← IO.FS.readFile "/proc/self/environ"
    return (text.splitOn "\x00").filterMap fun entry =>
      match entry.splitOn "=" with
      | name :: value@(_ :: _) => some (name, "=".intercalate value)
      | _ => none
  catch _ => return []

/-- The time at which a new file was changed last. -/
def readClock : IO Nat := do
  let (_, path) ← IO.FS.createTempFile
  let changed := (← path.metadata).modified
  IO.FS.removeFile path
  return changed.sec.toNat * 1000 + changed.nsec.toNat / 1000000

/-- The paths at which the settings of an invocation may stand. -/
def settingsPaths (invocation : CommandLine.Invocation) (environment : Dotenv.Environment) :
    List String :=
  let name := match invocation.settingsPath with
    | some path => path
    | none => (environment.lookup Settings.pathVariable).getD Settings.defaultName
  name :: (Settings.alternatives name).map (·.1)

def usage : String :=
  "Usage: snippet [--config <CONFIG>] eval [-c <CONTEXT>] [-r <REPEAT>] <SOURCE>\n"
    ++ "       snippet [--config <CONFIG>] check [--ast] <SOURCE>"

def report (failure : CommandLine.Failure) : IO UInt32 := do
  match failure with
  | .usage .displayHelp =>
      IO.println usage
      return 0
  | .usage _ =>
      IO.eprintln usage
      return 2
  | failure =>
      let cause := (failure.cause?.map (": " ++ ·)).getD ""
      IO.eprintln ("Error: " ++ failure.message ++ cause)
      return 1

def main (args : List String) : IO UInt32 := do
  match CommandLine.parse args with
  | .error e => report (.usage e)
  | .ok invocation =>
      let environment ← readEnvironment
      let dotenv ← readFiles [Settings.dotenvPath]
      let extended := Settings.environmentOf (fun path => dotenv.lookup path) environment
      let settings ← readFiles (settingsPaths invocation extended)
      let files := dotenv ++ settings
      let around := Surroundings.ofSeed (← IO.getRandomBytes 32).toList (← readClock)
      match CommandLine.run around Layered.library (fun path => files.lookup path) environment args with
      | .error failure => report failure
      | .ok text =>
          IO.print text
          return 0
