import Scriptlet.CommandLine.Command
import Scriptlet.Expr.Json
import Scriptlet.Json.Document
import Scriptlet.Json.Writer
import Scriptlet.Service
import Scriptlet.Settings.Load

/-!
Running a command. The settings are loaded first, so that what is wrong with them is reported
before anything else. A snippet may be run several times over, and then the counters of the cache
are printed behind its result.
-/

namespace Scriptlet.CommandLine

inductive Failure where
  | usage (error : UsageError)
  | settings (error : SettingsError)
  | noRepeats
  | context
  | evaluation (source : String) (error : ScriptError AnyJson)
  | endless (source : String)
  | check (error : CompileError)

/-- What is reported first. -/
def Failure.message : Failure → String
  | .usage _ => "The arguments are not understood"
  | .settings _ => "Failed to load configuration"
  | .noRepeats => "--repeat must be at least 1"
  | .context => "Context is not valid JSON"
  | .evaluation source _ | .endless source => "Failed to evaluate '" ++ source ++ "'"
  | .check e => "'" ++ e.source ++ "' does not compile"

/-- What lies behind it. -/
def Failure.cause? : Failure → Option String
  | .settings e => some e.message
  | .evaluation _ e => some e.message
  | .check e => some e.message
  | _ => none

/-- The statistics of a cache, in the order of its fields. -/
def statistics (stats : Nat × Counters) : Json :=
  let count (n : Nat) : Json := .integer n
  .object [("entries", count stats.1), ("hits", count stats.2.hits),
    ("misses", count stats.2.misses), ("coalesced", count stats.2.coalesced),
    ("compiles", count stats.2.compiles), ("compile_failures", count stats.2.compileFailures),
    ("evictions", count stats.2.evictions), ("expirations", count stats.2.expirations)]

/-- Invokes a snippet a number of times, for its last result. -/
def invokeRepeatedly (source : String) (context : Json) :
    Nat → Json → Service AnyJson → Except Failure (Json × Service AnyJson)
  | 0, last, service => .ok (last, service)
  | n + 1, _, service =>
      let key : CacheKey AnyJson := ⟨source, ⟨.json, .json⟩⟩
      match service.invoke key context with
      | (.never, _) => .error (.endless source)
      | (.after _ (.error e), _) => .error (.evaluation source e)
      | (.after _ (.ok result), service) => invokeRepeatedly source context n result service

/-- The output of a command. -/
def execute (around : Surroundings) (settings : Settings) : Command → Except Failure String
  | .eval source context repeats => do
      if repeats = 0 then .error .noRepeats
      let some context := Json.read? context | .error .context
      let service : Service AnyJson := .new (Compiler.expressions around) settings.limits
        settings.eviction settings.timeout
      let (result, service) ← invokeRepeatedly source context repeats .null service
      let counters := if repeats > 1 then
        "\nCache:\n" ++ (statistics service.cache.stats).pretty ++ "\n" else ""
      .ok (result.pretty ++ "\n" ++ counters)
  | .check source showTree =>
      match Scriptlet.check source with
      | .error e => .error (.check e)
      | .ok e => .ok (if showTree then e.toJson.pretty ++ "\n" else "ok\n")

/-- The settings that an invocation asks for. -/
def settingsOf (library : Settings.LayerLibrary) (files : Files)
    (environment : Dotenv.Environment) (invocation : Invocation) : Except SettingsError Settings :=
  match invocation.settingsPath with
  | some path => Settings.loadFrom library files environment (some path)
  | none => Settings.load library files environment

/-- The output of a command line. -/
def run (around : Surroundings) (library : Settings.LayerLibrary) (files : Files)
    (environment : Dotenv.Environment) (args : List String) : Except Failure String := do
  let invocation ← (parse args).mapError .usage
  let settings ← (settingsOf library files environment invocation).mapError .settings
  execute around settings invocation.command

end Scriptlet.CommandLine
