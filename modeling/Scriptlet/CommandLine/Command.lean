import Scriptlet.CommandLine.Arguments
import Scriptlet.Number.Numeral

/-!
The commands: `eval` runs a snippet on a context, `check` compiles one. Both take the path of a
file of settings, which may also stand in front of them; of two paths the inner one counts.
-/

namespace Scriptlet.CommandLine

inductive Command where
  | eval (source context : String) (repeats : Nat)
  | check (source : String) (showTree : Bool)
  deriving Repr, DecidableEq

structure Invocation where
  settingsPath : Option String
  command : Command
  deriving Repr, DecidableEq

def settingsOption : Opt := { long := "config", effect := .value fun _ => true }

def helpOption : Opt := { long := "help", short := some 'h', effect := .help }

def contextOption : Opt :=
  { long := "context", short := some 'c', effect := .value fun _ => true }

def repeatOption : Opt :=
  { long := "repeat", short := some 'r', effect := .value fun s => (Number.word? s).isSome }

def treeOption : Opt := { long := "ast", effect := .switch }

def evalSpec : Spec :=
  { options := [contextOption, repeatOption, settingsOption, helpOption], places := 1 }

def checkSpec : Spec :=
  { options := [treeOption, settingsOption, helpOption], places := 1 }

def helpName : String := "help"

def specOf? : String → Option Spec
  | "eval" => some evalSpec
  | "check" => some checkSpec
  | _ => none

def rootSpec : Spec :=
  { options := [settingsOption, helpOption], subcommands := ["eval", "check", helpName] }

/-- What follows the word `help`: nothing, or the name of a command. -/
def help : List String → UsageError
  | [] => .displayHelp
  | [name] => if rootSpec.subcommands.contains name then .displayHelp else .invalidSubcommand
  | _ => .invalidSubcommand

/-- The command of the arguments behind its name, with the path that was given to it. -/
def command (name : String) (args : List String) :
    Except UsageError (Command × Option String) := do
  let some spec := specOf? name | .error (help args)
  let (reading, _) ← scan spec {} args
  let arguments ← finish spec reading
  let source := arguments.places.headD ""
  let value (o : Opt) := arguments.values.lookup o.long
  let command := match name with
    | "eval" =>
        let repeats := ((value repeatOption).bind Number.word?).getD 1
        Command.eval source ((value contextOption).getD "null") repeats
    | _ => Command.check source (value treeOption).isSome
  .ok (command, value settingsOption)

/-- What the arguments behind the program's name ask for. -/
def parse (args : List String) : Except UsageError Invocation := do
  let (reading, rest) ← scan rootSpec {} args
  match rest with
  | .subcommand name args =>
      let (command, inner) ← command name args
      let reading ← reading.settle
      .ok { settingsPath := inner <|> reading.values.lookup settingsOption.long, command }
  | .none =>
      let reading ← reading.settle
      if reading.values.isEmpty then .error .displayHelpOnMissing else .error .missingSubcommand

end Scriptlet.CommandLine
