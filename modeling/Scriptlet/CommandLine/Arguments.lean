/-!
Reading the arguments of a command line. A command has options, which are written `--name` or by
one letter, then arguments in their places, and it may have subcommands, which read what is left.
An option with a value takes it from the same argument, `--name=value` or `-nvalue`, or from the
next one, which must not look like an option. Behind `--` everything is an argument. Arguments are
read from left to right, and the first one that does not fit is the error; whether something is
missing is only looked at in the end.
-/

namespace Scriptlet.CommandLine

inductive UsageError where
  | missingRequiredArgument
  | unknownArgument
  | invalidSubcommand
  | missingSubcommand
  | argumentConflict
  | valueValidation
  | invalidValue
  | tooManyValues
  | displayHelp
  | displayHelpOnMissing
  deriving Repr, DecidableEq

/-- What an option does: it takes a value that passes a test, is switched on, or asks for help. -/
inductive Effect where
  | value (fits : String → Bool)
  | switch
  | help

structure Opt where
  long : String
  short : Option Char := none
  effect : Effect

/-- A command: its options, how many arguments it takes, all of which are required, and its
subcommands, one of which is required if there are any. -/
structure Spec where
  options : List Opt
  places : Nat := 0
  subcommands : List String := []

/-- What has been read. `pending` is an option whose value is still to come, or has come and is
taken when the next argument is read. -/
structure Reading where
  values : List (String × String) := []
  places : List String := []
  pending : Option (Opt × Option String) := none
  trailing : Bool := false

/-- The values of options and the arguments in their places. A switch that is on has the empty
text for its value. -/
structure Arguments where
  values : List (String × String)
  places : List String

/-- How the arguments of one command end: with it, or with a subcommand and its arguments. -/
inductive Rest where
  | none
  | subcommand (name : String) (args : List String)

namespace Reading

/-- Takes a value of an option, which may have one only. -/
def take (o : Opt) (value : String) (r : Reading) : Except UsageError Reading :=
  if (r.values.lookup o.long).isSome then .error .argumentConflict
  else
    match o.effect with
    | .value fits =>
        if fits value then .ok { r with values := r.values ++ [(o.long, value)] }
        else .error .valueValidation
    | .switch => .ok { r with values := r.values ++ [(o.long, value)] }
    | .help => .error .displayHelp

/-- Takes the pending value, which has to be there. -/
def settle (r : Reading) : Except UsageError Reading :=
  match r.pending with
  | none => .ok r
  | some (_, none) => .error .invalidValue
  | some (o, some value) => { r with pending := none }.take o value

/-- Whether the next argument is the value of an option, unless it looks like one itself. -/
def awaits (r : Reading) : Bool :=
  match r.pending with
  | some (_, none) => true
  | _ => false

/-- An option with the value that stands behind its name, if any. -/
def option (o : Opt) (attached : Option String) (r : Reading) : Except UsageError Reading := do
  match o.effect, attached with
  | .value _, none => .ok { ← r.settle with pending := some (o, none) }
  | .value _, some value => (← r.settle).take o value
  | _, none => (← r.settle).take o ""
  | _, some _ => .error .tooManyValues

/-- The letters behind a dash: switches, and an option that takes the rest for its value. -/
def letters (spec : Spec) (r : Reading) : List Char → Except UsageError Reading
  | [] => .ok r
  | c :: rest =>
      match spec.options.find? (·.short = some c) with
      | none => .error .unknownArgument
      | some o =>
          match o.effect with
          | .value _ =>
              match rest with
              | [] => r.option o none
              | '=' :: rest => r.option o (some (String.ofList rest))
              | rest => r.option o (some (String.ofList rest))
          | _ => do letters spec (← r.option o none) rest

/-- The name behind two dashes, and the value behind an equals sign. -/
def long (spec : Spec) (r : Reading) (cs : List Char) : Except UsageError Reading :=
  let name := String.ofList (cs.takeWhile (· != '='))
  let attached := match cs.dropWhile (· != '=') with
    | '=' :: value => some (String.ofList value)
    | _ => none
  match spec.options.find? (·.long = name) with
  | some o => r.option o attached
  | none => .error .unknownArgument

/-- An argument that is no option. -/
def place (spec : Spec) (arg : String) (r : Reading) : Except UsageError Reading := do
  if r.places.length < spec.places then
    let r ← r.settle
    .ok { r with places := r.places ++ [arg] }
  else if spec.subcommands.isEmpty then .error .unknownArgument
  else if r.trailing && spec.subcommands.contains arg then .error .unknownArgument
  else .error .invalidSubcommand

/-- One argument. -/
def next (spec : Spec) (arg : String) (r : Reading) : Except UsageError Reading :=
  if r.trailing then r.place spec arg
  else
    match arg.toList with
    | ['-', '-'] => .ok { r with trailing := true }
    | '-' :: '-' :: cs => r.long spec cs
    | '-' :: c :: cs => r.letters spec (c :: cs)
    | _ =>
        match r.pending with
        | some (o, none) => .ok { r with pending := some (o, some arg) }
        | _ => r.place spec arg

end Reading

/-- Reads arguments up to the end or to a subcommand. -/
def scan (spec : Spec) (r : Reading) : List String → Except UsageError (Reading × Rest)
  | [] => .ok (r, .none)
  | arg :: more =>
      if !r.trailing && !r.awaits && spec.subcommands.contains arg then
        .ok (r, .subcommand arg more)
      else do scan spec (← r.next spec arg) more

/-- What is there at the end of a command that has no subcommands. -/
def finish (spec : Spec) (r : Reading) : Except UsageError Arguments := do
  let r ← r.settle
  if r.places.length < spec.places then .error .missingRequiredArgument
  else .ok { values := r.values, places := r.places }

end Scriptlet.CommandLine
