import Scriptlet.Text.Ascii
import Scriptlet.Text.Ranges

/-!
Files of environment variables. A line sets one variable, `NAME=value`, and does not replace one
that is set already. Values may be quoted; between quotes a value goes on over line breaks.
Between apostrophes a value stands for itself; everywhere else `\` escapes the next character and
`$NAME` and `${NAME}` stand for a variable. The first line that is none of this ends the reading,
and what was set before it stays.
-/

namespace Scriptlet.Dotenv

abbrev Environment := List (String × String)

/-! ### Lines -/

/-- Where a scan for the end of a line is. `blank` is right behind white space, where a comment
may start. -/
inductive Spot where
  | plain | blank | escape | weak | weakEscape | strong | strongEscape
  deriving DecidableEq

def Spot.enter (c : Char) : Spot :=
  if c == '\\' then .escape
  else if c == '"' then .weak
  else if c == '\'' then .strong
  else .plain

def Spot.next (c : Char) : Spot → Spot
  | .plain => if Text.isBlank c && c != '\n' && c != '\r' then .blank else Spot.enter c
  | .blank => Spot.enter c
  | .escape => .plain
  | .weak => if c == '\\' then .weakEscape else if c == '"' then .plain else .weak
  | .weakEscape => .weak
  | .strong => if c == '\\' then .strongEscape else if c == '\'' then .plain else .strong
  | .strongEscape => .strong

/-- The text behind the next line break. -/
def behindLine (cs : List Char) : List Char :=
  (cs.dropWhile (· != '\n')).drop 1

/-- A line without its comment and its line break, and the text behind it. Quotes that are open at
the end of the text leave none. `seen` is the line so far, in reverse. -/
def line? (spot : Spot) (seen : List Char) : List Char → Option (List Char × List Char)
  | [] => if spot = .plain then some (seen.reverse, []) else none
  | c :: rest =>
      if spot = .blank && c == '#' then some (seen.reverse, behindLine rest)
      else
        let spot := spot.next c
        if c == '\n' && spot = .plain then
          match seen with
          | '\r' :: seen => some (seen.reverse, rest)
          | seen => some (seen.reverse, rest)
        else line? spot (c :: seen) rest

/-! ### Values -/

/-- What is being read of a variable's name. -/
inductive Reference where
  | none
  | open
  | braced
  deriving DecidableEq

/-- The state of reading a value. -/
structure Reading where
  strong : Bool := false
  weak : Bool := false
  escaped : Bool := false
  ending : Bool := false
  reference : Reference := .none
  name : List Char := []
  text : List Char := []

/-- Replaces the name that was read by its value; a variable that is not set is empty. -/
def Reading.resolve (look : String → Option String) (r : Reading) : Reading :=
  { r with
    reference := .none
    name := []
    text := r.text ++ ((look (String.ofList r.name)).getD "").toList }

def Reading.push (c : Char) (r : Reading) : Reading :=
  { r with text := r.text ++ [c] }

def isWordChar (c : Char) : Bool :=
  Text.isLetter c || Text.isDigit c

/-- One character of a value outside a reference, an escape and apostrophes. -/
def Reading.plain (c : Char) (r : Reading) : Reading :=
  if c == '$' then { r with reference := .open }
  else if c == '\\' then { r with escaped := true }
  else if c == '"' then { r with weak := !r.weak }
  else if r.weak then r.push c
  else if c == '\'' then { r with strong := true }
  else if c == ' ' || c == '\t' then { r with ending := true }
  else r.push c

/-- One character of a reference to a variable. -/
def Reading.refer (look : String → Option String) (c : Char) (r : Reading) : Reading :=
  if isWordChar c then { r with name := r.name ++ [c] }
  else if r.reference = .braced then
    if c == '}' then r.resolve look else { r with name := r.name ++ [c] }
  else if c == '{' && r.name.isEmpty then { r with reference := .braced }
  else
    let r := r.resolve look
    if c == '$' then { r with reference := .open } else r.push c

/-- One character behind a backslash. -/
def Reading.unescape? (c : Char) (r : Reading) : Option Reading :=
  if c == 'n' then some { r.push '\n' with escaped := false }
  else if c == '\\' || c == '\'' || c == '"' || c == '$' || c == ' ' then
    some { r.push c with escaped := false }
  else none

/-- The value of a text; behind a blank only more blanks and a comment may follow. -/
def value? (look : String → Option String) (r : Reading) : List Char → Option String
  | [] =>
      if r.reference = .braced || r.strong || r.weak then none
      else some (String.ofList (r.resolve look).text)
  | c :: rest =>
      if r.ending then
        if c == ' ' || c == '\t' then value? look r rest
        else if c == '#' then value? look r []
        else none
      else if r.escaped then
        match r.unescape? c with
        | some r => value? look r rest
        | none => none
      else if r.strong then
        if c == '\'' then value? look { r with strong := false } rest
        else value? look (r.push c) rest
      else if r.reference ≠ .none then value? look (r.refer look c) rest
      else value? look (r.plain c) rest

/-! ### Variables -/

def name? (cs : List Char) : Option (String × List Char) :=
  let isPart (c : Char) := isWordChar c || c == '_' || c == '.'
  match cs with
  | c :: _ =>
      if Text.isLetter c || c == '_' then
        some (String.ofList (cs.takeWhile isPart), cs.dropWhile isPart)
      else none
  | [] => none

/-- The name that a line sets and the text of its value. The word `export` may stand in front. -/
def assignment? (cs : List Char) : Option (String × List Char) := do
  let (name, rest) ← name? cs
  match Text.trimStart rest with
  | '=' :: rest => some (name, Text.trimStart rest)
  | rest =>
      if name = "export" then
        let (name, rest) ← name? rest
        match Text.trimStart rest with
        | '=' :: rest => some (name, Text.trimStart rest)
        | _ => none
      else none

/-- The variables that a text adds to an environment; `given` holds what the lines have set so
far, whether it took effect or not. -/
def extendFrom : Nat → Environment → Environment → List Char → Environment
  | 0, environment, _, _ => environment
  | _, environment, _, [] => environment
  | fuel + 1, environment, given, cs =>
      match Text.trimStart (cs.takeWhile (· != '\n')) with
      | '#' :: _ => extendFrom fuel environment given (behindLine cs)
      | _ =>
          match line? .plain [] cs with
          | none => environment
          | some (line, rest) =>
              match Text.trimStart (Text.trimEnd line) with
              | [] | '#' :: _ => extendFrom fuel environment given rest
              | cs =>
                  let look (name : String) := environment.lookup name <|> given.lookup name
                  let value (cs : List Char) := match cs with
                    | [] | '#' :: _ => some ""
                    | cs => value? look {} cs
                  match assignment? cs with
                  | none => environment
                  | some (name, text) =>
                      match value text with
                      | none => environment
                      | some v =>
                          let added := if (environment.lookup name).isSome then [] else [(name, v)]
                          extendFrom fuel (environment ++ added) ((name, v) :: given) rest

/-- An environment with the variables of a text; a byte order mark in front does not count. -/
def extend (environment : Environment) (text : String) : Environment :=
  let cs := match text.toList with
    | '\ufeff' :: rest => rest
    | cs => cs
  extendFrom (cs.length + 1) environment [] cs

end Scriptlet.Dotenv
