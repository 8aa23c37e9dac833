import ScenarioAtlas.Action
import ScenarioAtlas.Path
import ScenarioAtlas.Text.Digit
import ScenarioAtlas.Text.Search

/-!
# Runner invocations

Scenarios are run by a program of their own. An invocation names that program and its arguments as
they are; a command line writes them as one text, from which they can be told apart again.
-/

namespace ScenarioAtlas

set_option autoImplicit false

structure RunnerSettings where
  program : String := "behave"
  extraArguments : List String := []
  /-- The format of the report; the runner's own when there is none. -/
  format : Option String := none
  dryRun : Bool := false
  maxParallel : Nat := 4
  deriving DecidableEq, Repr

/-- The settings with a number of files that are run side by side, at least one. -/
def RunnerSettings.withMaxParallel (settings : RunnerSettings) (n : Nat) : RunnerSettings :=
  { settings with maxParallel := max 1 n }

/-- One process of the runner. -/
structure Invocation where
  program : String
  arguments : List String
  debug : Bool
  deriving DecidableEq, Repr

namespace Invocation

def defaultFormat : String := "pretty"

def commonArguments (settings : RunnerSettings) : List String :=
  (match settings.format with
    | some format => if format = defaultFormat then [] else ["--format", format]
    | none => [])
    ++ (if settings.dryRun then ["--dry-run"] else [])
    ++ settings.extraArguments

def patternCharacters : List Char := "\\.+*?()|[]\x7b\x7d^$#&-~".toList

/-- The pattern that matches a text itself and nothing else. -/
def escapePattern (s : List Char) : List Char :=
  s.flatMap fun c => if c ∈ patternCharacters then ['\\', c] else [c]

def pathOnLine (path : String) (line : Nat) : String :=
  path ++ String.ofList (':' :: Text.writeNumber line)

def pathFrom (root path : String) : String :=
  String.ofList (Path.relativeTo path.toList root.toList)

def selection (action : Action) (path : String) : List String :=
  match action.scope with
  | .feature => [path]
  | .scenario | .example =>
    match action.line with
    | some line => [pathOnLine path line]
    | none => [path]
  | .outline =>
    path :: match action.name with
      | some name => ["--name", String.ofList ('^' :: escapePattern name.toList)]
      | none => []
  | .tag =>
    path :: match action.tag with
      | some tag => ["--tags", tag]
      | none => []

def ofAction (settings : RunnerSettings) (root : String) (action : Action) : Invocation :=
  { program := settings.program
    arguments := selection action (pathFrom root action.path) ++ commonArguments settings
    debug := action.kind = .debug }

def ofFile (settings : RunnerSettings) (root path : String) : Invocation :=
  { program := settings.program
    arguments := pathFrom root path :: commonArguments settings
    debug := false }

def isPlain (c : Char) : Bool := c.isAlphanum || c ∈ "-_./:@=,+".toList

/-- A word between quotes: every backslash in it is doubled, and then a backslash goes before every
quote. -/
def quoteAlways (word : List Char) : List Char :=
  let doubled := Text.replaceAll ['\\'] ['\\', '\\'] word
  '"' :: Text.replaceAll ['"'] ['\\', '"'] doubled ++ ['"']

/-- A word as written in a command line; one that is empty or not plain goes between quotes. -/
def quote (word : List Char) : List Char :=
  if !word.isEmpty && word.all isPlain then word else quoteAlways word

def commandLine (invocation : Invocation) : String :=
  " ".intercalate ((invocation.program :: invocation.arguments).map fun word =>
    String.ofList (quote word.toList))

end Invocation

end ScenarioAtlas
