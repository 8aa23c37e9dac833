import ScenarioAtlas.Group.Strategy

/-!
# Command-line arguments

What the arguments of the program ask for. They are read from left to right, and the first thing
that is wrong, or asks for the version or for help, decides. Some options go before the task as well
as behind it, and behind it they count more.
-/

namespace ScenarioAtlas.Command

set_option autoImplicit false

inductive Task where
  | list (strategy : Option Strategy)
  | actions (file : String)
  | status (results : String) (strategy : Option Strategy)
  deriving DecidableEq, Repr

/-- A task and where and how it is done. -/
structure Order where
  root : Option String
  settingsFile : Option String
  json : Bool
  task : Task
  deriving DecidableEq, Repr

inductive OptionName where
  | root
  | config
  | json
  | strategy
  | results
  deriving DecidableEq, Repr

def OptionName.text : OptionName → String
  | root => "root"
  | config => "config"
  | json => "json"
  | strategy => "strategy"
  | results => "results"

def OptionName.takesValue : OptionName → Bool
  | json => false
  | _ => true

inductive UsageError where
  | unknownOption (text : String)
  | unknownTask (text : String)
  | unexpectedArgument (text : String)
  | unexpectedValue (option : OptionName)
  | missingValue (option : OptionName)
  | emptyValue (option : OptionName)
  | repeatedOption (option : OptionName)
  | unknownStrategy (error : UnknownStrategy)
  | missingTask
  | missingFile
  | missingResults
  deriving DecidableEq, Repr

def UsageError.message : UsageError → String
  | unknownOption text => "unknown option '" ++ text ++ "'"
  | unknownTask text => "unknown task '" ++ text ++ "'"
  | unexpectedArgument text => "unexpected argument '" ++ text ++ "'"
  | unexpectedValue option => "option '--" ++ option.text ++ "' takes no value"
  | missingValue option => "option '--" ++ option.text ++ "' needs a value"
  | emptyValue option => "the value of option '--" ++ option.text ++ "' is empty"
  | repeatedOption option => "option '--" ++ option.text ++ "' is given twice"
  | unknownStrategy error => error.message
  | missingTask => "a task is missing: list, actions or status"
  | missingFile => "a feature file is missing"
  | missingResults => "option '--results' is missing"

inductive Stop where
  | version
  | help
  | misuse (error : UsageError)
  deriving DecidableEq, Repr

inductive Argument where
  | word (text : String)
  /-- Two dashes alone: whatever follows is a word. -/
  | endOfOptions
  | option (name : String) (value : Option String)
  | letters (text : List Char)
  deriving DecidableEq, Repr

def Argument.read (text : String) : Argument :=
  match text.toList with
  | ['-', '-'] => .endOfOptions
  | '-' :: '-' :: rest =>
    match Text.cutFirst? '=' rest with
    | some (name, value) => .option (String.ofList name) (some (String.ofList value))
    | none => .option (String.ofList rest) none
  | '-' :: c :: rest => .letters (c :: rest)
  | _ => .word text

/-- Where in the arguments an argument stands: before the task, or behind a certain one. -/
inductive Place where
  | program
  | list
  | actions
  | status
  deriving DecidableEq, Repr

namespace Place

def options : Place → List OptionName
  | program | actions => [.root, .config, .json]
  | list => [.root, .config, .json, .strategy]
  | status => [.root, .config, .json, .results, .strategy]

def maxWords : Place → Nat
  | actions => 1
  | _ => 0

def ofTask? (name : String) : Option Place :=
  if name = "list" then some list
  else if name = "actions" then some actions
  else if name = "status" then some status
  else none

end Place

/-- The options with their values, and the words, at one place. -/
structure Given where
  values : List (OptionName × String) := []
  words : List String := []
  deriving DecidableEq, Repr

namespace Given

def fault? (option : OptionName) (value : String) : Option UsageError :=
  match option with
  | .json => none
  | .strategy =>
    match Strategy.read value with
    | .ok _ => none
    | .error error => some (.unknownStrategy error)
  | .root | .config | .results => if value = "" then some (.emptyValue option) else none

def addValue (given : Given) (option : OptionName) (value : String) : Except Stop Given :=
  match fault? option value with
  | some error => .error (.misuse error)
  | none =>
    if (given.values.lookup option).isSome then .error (.misuse (.repeatedOption option))
    else .ok { given with values := (option, value) :: given.values }

def addWord (given : Given) (place : Place) (text : String) : Except Stop Given :=
  if given.words.length < place.maxWords then
    .ok { given with words := given.words ++ [text] }
  else .error (.misuse (.unexpectedArgument text))

def strategy? (given : Given) : Option Strategy :=
  (given.values.lookup .strategy).bind fun text => (Strategy.read text).toOption

end Given

def stopAt (place : Place) (name : String) (value : Option String) : Stop :=
  if value.isNone ∧ name = "help" then .help
  else if value.isNone ∧ name = "version" ∧ place = .program then .version
  else .misuse (.unknownOption ("--" ++ name))

/-- What letters behind a dash ask for; the first of them decides. -/
def stopAtLetters (place : Place) (letters : List Char) : Stop :=
  if letters.head? = some 'h' then .help
  else if letters.head? = some 'V' ∧ place = .program then .version
  else .misuse (.unknownOption (String.ofList ('-' :: letters)))

/-- Reads the arguments at a place. Before the task they end at the first word, which is left with
all that follows it. -/
def readPlace (place : Place) (given : Given) : List String → Except Stop (Given × List String)
  | [] => .ok (given, [])
  | argument :: rest =>
    match Argument.read argument with
    | .word text =>
      if place = .program then .ok (given, text :: rest)
      else do readPlace place (← given.addWord place text) rest
    | .endOfOptions => do return (← rest.foldlM (·.addWord place) given, [])
    | .letters letters => .error (stopAtLetters place letters)
    | .option name value =>
      match place.options.find? (·.text = name), value with
      | none, value => .error (stopAt place name value)
      | some option, some value =>
        if option.takesValue then do readPlace place (← given.addValue option value) rest
        else .error (.misuse (.unexpectedValue option))
      | some option, none =>
        if option.takesValue then
          match rest with
          | [] => .error (.misuse (.missingValue option))
          | value :: rest =>
            match Argument.read value with
            | .word value => do readPlace place (← given.addValue option value) rest
            | _ => .error (.misuse (.missingValue option))
        else do readPlace place (← given.addValue option "") rest

def Place.task (place : Place) (given : Given) : Except UsageError Task :=
  match place with
  | .program => .error .missingTask
  | .list => .ok (.list given.strategy?)
  | .actions =>
    match given.words.head? with
    | some file => .ok (.actions file)
    | none => .error .missingFile
  | .status =>
    match given.values.lookup .results with
    | some path => .ok (.status path given.strategy?)
    | none => .error .missingResults

/-- What the words behind `help` ask for: help, if they name one task or none. -/
def stopAtHelp : List String → Stop
  | [] => .help
  | name :: rest =>
    if (Place.ofTask? name).isNone ∧ name ≠ "help" then .misuse (.unknownTask name)
    else
      match rest with
      | [] => .help
      | name :: _ => .misuse (.unknownTask name)

def Order.read (arguments : List String) : Except Stop Order := do
  let (outer, rest) ← readPlace .program {} arguments
  match rest with
  | [] => .error (.misuse .missingTask)
  | name :: rest =>
    if name = "help" then .error (stopAtHelp rest)
    else
      match Place.ofTask? name with
      | none => .error (.misuse (.unknownTask name))
      | some place =>
        let (inner, _) ← readPlace place {} rest
        let found (option : OptionName) :=
          (inner.values.lookup option).or (outer.values.lookup option)
        let task ← (place.task inner).mapError .misuse
        return {
          root := found .root
          settingsFile := found .config
          json := (found .json).isSome
          task }

end ScenarioAtlas.Command
