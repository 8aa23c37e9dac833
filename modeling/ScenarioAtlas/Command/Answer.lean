import ScenarioAtlas.Command.Arguments
import ScenarioAtlas.Command.Layout
import ScenarioAtlas.Json.Printer
import ScenarioAtlas.Json.Reader
import ScenarioAtlas.Record.Run
import ScenarioAtlas.Settings.File
import ScenarioAtlas.Workspace

/-!
# Answers of the program

What the program prints and how it ends, for its arguments and the disk that it runs on. The disk is
only read.
-/

namespace ScenarioAtlas.Command

set_option autoImplicit false

def versionText : String := "0.1.0"

/-- Why an order cannot be carried out. -/
inductive Failure where
  | settings (error : SettingsError)
  | notFeature (file : String)
  | unreadableResults (path : String)
  | malformedResults (path : String)
  deriving DecidableEq, Repr

def Failure.message : Failure → String
  | settings error => error.message
  | notFeature file => file ++ " is not a readable feature file"
  | unreadableResults path => "cannot read " ++ path
  | malformedResults path => path ++ " is not a JSON object of strings"

inductive Answer where
  | output (text : String)
  | failure (reason : Failure)
  | misuse (error : UsageError)
  deriving DecidableEq, Repr

namespace Answer

def exitCode : Answer → Nat
  | output _ => 0
  | failure _ => 1
  | misuse _ => 2

def text : Answer → String
  | output text => text
  | _ => ""

def errorLine? : Answer → Option String
  | failure reason =>
    some (String.ofList (("Error: " ++ reason.message).toList.takeWhile (· != '\n')))
  | _ => none

end Answer

def ofLines (lines : List String) : String := String.join (lines.map (· ++ "\n"))

/-- The settings to work with: from the file that is named, or from that of the workspace, and with
the root that is named. -/
def settingsFor (disk : Disk) (order : Order) : Except SettingsError Settings := do
  let settings ←
    match order.settingsFile with
    | some path => Settings.load disk path
    | none => Settings.discover disk (order.root.getD disk.workingPath)
  return { settings with root := order.root.getD settings.root }

/-- The results in a JSON text: an object of strings, every one that is written. Of those with one
key the last counts, also if it names no outcome. -/
def readResults? (text : String) : Option (Results Outcome) := do
  let members ← Json.readMembersOf? text
  let texts ← members.mapM fun (key, value) => (Json.toString? value).map (key, ·)
  return (Results.ofTexts (Json.lastMembers texts)).1

def openWorkspace (disk : Disk) (settings : Settings) (strategy : Option Strategy) : Workspace :=
  let workspace : Workspace := { settings, strategy := strategy.getD settings.strategy }
  (workspace.refresh (.ofDisk settings disk) 0 false).1

def listText (workspace : Workspace) (json : Bool) : String :=
  if json then Json.pretty (.array (Tree.toJsons workspace.trees)) ++ "\n"
  else
    ofLines
      (("Strategy: " ++ workspace.strategy.label ++ " (" ++ workspace.strategy.description ++ ")")
        :: Tree.linesOfAll 0 workspace.trees)

def actionsText (actions : List (Action × Invocation)) (json : Bool) : String :=
  if json then
    Json.pretty (.array (actions.map fun (action, invocation) =>
      .array [action.toJson, invocation.toJson])) ++ "\n"
  else ofLines (actions.map fun (action, invocation) => invocation.line action)

def statusText (reports : List Report) (json : Bool) : String :=
  if json then Json.pretty (.array (Report.toJsons reports)) ++ "\n"
  else ofLines (Report.linesOfAll 0 reports)

def pathFrom (root file : String) : String :=
  if Path.isAbsolute file.toList then file
  else String.ofList (Path.join root.toList file.toList)

def carryOut (disk : Disk) (order : Order) : Except Failure String := do
  let settings ← (settingsFor disk order).mapError .settings
  match order.task with
  | .list strategy => return listText (openWorkspace disk settings strategy) order.json
  | .actions file =>
    let workspace : Workspace := { settings }
    let found := workspace.invocations (.ofDisk settings disk) (pathFrom settings.root file)
    if found.isEmpty then .error (.notFeature file)
    else return actionsText found order.json
  | .status path strategy =>
    match disk.readText path with
    | .error _ => .error (.unreadableResults path)
    | .ok text =>
      match readResults? text with
      | none => .error (.malformedResults path)
      | some results =>
        return statusText ((openWorkspace disk settings strategy).reports results) order.json

def helpText : String :=
  ofLines
    ["fx [--root FOLDER] [--config FILE] [--json] TASK",
      "  list [--strategy NAME]                    the scenarios in groups",
      "  actions FILE                              what can be run in a feature file",
      "  status --results FILE [--strategy NAME]   the outcomes in the test tree"]

def answer (disk : Disk) (arguments : List String) : Answer :=
  match Order.read arguments with
  | .error .version => .output (ofLines ["fx " ++ versionText])
  | .error .help => .output helpText
  | .error (.misuse error) => .misuse error
  | .ok order =>
    match carryOut disk order with
    | .ok text => .output text
    | .error reason => .failure reason

end ScenarioAtlas.Command
