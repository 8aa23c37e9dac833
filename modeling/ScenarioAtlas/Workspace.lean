import ScenarioAtlas.Feature.Draft
import ScenarioAtlas.Listing.Walk
import ScenarioAtlas.Runner.Plan
import ScenarioAtlas.Settings
import ScenarioAtlas.Status.Report

/-!
# Workspaces

A workspace holds its settings, the cache of listings, the strategy in use and the features of the
last refresh. The files themselves are outside of it: a refresh sees them through a source, and what
it finds depends on the time only as far as the cache does.
-/

namespace ScenarioAtlas

set_option autoImplicit false

/-- The files as a workspace sees them: those that a pattern lists, and the text of each one that
can be read. -/
structure FileSource where
  list : String → Except ListingError (List String)
  read? : String → Option String

def FileSource.ofDisk (settings : Settings) (disk : Disk) : FileSource where
  list := Listing.list { followLinks := settings.followLinks } disk settings.root
  read? path := (disk.readText path).toOption

structure Workspace where
  settings : Settings
  strategy : Strategy := settings.strategy
  cache : Cache := {}
  /-- The features of the last refresh. -/
  features : List Feature := []
  deriving DecidableEq, Repr

/-- What a refresh has found, in numbers. A skipped file is one that cannot be read or has no header
of a feature. -/
structure RefreshSummary where
  files : Nat
  features : Nat
  scenarios : Nat
  skipped : Nat
  deriving DecidableEq, Repr

namespace Workspace

variable (workspace : Workspace) (source : FileSource)

def load? (path : String) : Option Feature := do
  Feature.ofText? workspace.settings.naming path (← source.read? path)

/-- Takes up the features in a list of files, in its order. -/
def takeUp (files : List String) : Workspace × RefreshSummary :=
  let features := files.filterMap (workspace.load? source)
  ({ workspace with features },
    { files := files.length
      features := features.length
      scenarios := (features.flatMap Feature.scenarios).length
      skipped := files.length - features.length })

/-- Lists the feature files at the time `now`, anew if `force` is set, and reads each of them. -/
def refresh (now : Nat) (force : Bool) : Workspace × RefreshSummary :=
  let (cache, files) :=
    workspace.cache.discover workspace.settings.cache now
      { pattern := workspace.settings.featureGlob, force } source.list
  { workspace with cache }.takeUp source files

/-- Drops the listings that a file at `path` may be in; tells how many there were. -/
def fileChanged (path : String) : Workspace × Nat :=
  let (cache, dropped) := workspace.cache.invalidateMatching path
  ({ workspace with cache }, dropped)

/-- A path without the `./` that it starts with, however often. -/
def dropHere : List Char → List Char
  | '.' :: '/' :: rest => dropHere rest
  | path => path

def pathFromRoot (path : String) : List Char :=
  if Path.isAbsolute path.toList then Path.relativeTo path.toList workspace.settings.root.toList
  else Path.normalize (dropHere path.toList)

/-- The feature of the last refresh that a path leads to, from the root or from anywhere. -/
def feature? (path : String) : Option Feature :=
  workspace.features.find? fun feature =>
    workspace.pathFromRoot feature.path = workspace.pathFromRoot path

def scenarios : List Scenario := workspace.features.flatMap Feature.scenarios

def groups : List Group := workspace.strategy.organize workspace.scenarios

def trees : List Tree := Tree.ofScenarios workspace.strategy workspace.scenarios

/-- The actions in the file at a path, which is read if the last refresh has not found it; there are
none in a file that is no feature. -/
def actions (path : String) : List Action :=
  match (workspace.feature? path).or (workspace.load? source path) with
  | some feature => Action.ofFeature feature
  | none => []

def invocations (path : String) : List (Action × Invocation) :=
  (workspace.actions source path).map fun action =>
    (action, Invocation.ofAction workspace.settings.runner workspace.settings.root action)

def plan : List (List Invocation) :=
  Plan.ofFiles workspace.settings.runner workspace.settings.root
    (workspace.features.map Feature.path)

/-- The outcome for the node `child` below the node `parent`. -/
def outcome? (results : Results Outcome) (child parent : String) : Option Outcome :=
  results.reconcile child parent workspace.settings.root

def reports (results : Results Outcome) : List Report :=
  Report.ofRoots results workspace.settings.root workspace.trees

end Workspace

end ScenarioAtlas
