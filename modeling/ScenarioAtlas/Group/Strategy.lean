import ScenarioAtlas.Group

/-!
# Strategies

The named ways to group scenarios. A strategy that finds no place for some scenario gives way to one
group of all scenarios, so that none is lost.
-/

namespace ScenarioAtlas

set_option autoImplicit false

inductive Strategy where
  | tag
  | file
  | kind
  | flat
  | feature
  deriving DecidableEq, Repr

structure UnknownStrategy where
  text : String
  deriving DecidableEq, Repr

def UnknownStrategy.message (error : UnknownStrategy) : String :=
  "unknown organization strategy: '" ++ error.text ++ "'"

namespace Strategy

/-- Every strategy, in the order in which they are offered. -/
def every : List Strategy := [feature, tag, file, kind, flat]

/-- The strategy to start with. -/
def initial : Strategy := feature

def name : Strategy → String
  | tag => "tag"
  | file => "file"
  | kind => "type"
  | flat => "flat"
  | feature => "feature"

def label : Strategy → String
  | tag => "By Tag"
  | file => "By File"
  | kind => "By Scenario Type"
  | flat => "Flat"
  | feature => "By Feature"

def description : Strategy → String
  | tag => "Group scenarios by their tags"
  | file => "Group scenarios by feature file"
  | kind => "Separate regular scenarios from scenario outlines"
  | flat => "Show all scenarios in a single list"
  | feature => "Feature files with their scenarios, outlines and examples"

/-- Whether groups are shown as trees of files, outlines and examples. -/
def isHierarchical : Strategy → Bool
  | feature => true
  | _ => false

def names : Strategy → List String
  | tag => ["tag", "tags"]
  | file => ["file", "files"]
  | kind => ["type", "scenario-type", "scenario_type"]
  | flat => ["flat"]
  | feature => ["feature", "hierarchical"]

/-- Reads a strategy, in any case of its ASCII letters and with blanks around it. -/
def read (text : String) : Except UnknownStrategy Strategy :=
  let word := String.ofList ((Text.trim text.toList).map Char.toLower)
  match every.find? fun strategy => word ∈ strategy.names with
  | some strategy => .ok strategy
  | none => .error ⟨text⟩

/-- The groups under a strategy, unless some scenario has no place. -/
def place (strategy : Strategy) (scenarios : List Scenario) : Except PlacementError (List Group) :=
  match strategy with
  | tag => Group.byTag scenarios
  | file => Group.byFile scenarios
  | kind => .ok (Group.byKind scenarios)
  | flat => .ok (Group.flat scenarios)
  | feature => Group.byFeature scenarios

/-- The groups under a strategy, or one group of all scenarios if some scenario has no place. -/
def organize (strategy : Strategy) (scenarios : List Scenario) : List Group :=
  match strategy.place scenarios with
  | .ok groups => groups
  | .error _ => Group.flat scenarios

end Strategy

end ScenarioAtlas
