import ScenarioAtlas.ResultKey

/-!
# Scenarios

A scenario is one thing to run: written out in its file, expanded from a row of examples, or
standing for an outline that has no such row.
-/

namespace ScenarioAtlas

set_option autoImplicit false

inductive ScenarioKind where
  | regular
  | outline
  deriving DecidableEq, Repr

def ScenarioKind.text : ScenarioKind → String
  | regular => "regular"
  | outline => "outline"

/-- One thing to run. -/
structure Scenario where
  name : String
  /-- The line in the file counted from zero, as editors do. -/
  editorLine : Nat
  /-- The line of the header or of the row of examples, counted from one. -/
  line : Nat
  outlineLine : Option Nat := none
  outlineName : Option String := none
  featureLine : Option Nat := none
  steps : List String := []
  tags : List String := []
  path : String
  /-- Whether the scenario stands for an outline that has no row of examples. -/
  standsForOutline : Bool := false
  deriving DecidableEq, Repr

namespace Scenario

def new (name path : String) (line : Nat) : Scenario :=
  { name, path, line, editorLine := line - 1 }

def exampleOf (scenario : Scenario) (outlineName : String) (outlineLine : Nat) : Scenario :=
  { scenario with
    outlineName := some outlineName
    outlineLine := some outlineLine
    standsForOutline := false }

/-- The scenario as what stands for the outline of its own name and line. -/
def asOutline (scenario : Scenario) : Scenario :=
  { scenario with
    outlineName := some scenario.name
    outlineLine := some scenario.line
    standsForOutline := true }

def isExample (scenario : Scenario) : Bool :=
  scenario.outlineLine.isSome && !scenario.standsForOutline

def kind (scenario : Scenario) : ScenarioKind :=
  if scenario.standsForOutline || scenario.outlineLine.isSome then .outline else .regular

def resultKey? (scenario : Scenario) : Option ResultKey :=
  scenario.featureLine.map fun featureLine =>
    ResultKey.ofPath scenario.path featureLine scenario.line

def fileName (scenario : Scenario) : String := String.ofList (Path.fileName scenario.path.toList)

end Scenario

/-- A feature file as read: its header and its scenarios in the order of their lines. -/
structure Feature where
  name : String
  scenarios : List Scenario := []
  path : String
  line : Option Nat := none
  tags : List String := []
  deriving DecidableEq, Repr

def Feature.scenarioAt? (feature : Feature) (line : Nat) : Option Scenario :=
  feature.scenarios.find? (·.line == line)

end ScenarioAtlas
