import ScenarioAtlas.Example.Shape
import ScenarioAtlas.Scenario

/-!
# Actions

What an editor offers to do at the places of a feature file: run the file, run or debug each
scenario, outline and example, and run each tag.
-/

namespace ScenarioAtlas

set_option autoImplicit false

inductive ActionKind where
  | run
  | debug
  deriving DecidableEq, Repr

/-- What an action is for. -/
inductive ActionScope where
  | feature
  | scenario
  | outline
  | example
  | tag
  deriving DecidableEq, Repr

/-- Something to run in a feature file. -/
structure Action where
  kind : ActionKind
  scope : ActionScope
  path : String
  line : Option Nat := none
  /-- The name of the feature, scenario, outline or example. -/
  name : Option String := none
  tag : Option String := none
  deriving DecidableEq, Repr

def ActionKind.verb : ActionKind → String
  | run => "Run"
  | debug => "Debug"

namespace Action

def title (action : Action) : String :=
  action.kind.verb ++ " " ++
    match action.scope with
    | .feature => "Feature"
    | .scenario => "Scenario"
    | .outline => "Outline"
    | .example => "Example"
    | .tag => action.tag.getD "Tag"

def pair (path : String) (scope : ActionScope) (line : Nat) (name : String) : List Action :=
  [ActionKind.run, ActionKind.debug].map fun kind =>
    { kind, scope, path, line := some line, name := some name }

/-- The name of the outline that an example belongs to. -/
def outlineNameOf (found : Scenario) : String :=
  found.outlineName.getD (ExampleName.outlineName found.name)

/-- The actions at the scenarios of a file; an outline has its own in front of those at its first
example, unless its line is among `seen`. -/
def ofScenarios (path : String) (seen : List Nat) : List Scenario → List Action
  | [] => []
  | scenario :: rest =>
    if scenario.standsForOutline then
      pair path .outline scenario.line scenario.name
        ++ ofScenarios path (scenario.line :: seen) rest
    else
      match scenario.outlineLine with
      | none =>
        pair path .scenario scenario.line scenario.name ++ ofScenarios path seen rest
      | some outlineLine =>
        let own := pair path .example scenario.line scenario.name
        if outlineLine ∈ seen then own ++ ofScenarios path seen rest
        else
          pair path .outline outlineLine (outlineNameOf scenario) ++ own
            ++ ofScenarios path (outlineLine :: seen) rest

def tagsOf (feature : Feature) : List String :=
  (feature.tags ++ feature.scenarios.flatMap Scenario.tags).eraseDups

/-- Every action in a feature file, in the order in which they are offered. -/
def ofFeature (feature : Feature) : List Action :=
  let whole : Action :=
    { kind := .run, scope := .feature, path := feature.path, line := feature.line,
      name := some feature.name }
  let tagged := (tagsOf feature).map fun tag =>
    ({ kind := .run, scope := .tag, path := feature.path, tag := some tag } : Action)
  whole :: ofScenarios feature.path [] feature.scenarios ++ tagged

end Action

end ScenarioAtlas
