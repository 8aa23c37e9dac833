import ScenarioAtlas.Group.Strategy

/-!
# The test tree

Groups as trees. A group is a root over its scenarios; under the strategy by feature the root is the
file, and the examples of an outline stand below a node of their own.
-/

namespace ScenarioAtlas

set_option autoImplicit false

/-- A node of the test tree; one without children is a leaf. -/
structure Tree where
  id : NodeId
  label : String
  description : String := ""
  path : Option String := none
  line : Option Nat := none
  tags : List String := []
  children : List Tree := []

namespace Tree

def leaf (id : NodeId) (scenario : Scenario) : Tree :=
  { id
    label := scenario.name
    path := some scenario.path
    line := some scenario.line
    tags := scenario.tags }

def isLeaf (tree : Tree) : Bool := tree.children.isEmpty

mutual

def leafCount : Tree → Nat
  | ⟨_, _, _, _, _, _, children⟩ => if children.isEmpty then 1 else leafCounts children

def leafCounts : List Tree → Nat
  | [] => 0
  | tree :: rest => leafCount tree + leafCounts rest

end

mutual

/-- The first node with an identifier, where a node comes before those below it. -/
def find? (id : NodeId) : Tree → Option Tree
  | ⟨own, label, description, path, line, tags, children⟩ =>
    if own = id then some ⟨own, label, description, path, line, tags, children⟩
    else findAny? id children

def findAny? (id : NodeId) : List Tree → Option Tree
  | [] => none
  | tree :: rest => (find? id tree).or (findAny? id rest)

end

/-- A place below the root of a file. -/
inductive Slot where
  | scenario (line : Nat)
  | outline (line : Nat)
  deriving DecidableEq, Repr

/-- Puts what `fill` makes of the tree in a slot there; a new slot comes last. -/
def fillSlot (slot : Slot) (fill : Option Tree → Tree) :
    List (Slot × Tree) → List (Slot × Tree)
  | [] => [(slot, fill none)]
  | (other, tree) :: rest =>
    if other = slot then (other, fill (some tree)) :: rest
    else (other, tree) :: fillSlot slot fill rest

/-- The node of the outline of an example, still without children. -/
def outlineNode (found : Scenario) (outlineLine : Nat) : Tree :=
  { id := .outline found.path (found.featureLine.getD 0) outlineLine
    label := found.outlineName.getD found.name
    path := some found.path
    line := some outlineLine }

/-- Adds a scenario below the root of its file: an example under its outline, any other at a place
of its own. -/
def addScenario (slots : List (Slot × Tree)) (scenario : Scenario) : List (Slot × Tree) :=
  let own := leaf (.scenarioOn scenario.line) scenario
  match scenario.outlineLine, scenario.isExample with
  | some outlineLine, true =>
    fillSlot (.outline outlineLine) (fun tree =>
      let outline := tree.getD (outlineNode scenario outlineLine)
      { outline with children := outline.children ++ [own] }) slots
  | _, _ => fillSlot (.scenario scenario.line) (fun _ => own) slots

/-- The tree of a file; there is none for a group without scenarios. -/
def ofFeatureGroup? (group : Group) : Option Tree :=
  group.scenarios.head?.map fun first =>
    { id := .feature first.path first.featureLine
      label := group.label
      description := group.description
      path := some first.path
      line := first.featureLine
      children := (group.scenarios.foldl addScenario []).map Prod.snd }

def scenarioId (scenario : Scenario) : NodeId :=
  match scenario.resultKey? with
  | some key => .scenario key
  | none => .scenarioOn scenario.line

/-- The tree of a group over its scenarios; there is none for a group whose identifier cannot be
read. -/
def ofGroup? (group : Group) : Option Tree :=
  match NodeId.read group.id with
  | .ok id =>
    some
      { id
        label := group.label
        description := group.description
        children := group.scenarios.map fun scenario => leaf (scenarioId scenario) scenario }
  | .error _ => none

/-- The trees of the groups under a strategy. The group of all scenarios never stands for a file. -/
def ofGroups (strategy : Strategy) (groups : List Group) : List Tree :=
  groups.filterMap fun group =>
    if strategy.isHierarchical ∧ group.id ≠ NodeId.all.text then ofFeatureGroup? group
    else ofGroup? group

def ofScenarios (strategy : Strategy) (scenarios : List Scenario) : List Tree :=
  ofGroups strategy (strategy.organize scenarios)

end Tree

end ScenarioAtlas
