import ScenarioAtlas.Example.Name
import ScenarioAtlas.Example.Placeholder
import ScenarioAtlas.Feature.Issue
import ScenarioAtlas.Scenario
import ScenarioAtlas.Source.Kind
import ScenarioAtlas.Source.Row

/-!
# Reading feature files

A feature file is read line by line into a draft: what is known of the feature so far, and the block
that is open. An outline yields one scenario for each usable row of its examples, at that row; a
scenario, and an outline without such a row, is added when its block ends. Inside a doc string every
line is passed over up to the one that closes it.
-/

namespace ScenarioAtlas

set_option autoImplicit false

structure FeatureHeader where
  name : String
  line : Nat
  tags : List String
  deriving DecidableEq, Repr

/-- A table of examples; it is rejected once its header turns out to have a nameless column. -/
structure Examples where
  tags : List String
  header : Option (List String) := none
  rejected : Bool := false
  deriving DecidableEq, Repr

/-- An outline, its current table of examples, and the rows used so far in all of its tables. -/
structure Outline where
  name : String
  line : Nat
  tags : List String
  steps : List String := []
  examples : Option Examples := none
  usedRows : Nat := 0
  deriving DecidableEq, Repr

/-- What the lines being read belong to. -/
inductive Block where
  | none
  | background
  | scenario (scenario : Scenario)
  | outline (outline : Outline)
  deriving DecidableEq, Repr

/-- What is known of a feature file after some of its lines. -/
structure Draft where
  header : Option FeatureHeader := none
  scenarios : List Scenario := []
  pendingTags : List String := []
  block : Block := .none
  /-- The fence of the open doc string and the line it is on. -/
  docString : Option (Fence × Nat) := none
  issues : List Issue := []
  deriving DecidableEq, Repr

namespace Draft

variable (naming : Naming) (path : String)

def report (draft : Draft) (line : Nat) (kind : IssueKind) : Draft :=
  { draft with issues := draft.issues ++ [⟨line, kind⟩] }

def dropTags (draft : Draft) : Draft := { draft with pendingTags := [] }

def addScenario (draft : Draft) (scenario : Scenario) : Draft :=
  { draft with scenarios := draft.scenarios ++ [scenario] }

def featureLine (draft : Draft) : Nat := (draft.header.map FeatureHeader.line).getD 0

/-- What stands for an outline without a usable row. -/
def standIn (outline : Outline) (featureLine : Nat) : Scenario :=
  { Scenario.new outline.name path outline.line with
    featureLine := some featureLine
    tags := outline.tags
    steps := outline.steps }.asOutline

def endBlock (draft : Draft) : Draft :=
  let ended := { draft with block := .none }
  match draft.block with
  | .scenario scenario => ended.addScenario scenario
  | .outline outline =>
    if outline.usedRows = 0 then ended.addScenario (standIn path outline draft.featureLine)
    else ended
  | .none | .background => ended

def startFeature (draft : Draft) (name : String) (line : Nat) : Draft :=
  if draft.header.isSome then (draft.report line .duplicateFeature).dropTags
  else
    let ended := draft.endBlock path
    { ended with header := some ⟨name, line, ended.pendingTags⟩, pendingTags := [] }

/-- Takes in the header of a scenario or outline: `opened` makes its block from the line of the
feature and the tags. -/
def startBlock (draft : Draft) (line : Nat) (opened : Nat → List String → Block) : Draft :=
  let ended := draft.endBlock path
  match ended.header with
  | none => ended.dropTags.report line .scenarioBeforeFeature
  | some header => { ended.dropTags with block := opened header.line ended.pendingTags }

def scenarioBlock (name : String) (line featureLine : Nat) (tags : List String) : Block :=
  .scenario { Scenario.new name path line with featureLine := some featureLine, tags }

def outlineBlock (name : String) (line : Nat) (_featureLine : Nat) (tags : List String) : Block :=
  .outline { name, line, tags }

def startExamples (draft : Draft) (line : Nat) : Draft :=
  match draft.block with
  | .outline outline =>
    let outline := { outline with examples := some { tags := draft.pendingTags } }
    { draft.dropTags with block := .outline outline }
  | _ => (draft.report line .examplesWithoutOutline).dropTags

def exampleOf (outline : Outline) (examples : Examples) (featureLine : Nat)
    (header cells : List String) (line : Nat) : Scenario :=
  let name := naming.exampleName (outline.usedRows + 1) outline.name header cells
  { Scenario.new name path line with
    featureLine := some featureLine
    tags := outline.tags ++ examples.tags
    steps := outline.steps.map fun step => Placeholder.substitute step header cells
    }.exampleOf outline.name outline.line

def readRow (draft : Draft) (outline : Outline) (examples : Examples) (row : List Char)
    (line : Nat) : Draft :=
  match (Row.split? row).map (·.map String.ofList), examples.header with
  | none, _ => draft.report line .malformedRow
  | some cells, none =>
    if "" ∈ cells then
      let examples := { examples with rejected := true }
      { draft.report line .emptyHeaderCell with
        block := .outline { outline with examples := some examples } }
    else
      let examples := { examples with header := some cells }
      { draft with block := .outline { outline with examples := some examples } }
  | some cells, some header =>
    if cells.length ≠ header.length then
      draft.report line (.cellCountMismatch header.length cells.length)
    else
      let found := exampleOf naming path outline examples draft.featureLine header cells line
      { draft.addScenario found with
        block := .outline { outline with usedRows := outline.usedRows + 1 } }

/-- Takes in a table row; a row outside of a usable table of examples is passed over. -/
def addRow (draft : Draft) (row : List Char) (line : Nat) : Draft :=
  match draft.block with
  | .outline outline =>
    match outline.examples with
    | some examples =>
      if examples.rejected then draft else draft.readRow naming path outline examples row line
    | none => draft
  | _ => draft

/-- Takes in a step; the steps of an outline are those above its first table of examples. -/
def addStep (draft : Draft) (step : String) : Draft :=
  match draft.block with
  | .scenario scenario =>
    { draft with block := .scenario { scenario with steps := scenario.steps ++ [step] } }
  | .outline outline =>
    if outline.examples.isNone then
      { draft with block := .outline { outline with steps := outline.steps ++ [step] } }
    else draft
  | _ => draft

def feedOpen (draft : Draft) (line : Line) : Draft :=
  match line.kind with
  | .blank | .other => draft.dropTags
  | .comment => draft
  | .tags tags => { draft with pendingTags := draft.pendingTags ++ tags }
  | .feature name => draft.startFeature path name line.number
  | .rule _ => (draft.endBlock path).dropTags
  | .background => { (draft.endBlock path).dropTags with block := .background }
  | .scenario name => draft.startBlock path line.number (scenarioBlock path name line.number)
  | .outline name => draft.startBlock path line.number (outlineBlock name line.number)
  | .examples _ => draft.startExamples line.number
  | .row => draft.addRow naming path line.trimmed line.number
  | .fence fence => { draft with docString := some (fence, line.number) }
  | .step => draft.dropTags.addStep (String.ofList line.trimmed)

def feed (draft : Draft) (line : Line) : Draft :=
  match draft.docString with
  | some (fence, _) =>
    if fence.text.isPrefixOf line.trimmed then { draft with docString := none } else draft
  | none => draft.feedOpen naming path line

def finish (draft : Draft) : Draft :=
  let ended := draft.endBlock path
  match ended.docString with
  | some (_, line) => ended.report line .unterminatedDocString
  | none => ended

def feature? (draft : Draft) : Option Feature :=
  draft.header.map fun header =>
    { name := header.name
      scenarios := draft.scenarios
      path
      line := some header.line
      tags := header.tags }

end Draft

/-- A feature file as read: the feature, if there is a header, and what was passed over. -/
structure Reading where
  feature : Option Feature
  issues : List Issue
  deriving DecidableEq, Repr

namespace Feature

def readLines (naming : Naming) (path : String) (lines : List Line) : Reading :=
  let draft := (lines.foldl (Draft.feed naming path) {}).finish path
  ⟨draft.feature? path, draft.issues⟩

def read (naming : Naming) (path text : String) : Reading :=
  readLines naming path (Line.scan text)

def ofText? (naming : Naming) (path text : String) : Option Feature :=
  (read naming path text).feature

def fileExtensions : List String := ["feature"]

def isFeatureFile (path : String) : Bool :=
  ((Path.extension? path.toList).map String.ofList).any (· ∈ fileExtensions)

end Feature

end ScenarioAtlas
