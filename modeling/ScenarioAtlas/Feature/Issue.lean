import ScenarioAtlas.Text.Digit

/-!
# Issues of a feature file

What a feature file has that cannot be used. An issue stops nothing: the reader passes over the
place and goes on.
-/

namespace ScenarioAtlas

set_option autoImplicit false

inductive IssueKind where
  /-- A row of examples whose last cell is open. -/
  | malformedRow
  /-- A row of examples with more or fewer cells than its header. -/
  | cellCountMismatch (expected found : Nat)
  /-- A header of examples with a column that has no name. -/
  | emptyHeaderCell
  /-- Examples that belong to no outline. -/
  | examplesWithoutOutline
  /-- A scenario or outline above the header of the feature. -/
  | scenarioBeforeFeature
  /-- A header of the feature below the first one. -/
  | duplicateFeature
  /-- A doc string that the file ends in. -/
  | unterminatedDocString
  deriving DecidableEq, Repr

/-- An issue with the line it is on. -/
structure Issue where
  line : Nat
  kind : IssueKind
  deriving DecidableEq, Repr

def IssueKind.description : IssueKind → String
  | malformedRow => "table row is missing its closing '|'"
  | cellCountMismatch expected found =>
    "expected " ++ String.ofList (Text.writeNumber expected) ++ " cells, found "
      ++ String.ofList (Text.writeNumber found)
  | emptyHeaderCell => "examples header has an empty column name"
  | examplesWithoutOutline => "examples block outside a scenario outline"
  | scenarioBeforeFeature => "scenario declared before the feature header"
  | duplicateFeature => "duplicate feature header"
  | unterminatedDocString => "doc string is never closed"

def Issue.message (issue : Issue) : String :=
  "line " ++ String.ofList (Text.writeNumber issue.line) ++ ": " ++ issue.kind.description

end ScenarioAtlas
