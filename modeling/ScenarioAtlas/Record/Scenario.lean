import ScenarioAtlas.Group
import ScenarioAtlas.Record.Field

/-!
# Records of scenarios, features and groups

The JSON forms of scenarios and of what holds and identifies them.
-/

namespace ScenarioAtlas

set_option autoImplicit false

namespace ScenarioKind

def every : List ScenarioKind := [regular, outline]

def toJson (kind : ScenarioKind) : Json := .string kind.text

def ofJson? : Json → Option ScenarioKind := Json.toChoice? every text

end ScenarioKind

namespace Scenario

def toJson (scenario : Scenario) : Json :=
  .object <|
    [("name", .string scenario.name),
      ("line", .ofNat scenario.editorLine),
      ("lineNumber", .ofNat scenario.line)]
    ++ Json.memberIf "outlineLineNumber" .ofNat scenario.outlineLine
    ++ Json.memberIf "outlineName" .string scenario.outlineName
    ++ Json.memberIf "featureLineNumber" .ofNat scenario.featureLine
    ++ [("steps", .ofStrings scenario.steps),
      ("tags", .ofStrings scenario.tags),
      ("filePath", .string scenario.path),
      ("isScenarioOutline", .bool scenario.standsForOutline)]

def ofJson? (value : Json) : Option Scenario := do
  let fields ← value.fields? ["name", "line", "lineNumber", "outlineLineNumber", "outlineName",
    "featureLineNumber", "steps", "tags", "filePath", "isScenarioOutline"]
  return {
    name := ← fields.required? "name" Json.toString?
    editorLine := ← fields.required? "line" Json.toNat?
    line := ← fields.required? "lineNumber" Json.toNat?
    outlineLine := ← fields.optional? "outlineLineNumber" Json.toNat?
    outlineName := ← fields.optional? "outlineName" Json.toString?
    featureLine := ← fields.optional? "featureLineNumber" Json.toNat?
    steps := ← fields.withDefault? "steps" Json.toStrings? []
    tags := ← fields.withDefault? "tags" Json.toStrings? []
    path := ← fields.required? "filePath" Json.toString?
    standsForOutline := ← fields.withDefault? "isScenarioOutline" Json.toBool? false }

end Scenario

namespace Feature

def toJson (feature : Feature) : Json :=
  .object <|
    [("feature", .string feature.name),
      ("scenarios", .array (feature.scenarios.map Scenario.toJson)),
      ("filePath", .string feature.path)]
    ++ Json.memberIf "featureLineNumber" .ofNat feature.line
    ++ [("tags", .ofStrings feature.tags)]

def ofJson? (value : Json) : Option Feature := do
  let fields ← value.fields? ["feature", "scenarios", "filePath", "featureLineNumber", "tags"]
  return {
    name := ← fields.required? "feature" Json.toString?
    scenarios := ← fields.required? "scenarios" (Json.toList? Scenario.ofJson?)
    path := ← fields.required? "filePath" Json.toString?
    line := ← fields.optional? "featureLineNumber" Json.toNat?
    tags := ← fields.withDefault? "tags" Json.toStrings? [] }

end Feature

namespace Group

def toJson (group : Group) : Json :=
  .object [("id", .string group.id), ("label", .string group.label),
    ("description", .string group.description),
    ("scenarios", .array (group.scenarios.map Scenario.toJson))]

def ofJson? (value : Json) : Option Group := do
  let fields ← value.fields? ["id", "label", "description", "scenarios"]
  return {
    id := ← fields.required? "id" Json.toString?
    label := ← fields.required? "label" Json.toString?
    description := ← fields.required? "description" Json.toString?
    scenarios := ← fields.required? "scenarios" (Json.toList? Scenario.ofJson?) }

end Group

namespace ResultKey

def toJson (key : ResultKey) : Json :=
  .object [("path", .string key.path), ("feature_line", .ofNat key.featureLine),
    ("scenario_line", .ofNat key.scenarioLine)]

def ofJson? (value : Json) : Option ResultKey := do
  let fields ← value.fields? ["path", "feature_line", "scenario_line"]
  return {
    path := ← fields.required? "path" Json.toString?
    featureLine := ← fields.required? "feature_line" Json.toNat?
    scenarioLine := ← fields.required? "scenario_line" Json.toNat? }

end ResultKey

namespace NodeId

def toJson : NodeId → Json
  | feature path line =>
    .object [("Feature", .object [("path", .string path), ("feature_line", .ofNat? line)])]
  | outline path featureLine line =>
    .object [("Outline", .object [("path", .string path), ("feature_line", .ofNat featureLine),
      ("line", .ofNat line)])]
  | scenarioOn line => .object [("ScenarioRef", .ofNat line)]
  | scenario key => .object [("Scenario", key.toJson)]
  | tagGroup tag => .object [("TagGroup", .string tag)]
  | untagged => .string "Untagged"
  | fileGroup path => .object [("FileGroup", .string path)]
  | kindGroup kind => .object [("KindGroup", kind.toJson)]
  | all => .string "All"

/-- Reads the fields of a node that has several; they go by their names only. -/
def ofMembers? (form : String) (members : List (String × Json)) : Option NodeId :=
  let fields : Fields := ⟨members⟩
  if form = "Feature" then do
    return feature (← fields.required? "path" Json.toString?)
      (← fields.optional? "feature_line" Json.toNat?)
  else if form = "Outline" then do
    return outline (← fields.required? "path" Json.toString?)
      (← fields.required? "feature_line" Json.toNat?) (← fields.required? "line" Json.toNat?)
  else none

def ofJson? : Json → Option NodeId
  | .string form =>
    if form = "All" then some all else if form = "Untagged" then some untagged else none
  | .object [(form, value)] =>
    match form, value with
    | "All", .null => some all
    | "Untagged", .null => some untagged
    | "ScenarioRef", value => value.toNat?.map scenarioOn
    | "Scenario", value => (ResultKey.ofJson? value).map scenario
    | "TagGroup", value => value.toString?.map tagGroup
    | "FileGroup", value => value.toString?.map fileGroup
    | "KindGroup", value => (ScenarioKind.ofJson? value).map kindGroup
    | form, .object members => ofMembers? form members
    | _, _ => none
  | _ => none

end NodeId

end ScenarioAtlas
