import ScenarioAtlas.NodeId
import ScenarioAtlas.Text.Blank

/-!
# Groups of scenarios

The ways to sort scenarios into groups. Groups come in the order in which their first scenarios do,
and scenarios keep their order inside a group.
-/

namespace ScenarioAtlas

set_option autoImplicit false

/-- Scenarios that belong together under an identifier. -/
structure Group where
  id : String
  label : String
  description : String := ""
  scenarios : List Scenario
  deriving DecidableEq, Repr

inductive PlacementError where
  | invalidTag (scenario tag : String)
  | missingPath (scenario : String)
  deriving DecidableEq, Repr

def PlacementError.message : PlacementError → String
  | invalidTag scenario tag => "scenario '" ++ scenario ++ "' has invalid tag '" ++ tag ++ "'"
  | missingPath scenario => "scenario '" ++ scenario ++ "' has no file path"

namespace Group

def allLabel : String := "All Scenarios"

def untaggedLabel : String := "Untagged"

def regularLabel : String := "Regular Scenarios"

def outlineLabel : String := "Scenario Outlines"

def countText (scenarios : List Scenario) : String :=
  if scenarios.length = 1 then "1 scenario"
  else String.ofList (Text.writeNumber scenarios.length) ++ " scenarios"

def counted (id : NodeId) (label : String) (scenarios : List Scenario) : Group :=
  { id := id.text, label, description := countText scenarios, scenarios }

def flat (scenarios : List Scenario) : List Group := [counted .all allLabel scenarios]

/-- Whether a tag can name a group: an `@` with more behind it, and no blanks. -/
def isValidTag (tag : String) : Bool :=
  match tag.toList with
  | '@' :: body => !body.isEmpty && !body.any Text.isBlank
  | _ => false

/-- The first scenario and tag that no group can be made for. -/
def invalidTag? (scenarios : List Scenario) : Option (Scenario × String) :=
  scenarios.findSome? fun scenario =>
    (scenario.tags.find? (!isValidTag ·)).map fun tag => (scenario, tag)

def distinctTags (scenarios : List Scenario) : List String :=
  (scenarios.flatMap Scenario.tags).eraseDups

/-- A group for each tag, and at the end one for the scenarios without tags, if there are any. -/
def byTag (scenarios : List Scenario) : Except PlacementError (List Group) :=
  match invalidTag? scenarios with
  | some (scenario, tag) => .error (.invalidTag scenario.name tag)
  | none =>
    let tagged := (distinctTags scenarios).map fun tag =>
      counted (.tagGroup tag) tag (scenarios.filter fun scenario => tag ∈ scenario.tags)
    let untagged := scenarios.filter (·.tags.isEmpty)
    .ok (tagged ++ if untagged.isEmpty then [] else [counted .untagged untaggedLabel untagged])

def distinctPaths (scenarios : List Scenario) : List String :=
  (scenarios.map Scenario.path).eraseDups

def ofFile (scenarios : List Scenario) (path : String) : List Scenario :=
  scenarios.filter (·.path = path)

/-- A group for each file, with the identifier that `id` makes from its path and scenarios. -/
def byFileAs (id : String → List Scenario → NodeId) (scenarios : List Scenario) :
    Except PlacementError (List Group) :=
  match scenarios.find? fun scenario => Text.allBlank scenario.path.toList with
  | some scenario => .error (.missingPath scenario.name)
  | none =>
    .ok ((distinctPaths scenarios).map fun path =>
      let members := ofFile scenarios path
      { id := (id path members).text
        label := String.ofList (Path.fileName path.toList)
        description := path
        scenarios := members })

def byFile (scenarios : List Scenario) : Except PlacementError (List Group) :=
  byFileAs (fun path _ => .fileGroup path) scenarios

/-- A group for each file that stands for the feature in it; the header's line is taken from the
first scenario. -/
def byFeature (scenarios : List Scenario) : Except PlacementError (List Group) :=
  byFileAs (fun path members => .feature path (members.head?.bind Scenario.featureLine)) scenarios

def byKind (scenarios : List Scenario) : List Group :=
  [(ScenarioKind.regular, regularLabel), (ScenarioKind.outline, outlineLabel)].filterMap
    fun (kind, label) =>
      let members := scenarios.filter (·.kind = kind)
      if members.isEmpty then none else some (counted (.kindGroup kind) label members)

end Group

end ScenarioAtlas
