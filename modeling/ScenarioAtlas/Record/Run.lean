import ScenarioAtlas.Record.Field
import ScenarioAtlas.Runner.Invocation
import ScenarioAtlas.Status.Report

/-!
# Records of runs

The JSON forms of actions, invocations, test trees and what came of a run.
-/

namespace ScenarioAtlas

set_option autoImplicit false

namespace ActionKind

def every : List ActionKind := [run, debug]

def text : ActionKind → String
  | run => "run"
  | debug => "debug"

def toJson (kind : ActionKind) : Json := .string kind.text

def ofJson? : Json → Option ActionKind := Json.toChoice? every text

end ActionKind

namespace ActionScope

def every : List ActionScope := [.feature, .scenario, .outline, .example, .tag]

def text : ActionScope → String
  | feature => "feature"
  | scenario => "scenario"
  | outline => "outline"
  | .example => "example"
  | tag => "tag"

def toJson (scope : ActionScope) : Json := .string scope.text

def ofJson? : Json → Option ActionScope := Json.toChoice? every text

end ActionScope

namespace Action

def members (action : Action) : List (String × Json) :=
  [("kind", action.kind.toJson), ("scope", action.scope.toJson), ("filePath", .string action.path)]
    ++ Json.memberIf "line" .ofNat action.line
    ++ Json.memberIf "name" .string action.name
    ++ Json.memberIf "tag" .string action.tag

def toJson (action : Action) : Json := .object action.members

def ofJson? (value : Json) : Option Action := do
  let fields ← value.fields? ["kind", "scope", "filePath", "line", "name", "tag"]
  return {
    kind := ← fields.required? "kind" ActionKind.ofJson?
    scope := ← fields.required? "scope" ActionScope.ofJson?
    path := ← fields.required? "filePath" Json.toString?
    line := ← fields.optional? "line" Json.toNat?
    name := ← fields.optional? "name" Json.toString?
    tag := ← fields.optional? "tag" Json.toString? }

end Action

namespace Invocation

def members (invocation : Invocation) : List (String × Json) :=
  [("program", .string invocation.program), ("args", .ofStrings invocation.arguments),
    ("debug", .bool invocation.debug)]

def toJson (invocation : Invocation) : Json := .object invocation.members

def ofJson? (value : Json) : Option Invocation := do
  let fields ← value.fields? ["program", "args", "debug"]
  return {
    program := ← fields.required? "program" Json.toString?
    arguments := ← fields.required? "args" Json.toStrings?
    debug := ← fields.required? "debug" Json.toBool? }

end Invocation

namespace Outcome

def every : List Outcome := [passed, failed]

def toJson (outcome : Outcome) : Json := .string outcome.text

def ofJson? : Json → Option Outcome := Json.toChoice? every text

end Outcome

namespace Status

def every : List Status := [passed, failed, skipped]

def toJson (status : Status) : Json := .string status.text

def ofJson? : Json → Option Status := Json.toChoice? every text

end Status

namespace Tree

mutual

def toJson : Tree → Json
  | ⟨id, label, description, path, line, tags, children⟩ =>
    .object <|
      [("id", .string id.text), ("label", .string label)]
      ++ (if description.isEmpty then [] else [("description", .string description)])
      ++ Json.memberIf "filePath" .string path
      ++ Json.memberIf "line" .ofNat line
      ++ (if tags.isEmpty then [] else [("tags", .ofStrings tags)])
      ++ (if children.isEmpty then [] else [("children", .array (toJsons children))])

def toJsons : List Tree → List Json
  | [] => []
  | tree :: rest => toJson tree :: toJsons rest

end

end Tree

namespace Report

mutual

def toJson : Report → Json
  | ⟨id, label, status, children⟩ =>
    .object <|
      [("id", .string id), ("label", .string label), ("status", status.toJson)]
      ++ (if children.isEmpty then [] else [("children", .array (toJsons children))])

def toJsons : List Report → List Json
  | [] => []
  | report :: rest => toJson report :: toJsons rest

end

end Report

end ScenarioAtlas
