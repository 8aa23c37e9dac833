import ScenarioAtlas.Path
import ScenarioAtlas.Text.Digit

/-!
# Result keys

A run reports an outcome under the key `path:featureLine:scenarioLine`, where the path is relative
to the workspace and written with `/`. A key is read from its end, so its path may hold colons.
-/

namespace ScenarioAtlas

set_option autoImplicit false

inductive IdError where
  | unrecognized (id : String)
  /-- A segment stands where a line number has to be. -/
  | invalidLine (segment id : String)
  deriving DecidableEq, Repr

def IdError.message : IdError → String
  | unrecognized id => "unrecognized identifier: '" ++ id ++ "'"
  | invalidLine segment id => "invalid line '" ++ segment ++ "' in identifier '" ++ id ++ "'"

def readLine (id : String) (segment : List Char) : Except IdError Nat :=
  match Text.readNumber? segment with
  | some line => .ok line
  | none => .error (.invalidLine (String.ofList segment) id)

/-- The key that the outcome of a scenario is reported under. -/
structure ResultKey where
  path : String
  featureLine : Nat
  scenarioLine : Nat
  deriving DecidableEq, Repr

namespace ResultKey

def ofPath (path : String) (featureLine scenarioLine : Nat) : ResultKey :=
  ⟨String.ofList (Path.normalize path.toList), featureLine, scenarioLine⟩

def text (key : ResultKey) : String :=
  key.path ++ String.ofList (':' :: Text.writeNumber key.featureLine)
    ++ String.ofList (':' :: Text.writeNumber key.scenarioLine)

/-- Reads a key: a path that is not empty, and two line numbers behind it. -/
def read (id : String) : Except IdError ResultKey :=
  match Text.cutLast? ':' id.toList with
  | none => .error (.unrecognized id)
  | some (front, scenario) =>
    match Text.cutLast? ':' front with
    | none | some ([], _) => .error (.unrecognized id)
    | some (path, feature) => do
      let featureLine ← readLine id feature
      let scenarioLine ← readLine id scenario
      return ofPath (String.ofList path) featureLine scenarioLine

def le (a b : ResultKey) : Bool :=
  ((compare a.path b.path).then
    ((compare a.featureLine b.featureLine).then
      (compare a.scenarioLine b.scenarioLine))).isLE

end ResultKey

end ScenarioAtlas
