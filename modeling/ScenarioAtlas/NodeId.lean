import ScenarioAtlas.Scenario

/-!
# Identifiers of tree nodes

Every node of the test tree goes by a text that tells what it is. The forms are tried in a fixed
order: the words `all` and `untagged`, the openings `tag:`, `file:`, `kind:` and `:`, and then the
paths of feature files with line numbers behind them, the longest such form first.
-/

namespace ScenarioAtlas

set_option autoImplicit false

/-- What a node of the test tree stands for. -/
inductive NodeId where
  /-- A feature file, with the line of its header where it is known. -/
  | feature (path : String) (line : Option Nat)
  /-- An outline on a line of a feature file. -/
  | outline (path : String) (featureLine line : Nat)
  /-- The scenario on a line of the file that the node above stands for. -/
  | scenarioOn (line : Nat)
  | scenario (key : ResultKey)
  | tagGroup (tag : String)
  | untagged
  | fileGroup (path : String)
  | kindGroup (kind : ScenarioKind)
  | all
  deriving DecidableEq, Repr

namespace NodeId

def path? : NodeId → Option String
  | feature path _ | outline path _ _ | fileGroup path => some path
  | scenario key => some key.path
  | _ => none

def isGroup : NodeId → Bool
  | scenarioOn _ | scenario _ => false
  | _ => true

/-- A line number as the segment of an identifier. -/
def lineSegment (line : Nat) : String := String.ofList (':' :: Text.writeNumber line)

def text : NodeId → String
  | feature path none => path
  | feature path (some line) => path ++ lineSegment line
  | outline path featureLine line =>
    path ++ lineSegment featureLine ++ ":outline" ++ lineSegment line
  | scenarioOn line => lineSegment line
  | scenario key => key.text
  | tagGroup tag => "tag:" ++ tag
  | untagged => "untagged"
  | fileGroup path => "file:" ++ path
  | kindGroup kind => "kind:" ++ kind.text
  | all => "all"

/-- The path without the `.feature` at its end; there is no line feed in it. -/
def featureStem? (path : List Char) : Option (List Char) :=
  (Text.beforeEnd? ".feature".toList path).filter (!·.contains '\n')

/-- Whether a text is the path of a feature file that has a name. -/
def isFeaturePath (path : List Char) : Bool := (featureStem? path).any (!·.isEmpty)

/-- The two sides of the last colon, where digits follow it up to the end. -/
def cutLine? (s : List Char) : Option (List Char × List Char) :=
  (Text.cutLast? ':' s).filter fun (_, digits) => Text.isDigitRun digits

/-- The path and the two runs of digits of an outline's identifier. -/
def outlineParts? (s : List Char) : Option (List Char × List Char × List Char) := do
  let (front, line) ← cutLine? s
  let (path, featureLine) ← cutLine? (← Text.beforeEnd? ":outline".toList front)
  if isFeaturePath path then some (path, featureLine, line) else none

def scenarioParts? (s : List Char) : Option (List Char × List Char × List Char) := do
  let (front, line) ← cutLine? s
  let (path, featureLine) ← cutLine? front
  if isFeaturePath path then some (path, featureLine, line) else none

def featureParts? (s : List Char) : Option (List Char × Option (List Char)) :=
  if isFeaturePath s then some (s, none)
  else
    (cutLine? s).bind fun (path, line) =>
      if isFeaturePath path then some (path, some line) else none

def readPath (id : String) : Except IdError NodeId :=
  match outlineParts? id.toList, scenarioParts? id.toList, featureParts? id.toList with
  | some (path, featureLine, line), _, _ => do
    return outline (String.ofList path) (← readLine id featureLine) (← readLine id line)
  | none, some (path, featureLine, line), _ => do
    let featureLine ← readLine id featureLine
    return scenario (ResultKey.ofPath (String.ofList path) featureLine (← readLine id line))
  | none, none, some (path, none) => return feature (String.ofList path) none
  | none, none, some (path, some line) => do
    return feature (String.ofList path) (some (← readLine id line))
  | none, none, none => .error (.unrecognized id)

def read (id : String) : Except IdError NodeId :=
  match id.toList with
  | 't' :: 'a' :: 'g' :: ':' :: tag => return tagGroup (String.ofList tag)
  | 'f' :: 'i' :: 'l' :: 'e' :: ':' :: path => return fileGroup (String.ofList path)
  | 'k' :: 'i' :: 'n' :: 'd' :: ':' :: kind =>
    if kind = "regular".toList then return kindGroup .regular
    else if kind = "outline".toList then return kindGroup .outline
    else .error (.unrecognized id)
  | ':' :: line => do return scenarioOn (← readLine id line)
  | _ =>
    if id = "all" then return all
    else if id = "untagged" then return untagged
    else readPath id

end NodeId

end ScenarioAtlas
