import ScenarioAtlas.NodeId
import ScenarioAtlas.Text.Blank

/-!
# Finding the result of a scenario

Results come under result keys, while the places that ask for them go by other identifiers: a line
below a file, a path with a line, a path outside of the workspace. A result is looked for in three
ways, one after the other: under the key that the identifiers spell out, under the only key of the
file on that line, and under the only key on that line whose path holds the file's name. Two keys
that fit are as good as none.
-/

namespace ScenarioAtlas

set_option autoImplicit false

/-- Results by the keys they were reported under; no key comes twice. -/
abbrev Results (α : Type) := List (String × α)

namespace Results

variable {α : Type}

def insert (results : Results α) (key : String) (value : α) : Results α :=
  match results with
  | [] => [(key, value)]
  | (other, old) :: rest =>
    if other = key then (key, value) :: rest else (other, old) :: insert rest key value

/-- The result whose key is the only one to be accepted. -/
def unique? (results : Results α) (accept : List Char → Bool) : Option α :=
  match results.filter fun (key, _) => accept key.toList with
  | [(_, value)] => some value
  | _ => none

end Results

/-- What the identifier of a scenario's node tells about the scenario. -/
inductive ScenarioRef where
  | key (key : ResultKey)
  | inFile (path : List Char) (line : Nat)
  | onLine (line : Nat)
  deriving DecidableEq, Repr

namespace ScenarioRef

def cutFileLine? (s : List Char) : Option (List Char × List Char) :=
  (NodeId.cutLine? s).filter fun (path, _) => (NodeId.featureStem? path).isSome

def keyParts? (s : List Char) : Option (List Char × List Char × List Char) := do
  let (front, line) ← NodeId.cutLine? s
  let (path, featureLine) ← cutFileLine? front
  return (path, featureLine, line)

/-- Reads the identifier of a scenario's node; its form is settled before its numbers are read. -/
def read? (id : List Char) : Option ScenarioRef :=
  match keyParts? id, cutFileLine? id with
  | some (path, featureLine, line), _ => do
    let featureLine ← Text.readNumber? featureLine
    return .key (ResultKey.ofPath (String.ofList path) featureLine (← Text.readNumber? line))
  | none, some (path, line) => (Text.readNumber? line).map (.inFile path)
  | none, none =>
    let last := ((Text.cutLast? ':' id).map Prod.snd).getD id
    (Text.readNumber? (Text.trim last)).map .onLine

def line : ScenarioRef → Nat
  | .key own => own.scenarioLine
  | .inFile _ line | .onLine line => line

def path? : ScenarioRef → Option (List Char)
  | .key own => some own.path.toList
  | .inFile path _ => some path
  | .onLine _ => none

end ScenarioRef

/-- The file that the identifier of a parent node names, with the line of its feature. -/
structure FileRef where
  path : List Char
  featureLine : Option Nat
  deriving DecidableEq, Repr

namespace FileRef

/-- The line number that a colon and digits at the start of a text write. -/
def lineAfterColon? : List Char → Option Nat
  | ':' :: s => Text.readNumber? (s.takeWhile Text.isDecimalDigit)
  | _ => none

/-- The file that a text without line feeds names: the path goes up to the last `.feature`. -/
def inLine? (s : List Char) : Option FileRef :=
  (Text.beforeLast? ".feature".toList s).map fun stem =>
    let path := stem ++ ".feature".toList
    ⟨path, lineAfterColon? (s.drop path.length)⟩

def read? (id : List Char) : Option FileRef := (Text.fields '\n' id).findSome? inLine?

end FileRef

namespace Results

variable {α : Type}

/-- The key that a scenario and the file above it spell out. -/
def directKey? (scenario : ScenarioRef) (file : Option FileRef) (root : List Char) :
    Option ResultKey :=
  let keyIn := fun path => ResultKey.ofPath (String.ofList (Path.relativeTo path root))
  match scenario with
  | .key key => some (keyIn key.path.toList key.featureLine key.scenarioLine)
  | .inFile _ line | .onLine line => do
    let file ← file
    return keyIn file.path (← file.featureLine) line

def lineSuffix (line : Nat) : List Char := ':' :: Text.writeNumber line

/-- The only result for a line of the file that the scenario, or else the file above it, names. -/
def inFile? (results : Results α) (scenario : ScenarioRef) (file : Option FileRef)
    (root : List Char) : Option α := do
  let path ← scenario.path?.or (file.map FileRef.path)
  let start := Path.relativeTo path root ++ [':']
  results.unique? fun key =>
    start.isPrefixOf key && (lineSuffix scenario.line).isSuffixOf key

/-- The name of the feature file and the digits that end an identifier. -/
def trailingFile? (id : List Char) : Option (List Char × List Char) := do
  let (path, digits) ← NodeId.cutLine? id
  let stem ← Text.beforeEnd? ".feature".toList path
  let name := (stem.reverse.takeWhile fun c => !Path.isSeparator c && c != ':').reverse
  if name.isEmpty then none else some (name ++ ".feature".toList, digits)

def byFileName? (results : Results α) (id : List Char) : Option α := do
  let (name, digits) ← trailingFile? id
  let line ← Text.readNumber? digits
  results.unique? fun key => Text.contains name key && (lineSuffix line).isSuffixOf key

/-- The result for the node `child` below the node `parent`, which is empty where there is none, in
a workspace at `root`. -/
def reconcile (results : Results α) (child parent root : String) : Option α :=
  let scenario := ScenarioRef.read? child.toList
  let file := FileRef.read? parent.toList
  let direct := do
    results.lookup (← directKey? (← scenario) file root.toList).text
  let scanned := do
    results.inFile? (← scenario) file root.toList
  direct.or (scanned.or (results.byFileName? child.toList))

end Results

end ScenarioAtlas
