import ScenarioAtlas.Disk
import ScenarioAtlas.Glob.Matcher

/-!
# Listing files

The files below a folder that a pattern matches. Folders with an ignored name are not entered, the
one that the listing starts in excepted. Links below it are passed over, or followed where that is
asked for, each by the path that the walk has come to it; a link that leads nowhere, or to a folder
that the walk is already in, is passed over even then.
-/

namespace ScenarioAtlas

set_option autoImplicit false

/-- Why the files of a pattern cannot be listed. -/
inductive ListingError where
  | invalidPattern (error : GlobError)
  | rootNotFound (root : String)
  | failed (reason : String)
  deriving DecidableEq, Repr

def ListingError.message : ListingError → String
  | invalidPattern error => error.message
  | rootNotFound root => "discovery root not found: " ++ root
  | failed reason => "file listing failed: " ++ reason

namespace Listing

/-- What a listing leaves out and takes in. -/
structure Scope where
  followLinks : Bool := false
  ignoredFolders : List String := [".git", "node_modules", "target", ".venv", "__pycache__"]
  deriving DecidableEq, Repr

def pathBelow (start : String) (names : List String) : String :=
  String.ofList (Path.join start.toList ("/".intercalate names).toList)

variable (scope : Scope) (disk : Disk) (start : String)

/-- What an entry of the folder at `here` leads to, with the names that lead there without links;
`names` lead to the entry from the start of the walk. An entry that is to be passed over leads
nowhere. -/
def target? (above : List (List String)) (here names : List String) (entry : String × DiskNode) :
    Option (List String × DiskNode) :=
  match entry with
  | (_, .link _) =>
    if scope.followLinks then
      match disk.resolve (pathBelow start names) with
      | .ok place =>
        if place ∈ above then none else (disk.root.at? place).map fun node => (place, node)
      | .error _ => none
    else none
  | (name, node) => some (here ++ [name], node)

/-- The files below the folder at `here` to a depth, each as the names behind `walked`; `above` are
the folders that the walk is in. -/
def filesBelow (depth : Nat) (above : List (List String)) (here walked : List String)
    (entries : List (String × DiskNode)) : List (List String) :=
  match depth with
  | 0 => []
  | depth + 1 =>
    entries.flatMap fun entry =>
      let names := walked ++ [entry.1]
      match target? scope disk start above here names entry with
      | some (_, .file _) => [names]
      | some (place, .folder below) =>
        if entry.1 ∈ scope.ignoredFolders then []
        else filesBelow depth (place :: above) place names below
      | _ => []

/-- A depth that no walk comes to: a link is only followed into a folder that the walk is not in,
and between two links it only goes down. -/
def maxDepth : Nat := (disk.root.size + 1) * (disk.root.size + 1)

/-- The files below the folder at the path `start` that a pattern matches, in the order of their
paths. The pattern sees a path from that folder on, in its normalized form. -/
def list (pattern : String) : Except ListingError (List String) :=
  match Glob.read pattern with
  | .error error => .error (.invalidPattern error)
  | .ok tokens =>
    match disk.resolve start, disk.node start with
    | .ok here, .ok (.folder entries) =>
      let files := filesBelow scope disk start (maxDepth disk) [here] here [] entries
      let matching := files.filter fun names =>
        Glob.matchesPath tokens (Path.normalize ("/".intercalate names).toList)
      .ok ((matching.map (pathBelow start)).mergeSort fun a b => decide (a ≤ b))
    | _, _ => .error (.rootNotFound start)

end Listing

end ScenarioAtlas
