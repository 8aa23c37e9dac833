import ScenarioAtlas.Path

/-!
# Disks

A tree of folders, files and links, as a value. Paths are resolved as a disk does it: from the
working folder unless they start at the root, through links, with `..` taken after the link before
it. A folder is known by the names that lead to it from the root without any link.

A file is written through the links at its path, also to where nothing is yet; folders and links are
made, and files and links removed, at the last name of the path itself.
-/

namespace ScenarioAtlas

set_option autoImplicit false

/-- What a name on a disk stands for. -/
inductive DiskNode where
  | file (content : ByteArray)
  | folder (entries : List (String × DiskNode))
  | link (target : String)

inductive DiskFault where
  | missing
  | notFolder
  | isFolder
  | occupied
  | tooManyLinks
  | nameTooLong
  | zeroInPath
  | notText
  deriving DecidableEq, Repr

def DiskFault.message : DiskFault → String
  | missing => "No such file or directory (os error 2)"
  | notFolder => "Not a directory (os error 20)"
  | isFolder => "Is a directory (os error 21)"
  | occupied => "File exists (os error 17)"
  | tooManyLinks => "Too many levels of symbolic links (os error 40)"
  | nameTooLong => "File name too long (os error 36)"
  | zeroInPath => "file name contained an unexpected NUL byte"
  | notText => "stream did not contain valid UTF-8"

namespace DiskNode

/-- What the names lead to, without passing a link. -/
def at? (node : DiskNode) : List String → Option DiskNode
  | [] => some node
  | name :: rest =>
    match node with
    | folder entries => (entries.lookup name).bind fun below => below.at? rest
    | _ => none

mutual

def size : DiskNode → Nat
  | folder entries => sizes entries
  | _ => 0

def sizes : List (String × DiskNode) → Nat
  | [] => 0
  | (_, node) :: rest => 1 + size node + sizes rest

end

def setEntry (name : String) (node : DiskNode) :
    List (String × DiskNode) → List (String × DiskNode)
  | [] => [(name, node)]
  | (other, old) :: rest =>
    if other = name then (name, node) :: rest else (other, old) :: setEntry name node rest

/-- Sets what the names lead to, where there are folders up to the last of them. -/
def set (node : DiskNode) (names : List String) (new : DiskNode) : DiskNode :=
  match names with
  | [] => new
  | [name] =>
    match node with
    | folder entries => folder (setEntry name new entries)
    | _ => node
  | name :: rest =>
    match node with
    | folder entries =>
      match entries.lookup name with
      | some below => folder (setEntry name (below.set rest new) entries)
      | none => node
    | _ => node

def erase (node : DiskNode) : List String → DiskNode
  | [] => node
  | [name] =>
    match node with
    | folder entries => folder (entries.filter (·.1 ≠ name))
    | _ => node
  | name :: rest =>
    match node with
    | folder entries =>
      match entries.lookup name with
      | some below => folder (setEntry name (below.erase rest) entries)
      | none => node
    | _ => node

end DiskNode

/-- A disk and the folder that relative paths start in. -/
structure Disk where
  root : DiskNode := .folder []
  workingFolder : List String := []

namespace Disk

def workingPath (disk : Disk) : String := "/" ++ "/".intercalate disk.workingFolder

def maxLinks : Nat := 40

def maxNameSize : Nat := 255

def maxPathSize : Nat := 4095

/-- The segments of a path, empty ones and `.` among them. -/
def segmentsOf (path : String) : List String := (Text.fields '/' path.toList).map String.ofList

def startOf (path : String) (folder : List String) : List String :=
  if Path.isRooted path.toList then [] else folder

/-- Follows segments from a folder, through at most `links` links. Nothing has to be at the last of
them. -/
def follow (root : DiskNode) (links : Nat) (folder : List String) (segments : List String) :
    Except DiskFault (List String) :=
  match segments with
  | [] => .ok folder
  | segment :: rest =>
    match root.at? folder with
    | some (.folder entries) =>
      if segment = "" ∨ segment = "." then follow root links folder rest
      else if segment = ".." then follow root links folder.dropLast rest
      else if maxNameSize < segment.utf8ByteSize then .error .nameTooLong
      else
        match entries.lookup segment with
        | none => if rest.isEmpty then .ok (folder ++ [segment]) else .error .missing
        | some (.link target) =>
          match links with
          | 0 => .error .tooManyLinks
          | links + 1 => follow root links (startOf target folder) (segmentsOf target ++ rest)
        | some _ => follow root links (folder ++ [segment]) rest
    | _ => .error .notFolder
termination_by (links, segments.length)

/-- Why a path is none, whatever there is on the disk. -/
def pathFault? (path : String) : Option DiskFault :=
  if path = "" then some .missing
  else if '\x00' ∈ path.toList then some .zeroInPath
  else if maxPathSize < path.utf8ByteSize then some .nameTooLong
  else none

/-- The names without any link that a path leads to, where a file is or could be written. -/
def destination (disk : Disk) (path : String) : Except DiskFault (List String) :=
  match pathFault? path with
  | some fault => .error fault
  | none => follow disk.root maxLinks (startOf path disk.workingFolder) (segmentsOf path)

def resolve (disk : Disk) (path : String) : Except DiskFault (List String) := do
  let names ← disk.destination path
  if (disk.root.at? names).isSome then return names else .error .missing

def node (disk : Disk) (path : String) : Except DiskFault DiskNode := do
  match disk.root.at? (← disk.destination path) with
  | some found => return found
  | none => .error .missing

def isFolder (disk : Disk) (path : String) : Bool :=
  match disk.node path with
  | .ok (.folder _) => true
  | _ => false

def isFile (disk : Disk) (path : String) : Bool :=
  match disk.node path with
  | .ok (.file _) => true
  | _ => false

def readText (disk : Disk) (path : String) : Except DiskFault String := do
  match ← disk.node path with
  | .file content =>
    match String.fromUTF8? content with
    | some text => return text
    | none => .error .notText
  | _ => .error .isFolder

def set (disk : Disk) (names : List String) (new : DiskNode) : Disk :=
  { disk with root := disk.root.set names new }

/-- Writes a file where a path leads to. -/
def writeFile (disk : Disk) (path : String) (content : ByteArray) : Except DiskFault Disk := do
  let names ← disk.destination path
  match disk.root.at? names with
  | some (.folder _) => .error .isFolder
  | _ => return disk.set names (.file content)

/-- The names of the entry that a path names itself, be it a link or not there yet. A path that ends
in a slash, `.` or `..` names none. -/
def entry (disk : Disk) (path : String) : Except DiskFault (List String) := do
  let segments := segmentsOf path
  match pathFault? path, segments.getLast? with
  | some fault, _ => .error fault
  | none, none => .error .missing
  | none, some name =>
    let above := segments.dropLast ++ ["."]
    let folder ← follow disk.root maxLinks (startOf path disk.workingFolder) above
    if name = "" ∨ name = "." ∨ name = ".." then .error .notFolder
    else if maxNameSize < name.utf8ByteSize then .error .nameTooLong
    else return folder ++ [name]

def make (disk : Disk) (path : String) (new : DiskNode) : Except DiskFault Disk := do
  let names ← disk.entry path
  if (disk.root.at? names).isSome then .error .occupied else return disk.set names new

def makeLink (disk : Disk) (path target : String) : Except DiskFault Disk :=
  match pathFault? target with
  | some fault => .error fault
  | none => disk.make path (.link target)

/-- The path of the folder that holds what a path names; empty where that is where paths start. -/
def folderOf (path : String) : String :=
  ((Path.parent? path.toList).map String.ofList).getD ""

/-- The paths that the segments of a path lead through, from the first on. -/
def pathsAlong (path : String) : List String :=
  let segments := segmentsOf path
  (List.range segments.length).map fun n => "/".intercalate (segments.take (n + 1))

/-- Makes the folder at a path and those above it, as far as they are not there and can be made.
Slashes at the end of the path do not count. -/
def makeFolders (disk : Disk) (path : String) : Disk :=
  if (pathFault? path).isSome then disk
  else
    let last := String.ofList (Path.dropTrailingSlashes path.toList)
    (pathsAlong (folderOf path) ++ [last]).foldl (fun disk path =>
      if disk.isFolder path then disk else (disk.make path (.folder [])).toOption.getD disk) disk

/-- Writes a file at a path and makes the folders above it; what cannot be made is left out. -/
def put (disk : Disk) (path : String) (content : ByteArray) : Disk :=
  let disk := disk.makeFolders (folderOf path)
  (disk.writeFile path content).toOption.getD disk

def removeFile (disk : Disk) (path : String) : Except DiskFault Disk := do
  let names ← disk.entry path
  match disk.root.at? names with
  | some (.folder _) => .error .isFolder
  | some _ => return { disk with root := disk.root.erase names }
  | none => .error .missing

end Disk

end ScenarioAtlas
