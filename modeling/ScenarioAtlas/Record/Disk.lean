import ScenarioAtlas.Disk
import ScenarioAtlas.Json.Reader
import ScenarioAtlas.Record.Field

/-!
# Pictures of disks

The JSON form of a tree of folders: an object is a folder with its names, a string is the text of a
file, and an array of one string is a link with its target.
-/

namespace ScenarioAtlas

set_option autoImplicit false

namespace DiskNode

mutual

def ofJson? : Json → Option DiskNode
  | .string text => some (.file text.toUTF8)
  | .array [.string target] => some (.link target)
  | .object members => (entriesOfMembers? members).map .folder
  | _ => none

def entriesOfMembers? : List (String × Json) → Option (List (String × DiskNode))
  | [] => some []
  | (name, value) :: rest => do
    return (name, ← ofJson? value) :: (← entriesOfMembers? rest)

end

end DiskNode

/-- The disk in a picture, with its root as the working folder. -/
def Disk.ofPicture? (text : String) : Option Disk := do
  return { root := ← DiskNode.ofJson? (← Json.read? text) }

end ScenarioAtlas
