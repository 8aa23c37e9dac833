import ScenarioAtlas.Runner.Invocation
import ScenarioAtlas.Status.Report
import ScenarioAtlas.Text.Blank

/-!
# Text layouts

Test trees, reports and actions as lines of text. A line of a tree is two spaces further in than
that of the node above it. Columns are padded by the number of characters, and no text is cut.
-/

namespace ScenarioAtlas

set_option autoImplicit false

namespace Tree

/-- The text of one node: a leaf with its line, any other node with its identifier. -/
def caption (tree : Tree) : String :=
  match tree.line, tree.isLeaf with
  | some line, true => tree.label ++ " (line " ++ String.ofList (Text.writeNumber line) ++ ")"
  | _, _ => tree.label ++ " [" ++ tree.id.text ++ "]"

mutual

/-- A tree as lines that are `depth` steps in. -/
def lines (depth : Nat) : Tree → List String
  | ⟨id, label, description, path, line, tags, children⟩ =>
    (Text.spaces (2 * depth) ++ caption ⟨id, label, description, path, line, tags, children⟩)
      :: linesOfAll (depth + 1) children

def linesOfAll (depth : Nat) : List Tree → List String
  | [] => []
  | tree :: rest => lines depth tree ++ linesOfAll depth rest

end

end Tree

def Status.caption : Status → String
  | passed => "PASSED"
  | failed => "FAILED"
  | skipped => "SKIPPED"

namespace Report

mutual

def lines (depth : Nat) : Report → List String
  | ⟨_, label, status, children⟩ =>
    (Text.spaces (2 * depth) ++ Text.padTo 8 status.caption ++ " " ++ label)
      :: linesOfAll (depth + 1) children

def linesOfAll (depth : Nat) : List Report → List String
  | [] => []
  | report :: rest => lines depth report ++ linesOfAll depth rest

end

end Report

def Invocation.line (action : Action) (invocation : Invocation) : String :=
  Text.padTo 16 action.title ++ " "
    ++ Text.padTo 40 ((action.name.or action.tag).getD "") ++ " "
    ++ invocation.commandLine
    ++ if invocation.debug then " [debug]" else ""

end ScenarioAtlas
