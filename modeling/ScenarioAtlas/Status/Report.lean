import ScenarioAtlas.Status
import ScenarioAtlas.Status.Reconcile
import ScenarioAtlas.Tree

/-!
# Status reports

The test tree with a status at every node. The status of a scenario comes from the results, and that
of a node above from the nodes below it; a group without scenarios is skipped.
-/

namespace ScenarioAtlas

set_option autoImplicit false

/-- A node of the test tree with its status. -/
structure Report where
  id : String
  label : String
  status : Status
  children : List Report := []

namespace Report

mutual

def count (status : Status) : Report → Nat
  | ⟨_, _, own, children⟩ =>
    if children.isEmpty then (if own = status then 1 else 0) else counts status children

def counts (status : Status) : List Report → Nat
  | [] => 0
  | report :: rest => count status report + counts status rest

end

variable (results : Results Outcome) (root : String)

mutual

/-- The report on a tree below the node that goes by `parent`. -/
def ofTree (parent : String) : Tree → Report
  | ⟨id, label, _, _, _, _, children⟩ =>
    if children.isEmpty ∧ id.isGroup = false then
      { id := id.text, label
        status := .ofOutcome? (results.reconcile id.text parent root) }
    else
      let below := ofTrees id.text children
      { id := id.text, label, status := .rollUp (below.map Report.status), children := below }

def ofTrees (parent : String) : List Tree → List Report
  | [] => []
  | tree :: rest => ofTree parent tree :: ofTrees parent rest

end

def ofRoots (trees : List Tree) : List Report := ofTrees results root "" trees

end Report

/-- The results in a list of keys and texts, where a later text for a key replaces an earlier one,
and the texts that name no outcome. -/
def Results.ofTexts : List (String × String) → Results Outcome × List UnknownOutcome :=
  List.foldl (fun (results, errors) (key, text) =>
    match Outcome.read text with
    | .ok outcome => (results.insert key outcome, errors)
    | .error error => (results, errors ++ [error])) ([], [])

end ScenarioAtlas
