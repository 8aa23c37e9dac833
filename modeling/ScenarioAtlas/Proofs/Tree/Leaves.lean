import ScenarioAtlas.Status.Report

/-!
# Leaves of trees and reports

A report has the shape of its tree. So its leaves are the reports on the leaves of the tree, each of
them below the node that it stands below there.
-/

namespace ScenarioAtlas

set_option autoImplicit false

namespace Tree

mutual

/-- The leaves of a tree, each with the identifier of the node above it. -/
def leaves (parent : String) : Tree → List (String × Tree)
  | ⟨id, label, description, path, line, tags, children⟩ =>
    if children.isEmpty then [(parent, ⟨id, label, description, path, line, tags, children⟩)]
    else leavesOf id.text children

def leavesOf (parent : String) : List Tree → List (String × Tree)
  | [] => []
  | tree :: rest => leaves parent tree ++ leavesOf parent rest

end

theorem leaves_of_isEmpty {tree : Tree} (h : tree.children = []) (parent : String) :
    tree.leaves parent = [(parent, tree)] := by
  obtain ⟨id, label, description, path, line, tags, children⟩ := tree
  cases h
  rfl

theorem leaves_of_ne_nil {tree : Tree} (h : tree.children ≠ []) (parent : String) :
    tree.leaves parent = leavesOf tree.id.text tree.children := by
  obtain ⟨id, label, description, path, line, tags, children⟩ := tree
  rw [leaves, List.isEmpty_eq_false_iff.mpr h]
  rfl

theorem mem_leavesOf_iff {parent : String} {trees : List Tree} {place : String × Tree} :
    place ∈ leavesOf parent trees ↔ ∃ tree ∈ trees, place ∈ tree.leaves parent := by
  induction trees with
  | nil => simp [leavesOf]
  | cons tree rest ih => simp [leavesOf, ih]

end Tree

namespace Report

mutual

def leaves : Report → List Report
  | ⟨id, label, status, children⟩ =>
    if children.isEmpty then [⟨id, label, status, children⟩] else leavesOf children

def leavesOf : List Report → List Report
  | [] => []
  | report :: rest => leaves report ++ leavesOf rest

end

variable (results : Results Outcome) (root : String)

theorem leaves_of_isEmpty {report : Report} (h : report.children = []) :
    report.leaves = [report] := by
  obtain ⟨id, label, status, children⟩ := report
  cases h
  rfl

mutual

theorem leaves_ofTree : ∀ (parent : String) (tree : Tree),
    (ofTree results root parent tree).leaves =
      (tree.leaves parent).map fun (parent, leaf) => ofTree results root parent leaf
  | parent, ⟨id, label, description, path, line, tags, []⟩ => by
    rw [Tree.leaves_of_isEmpty rfl]
    apply leaves_of_isEmpty
    rw [ofTree]
    split <;> rfl
  | parent, ⟨id, label, description, path, line, tags, first :: rest⟩ => by
    rw [Tree.leaves_of_ne_nil (List.cons_ne_nil first rest), ofTree]
    exact leavesOf_ofTrees id.text (first :: rest)

theorem leavesOf_ofTrees : ∀ (parent : String) (trees : List Tree),
    leavesOf (ofTrees results root parent trees) =
      (Tree.leavesOf parent trees).map fun (parent, leaf) => ofTree results root parent leaf
  | _, [] => rfl
  | parent, tree :: rest => by
    rw [ofTrees, leavesOf, Tree.leavesOf, List.map_append, leaves_ofTree parent tree,
      leavesOf_ofTrees parent rest]

end

theorem ofTree_id (parent : String) (tree : Tree) :
    (ofTree results root parent tree).id = tree.id.text := by
  obtain ⟨id, label, description, path, line, tags, children⟩ := tree
  rw [ofTree]
  split <;> rfl

theorem ofTree_leaf {leaf : Tree} (h : leaf.children = []) (hscenario : leaf.id.isGroup = false)
    (parent : String) :
    ofTree results root parent leaf =
      { id := leaf.id.text
        label := leaf.label
        status := .ofOutcome? (results.reconcile leaf.id.text parent root) } := by
  obtain ⟨id, label, description, path, line, tags, children⟩ := leaf
  cases h
  rw [ofTree, if_pos ⟨rfl, hscenario⟩]

end Report

end ScenarioAtlas
