import Mathlib.Data.List.Nodup
import ScenarioAtlas.Proofs.Distinct
import ScenarioAtlas.Tree

/-!
# The nodes of a test tree

The nodes of a tree in the order of a search: each before those below it, and those below one node
before those of the next. A search gives the first node with an identifier, so it gives the one node
with that identifier if no two nodes share theirs.
-/

namespace ScenarioAtlas.Tree

set_option autoImplicit false

mutual

def nodes : Tree → List Tree
  | ⟨id, label, description, path, line, tags, children⟩ =>
    ⟨id, label, description, path, line, tags, children⟩ :: nodesOf children

def nodesOf : List Tree → List Tree
  | [] => []
  | tree :: rest => nodes tree ++ nodesOf rest

end

theorem nodes_eq_cons (tree : Tree) : tree.nodes = tree :: nodesOf tree.children := by
  obtain ⟨id, label, description, path, line, tags, children⟩ := tree
  rfl

theorem nodesOf_eq_flatMap (trees : List Tree) : nodesOf trees = trees.flatMap nodes := by
  induction trees with
  | nil => rfl
  | cons tree rest ih => rw [nodesOf, ih, List.flatMap_cons]

mutual

theorem find?_eq : ∀ (id : NodeId) (tree : Tree), tree.find? id = tree.nodes.find? (·.id = id)
  | id, ⟨own, label, description, path, line, tags, children⟩ => by
    rw [find?, nodes, List.find?_cons]
    by_cases h : own = id
    · simp [h]
    · simp [h, findAny?_eq id children]

theorem findAny?_eq : ∀ (id : NodeId) (trees : List Tree),
    findAny? id trees = (nodesOf trees).find? (·.id = id)
  | _, [] => rfl
  | id, tree :: rest => by
    rw [findAny?, nodesOf, List.find?_append, find?_eq id tree, findAny?_eq id rest]

end

/-- Where no two nodes share an identifier, a search finds exactly the node that goes by it. -/
theorem find?_eq_some_iff {tree : Tree} (hids : (tree.nodes.map Tree.id).Nodup) {id : NodeId}
    {node : Tree} : tree.find? id = some node ↔ node ∈ tree.nodes ∧ node.id = id := by
  rw [find?_eq]
  constructor
  · intro h
    exact ⟨List.mem_of_find?_eq_some h, by simpa using List.find?_some h⟩
  · rintro ⟨hnode, rfl⟩
    refine find?_eq_some_of_unique hnode (decide_eq_true rfl) fun other hother hsame => ?_
    exact List.inj_on_of_nodup_map hids hother hnode (of_decide_eq_true hsame)

end ScenarioAtlas.Tree
