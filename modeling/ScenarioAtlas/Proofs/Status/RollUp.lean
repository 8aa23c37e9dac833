import ScenarioAtlas.Proofs.Tree.Leaves

/-!
# Roll-up

Statuses are rolled up one level after the other. Since no node is without leaves, that comes to one
verdict over all leaves below a node: it failed if one of them did, it passed if all of them did, and
it was skipped otherwise.
-/

namespace ScenarioAtlas

set_option autoImplicit false

namespace Status

variable {statuses : List Status} {parts : List (List Status)}

theorem rollUp_eq_passed_iff :
    rollUp statuses = passed ↔ statuses ≠ [] ∧ ∀ status ∈ statuses, status = passed := by
  have hall : (∀ status ∈ statuses, status = passed) ↔ failed ∉ statuses ∧ skipped ∉ statuses := by
    constructor
    · intro h
      constructor
      · intro hfailed
        cases h failed hfailed
      · intro hskipped
        cases h skipped hskipped
    · rintro ⟨hfailed, hskipped⟩ status hmem
      cases status with
      | passed => rfl
      | failed => exact absurd hmem hfailed
      | skipped => exact absurd hmem hskipped
  rw [hall, rollUp]
  split
  case isTrue hfailed => simp [hfailed]
  case isFalse hfailed =>
    split
    case isTrue h => simp [h, hfailed]
    case isFalse h =>
      refine iff_of_false nofun ?_
      rintro ⟨hsome, -, hskipped⟩
      exact h ⟨hsome, hskipped⟩

theorem eq_of_iff {a b : Status} (hfailed : a = failed ↔ b = failed)
    (hpassed : a = passed ↔ b = passed) : a = b := by
  cases a <;> cases b <;> simp_all

theorem rollUp_singleton (status : Status) : rollUp [status] = status := by
  cases status <;> rfl

/-- Statuses come to the same whether they are rolled up at once or part by part, as long as there is
no part without any. -/
theorem rollUp_flatten (h : ∀ part ∈ parts, part ≠ []) :
    rollUp (parts.map rollUp) = rollUp parts.flatten := by
  apply eq_of_iff
  · simp [rollUp_eq_failed_iff]
  · rw [rollUp_eq_passed_iff, rollUp_eq_passed_iff]
    constructor
    · rintro ⟨hsome, hall⟩
      have hpart {part : List Status} (hmem : part ∈ parts) : ∀ status ∈ part, status = passed :=
        (rollUp_eq_passed_iff.mp (hall _ (List.mem_map_of_mem hmem))).2
      constructor
      · obtain ⟨part, hmem⟩ := List.exists_mem_of_ne_nil parts (mt (congrArg _) hsome)
        obtain ⟨status, hstatus⟩ := List.exists_mem_of_ne_nil part (h part hmem)
        exact List.ne_nil_of_mem (List.mem_flatten_of_mem hmem hstatus)
      · intro status hstatus
        obtain ⟨part, hmem, hstatus⟩ := List.mem_flatten.mp hstatus
        exact hpart hmem status hstatus
    · rintro ⟨hsome, hall⟩
      constructor
      · intro hnil
        rw [List.map_eq_nil_iff.mp hnil] at hsome
        exact hsome rfl
      · intro status hstatus
        obtain ⟨part, hmem, rfl⟩ := List.mem_map.mp hstatus
        exact rollUp_eq_passed_iff.mpr
          ⟨h part hmem, fun status hstatus => hall status (List.mem_flatten_of_mem hmem hstatus)⟩

theorem count_add_count (statuses : List Status) :
    statuses.count passed + statuses.count failed + statuses.count skipped = statuses.length := by
  induction statuses with
  | nil => rfl
  | cons status statuses ih =>
    cases status <;> simp <;> omega

end Status

namespace Tree

mutual

theorem children_of_mem_leaves : ∀ {parent : String} {tree : Tree} {place : String × Tree},
    place ∈ tree.leaves parent → place.2.children = []
  | parent, ⟨id, label, description, path, line, tags, []⟩, place, h => by
    rw [leaves_of_isEmpty rfl] at h
    rw [List.mem_singleton.mp h]
  | parent, ⟨id, label, description, path, line, tags, first :: rest⟩, place, h => by
    rw [leaves_of_ne_nil (List.cons_ne_nil first rest)] at h
    exact children_of_mem_leavesOf h

theorem children_of_mem_leavesOf : ∀ {parent : String} {trees : List Tree} {place : String × Tree},
    place ∈ leavesOf parent trees → place.2.children = []
  | _, [], place, h => nomatch h
  | parent, tree :: rest, place, h => by
    rw [leavesOf] at h
    rcases List.mem_append.mp h with h | h
    · exact children_of_mem_leaves h
    · exact children_of_mem_leavesOf h

end

mutual

theorem leafCount_eq : ∀ (parent : String) (tree : Tree),
    tree.leafCount = (tree.leaves parent).length
  | parent, ⟨id, label, description, path, line, tags, []⟩ => rfl
  | parent, ⟨id, label, description, path, line, tags, first :: rest⟩ => by
    rw [leaves_of_ne_nil (List.cons_ne_nil first rest), leafCount]
    exact leafCounts_eq id.text (first :: rest)

theorem leafCounts_eq : ∀ (parent : String) (trees : List Tree),
    leafCounts trees = (leavesOf parent trees).length
  | _, [] => rfl
  | parent, tree :: rest => by
    rw [leafCounts, leavesOf, List.length_append, leafCount_eq parent tree,
      leafCounts_eq parent rest]

end

end Tree

namespace Report

theorem leaves_of_ne_nil {report : Report} (h : report.children ≠ []) :
    report.leaves = leavesOf report.children := by
  obtain ⟨id, label, status, children⟩ := report
  rw [leaves, List.isEmpty_eq_false_iff.mpr h]
  rfl

theorem leavesOf_eq_flatMap (reports : List Report) : leavesOf reports = reports.flatMap leaves := by
  induction reports with
  | nil => rfl
  | cons report reports ih => rw [leavesOf, ih, List.flatMap_cons]

mutual

theorem leaves_ne_nil : ∀ report : Report, report.leaves ≠ []
  | ⟨_, _, _, []⟩ => List.cons_ne_nil _ _
  | ⟨_, _, _, first :: rest⟩ => leavesOf_ne_nil (List.cons_ne_nil first rest)

theorem leavesOf_ne_nil : ∀ {reports : List Report}, reports ≠ [] → leavesOf reports ≠ []
  | [], h => absurd rfl h
  | report :: rest, _ => by
    rw [leavesOf]
    exact List.append_ne_nil_of_left_ne_nil (leaves_ne_nil report) _

end

mutual

theorem count_eq : ∀ (status : Status) (report : Report),
    report.count status = (report.leaves.map Report.status).count status
  | status, ⟨id, label, own, []⟩ => by
    rw [leaves_of_isEmpty rfl, List.map_singleton, List.count_singleton]
    by_cases h : own = status
    · simp [count, h]
    · simp [count, h]
  | status, ⟨id, label, own, first :: rest⟩ => by
    rw [count, leaves]
    exact counts_eq status (first :: rest)

theorem counts_eq : ∀ (status : Status) (reports : List Report),
    counts status reports = ((leavesOf reports).map Report.status).count status
  | _, [] => rfl
  | status, report :: rest => by
    rw [counts, leavesOf, List.map_append, List.count_append, count_eq status report,
      counts_eq status rest]

end

theorem count_add_count (report : Report) :
    report.count .passed + report.count .failed + report.count .skipped = report.leaves.length := by
  rw [count_eq, count_eq, count_eq, Status.count_add_count, List.length_map]

variable (results : Results Outcome) (root : String)

theorem ofTree_label (parent : String) (tree : Tree) :
    (ofTree results root parent tree).label = tree.label := by
  obtain ⟨id, label, description, path, line, tags, children⟩ := tree
  rw [ofTree]
  split <;> rfl

theorem ofTree_children (parent : String) (tree : Tree) :
    (ofTree results root parent tree).children =
      ofTrees results root tree.id.text tree.children := by
  obtain ⟨id, label, description, path, line, tags, children⟩ := tree
  rw [ofTree]
  split
  case isTrue h =>
    rw [List.isEmpty_iff.mp h.1]
    rfl
  case isFalse => rfl

theorem ofTree_status {tree : Tree} (h : tree.children ≠ []) (parent : String) :
    (ofTree results root parent tree).status =
      .rollUp ((ofTrees results root tree.id.text tree.children).map Report.status) := by
  obtain ⟨id, label, description, path, line, tags, children⟩ := tree
  rw [ofTree, if_neg fun hleaf => h (List.isEmpty_iff.mp hleaf.1)]

/-- The status of a leaf of the test tree below the node that goes by `parent`. -/
def leafStatus (parent : String) (leaf : Tree) : Status :=
  if leaf.id.isGroup then .skipped
  else .ofOutcome? (results.reconcile leaf.id.text parent root)

theorem ofTree_status_of_leaf {leaf : Tree} (h : leaf.children = []) (parent : String) :
    (ofTree results root parent leaf).status = leafStatus results root parent leaf := by
  rw [leafStatus]
  split
  case isTrue hgroup =>
    obtain ⟨id, label, description, path, line, tags, children⟩ := leaf
    obtain rfl : children = [] := h
    rw [ofTree, if_neg]
    · rfl
    · rintro ⟨-, hscenario⟩
      rw [hscenario] at hgroup
      cases hgroup
  case isFalse hscenario => rw [ofTree_leaf results root h (Bool.eq_false_iff.mpr hscenario)]

mutual

/-- The status of a node is the verdict over the leaves below it. -/
theorem status_eq_rollUp_leaves : ∀ (parent : String) (tree : Tree),
    (ofTree results root parent tree).status =
      .rollUp ((ofTree results root parent tree).leaves.map Report.status)
  | parent, ⟨id, label, description, path, line, tags, []⟩ => by
    rw [leaves_of_isEmpty (ofTree_children results root _ _), List.map_singleton,
      Status.rollUp_singleton]
  | parent, ⟨id, label, description, path, line, tags, first :: rest⟩ => by
    have hsome : (ofTree results root parent
        ⟨id, label, description, path, line, tags, first :: rest⟩).children ≠ [] := by
      rw [ofTree_children]
      exact List.cons_ne_nil _ _
    rw [ofTree_status results root (List.cons_ne_nil first rest), leaves_of_ne_nil hsome,
      ofTree_children, statuses_eq_rollUp_leaves id.text (first :: rest), Status.rollUp_flatten]
    · rw [leavesOf_eq_flatMap, List.map_flatMap, List.flatMap_def]
    · intro part hpart
      obtain ⟨report, -, rfl⟩ := List.mem_map.mp hpart
      rw [ne_eq, List.map_eq_nil_iff]
      exact leaves_ne_nil report

theorem statuses_eq_rollUp_leaves : ∀ (parent : String) (trees : List Tree),
    (ofTrees results root parent trees).map Report.status =
      ((ofTrees results root parent trees).map fun report =>
        report.leaves.map Report.status).map .rollUp
  | _, [] => rfl
  | parent, tree :: rest => by
    rw [ofTrees, List.map_cons, List.map_cons, List.map_cons, status_eq_rollUp_leaves parent tree,
      statuses_eq_rollUp_leaves parent rest]

end

/-- What the report on a node has to tell: what the node goes by, the statuses of the leaves below it,
and the verdict over them. Each leaf counts as one of the three statuses. -/
structure Tells (parent : String) (tree : Tree) (report : Report) : Prop where
  id : report.id = tree.id.text
  label : report.label = tree.label
  leaves : report.leaves.map Report.status =
    (tree.leaves parent).map fun (parent, leaf) => leafStatus results root parent leaf
  failed : report.status = .failed ↔ ∃ leaf ∈ report.leaves, leaf.status = .failed
  passed : report.status = .passed ↔ ∀ leaf ∈ report.leaves, leaf.status = .passed
  counts : report.count .passed + report.count .failed + report.count .skipped = tree.leafCount

theorem tells_ofTree (parent : String) (tree : Tree) :
    Tells results root parent tree (ofTree results root parent tree) := by
  have hverdict := status_eq_rollUp_leaves results root parent tree
  have hleaves := leaves_ofTree results root parent tree
  constructor
  · exact ofTree_id results root parent tree
  · exact ofTree_label results root parent tree
  · rw [hleaves, List.map_map]
    apply List.map_congr_left
    intro place hplace
    exact ofTree_status_of_leaf results root (Tree.children_of_mem_leaves hplace) place.1
  · rw [hverdict, Status.rollUp_eq_failed_iff, List.mem_map]
  · rw [hverdict, Status.rollUp_eq_passed_iff, List.forall_mem_map]
    apply and_iff_right
    rw [ne_eq, List.map_eq_nil_iff]
    exact leaves_ne_nil _
  · rw [count_add_count, hleaves, List.length_map, Tree.leafCount_eq parent]

mutual

/-- A report of the shape of a tree, where each node and the report on it are related. -/
inductive Mirrors (related : String → Tree → Report → Prop) : String → Tree → Report → Prop where
  | node {parent : String} {tree : Tree} {report : Report} :
    related parent tree report → MirrorAll related tree.id.text tree.children report.children →
      Mirrors related parent tree report

/-- Reports on several trees below one node, one for each of them. -/
inductive MirrorAll (related : String → Tree → Report → Prop) :
    String → List Tree → List Report → Prop where
  | nil {parent : String} : MirrorAll related parent [] []
  | cons {parent : String} {tree : Tree} {report : Report} {trees : List Tree}
      {reports : List Report} :
    Mirrors related parent tree report → MirrorAll related parent trees reports →
      MirrorAll related parent (tree :: trees) (report :: reports)

end

mutual

theorem mirrors_ofTree : ∀ (parent : String) (tree : Tree),
    Mirrors (Tells results root) parent tree (ofTree results root parent tree)
  | parent, ⟨id, label, description, path, line, tags, children⟩ => by
    refine .node (tells_ofTree results root parent _) ?_
    rw [ofTree_children]
    exact mirrorAll_ofTrees id.text children

theorem mirrorAll_ofTrees : ∀ (parent : String) (trees : List Tree),
    MirrorAll (Tells results root) parent trees (ofTrees results root parent trees)
  | _, [] => .nil
  | parent, tree :: rest => .cons (mirrors_ofTree parent tree) (mirrorAll_ofTrees parent rest)

end

/-- The reports on trees have their shape, identifiers and labels. At every node, a node failed if
some leaf below it did and passed if all of them did, and each leaf below it is counted once. A leaf
that stands for no scenario was skipped, and any other has the status of its result. -/
theorem ofRoots_mirrors (results : Results Outcome) (root : String) (trees : List Tree) :
    MirrorAll (Tells results root) "" trees (ofRoots results root trees) :=
  mirrorAll_ofTrees results root "" trees

end Report

end ScenarioAtlas
