import ScenarioAtlas.Proofs.Tree.Completeness
import ScenarioAtlas.Proofs.Tree.Nodes
import ScenarioAtlas.Proofs.Tree.Placement

/-!
# Identifiers tell nodes apart

Roots differ in their identifiers and in what these are written as. Below one root the nodes differ
in their identifiers: below a file because scenarios have lines of their own and outlines too, and
below any other group because scenarios have keys of their own. Nodes below different roots may
share their identifiers, as the same line in two files does.
-/

namespace ScenarioAtlas

set_option autoImplicit false

namespace Group

variable {scenarios : List Scenario} {groups : List Group}

theorem nodup_ids_byTag (h : byTag scenarios = .ok groups) : (groups.map Group.id).Nodup := by
  unfold byTag at h
  split at h
  · cases h
  cases h
  rw [List.map_append, List.map_map]
  apply List.nodup_append.mpr
  refine ⟨?_, ?_, ?_⟩
  · refine (nodup_eraseDups _).map_on fun tag _ other _ htext => ?_
    have hid : NodeId.tagGroup tag = .tagGroup other :=
      NodeId.Readable.text_inj trivial trivial htext
    exact NodeId.tagGroup.inj hid
  · split
    · exact List.nodup_nil
    · exact List.nodup_singleton _
  · rintro id hid _ huntagged rfl
    obtain ⟨tag, -, htag⟩ := List.mem_map.mp hid
    split at huntagged
    · cases huntagged
    · rw [List.map_singleton, List.mem_singleton] at huntagged
      have htext : NodeId.tagGroup tag = .untagged :=
        NodeId.Readable.text_inj trivial trivial (htag.trans huntagged)
      cases htext

theorem nodup_ids_byFileAs {id : String → List Scenario → NodeId}
    (hinj : ∀ path ∈ distinctPaths scenarios, ∀ other ∈ distinctPaths scenarios,
      (id path (ofFile scenarios path)).text = (id other (ofFile scenarios other)).text →
        path = other)
    (h : byFileAs id scenarios = .ok groups) : (groups.map Group.id).Nodup := by
  unfold byFileAs at h
  split at h
  · cases h
  · cases h
    rw [List.map_map]
    exact (nodup_eraseDups _).map_on hinj

theorem nodup_ids_byKind (scenarios : List Scenario) :
    ((byKind scenarios).map Group.id).Nodup := by
  have hkinds : [(ScenarioKind.regular, regularLabel), (.outline, outlineLabel)].Pairwise
      fun entry other => entry.1 ≠ other.1 := by
    decide
  apply List.pairwise_map.mpr
  refine hkinds.filterMap _ ?_
  rintro ⟨kind, label⟩ ⟨other, otherLabel⟩ hne group hgroup otherGroup hother htext
  obtain ⟨-, hgroup⟩ := Option.ite_none_left_eq_some.mp hgroup
  obtain ⟨-, hother⟩ := Option.ite_none_left_eq_some.mp hother
  cases hgroup
  cases hother
  have hid : NodeId.kindGroup kind = .kindGroup other :=
    NodeId.Readable.text_inj trivial trivial htext
  exact hne (NodeId.kindGroup.inj hid)

end Group

/-- Scenarios that can be told apart wherever they stand: no two share both file and line, in
whatever spelling of the paths, and each knows the line of its feature. -/
structure Identifiable (scenarios : List Scenario) : Prop where
  places : (scenarios.map fun scenario =>
    (Path.normalize scenario.path.toList, scenario.line)).Nodup
  featureLines : ∀ scenario ∈ scenarios, ∃ line, scenario.featureLine = some line

namespace Identifiable

variable {scenarios : List Scenario}

theorem of_sublist {part : List Scenario} (h : Identifiable scenarios)
    (hpart : part.Sublist scenarios) : Identifiable part :=
  ⟨h.places.sublist (hpart.map _), fun scenario hmem => h.featureLines scenario (hpart.subset hmem)⟩

theorem lines (h : Identifiable scenarios) (path : String) :
    ((Group.ofFile scenarios path).map Scenario.line).Nodup := by
  apply Tree.nodup_lines_ofFile
  apply List.Nodup.of_map fun place : String × Nat => (Path.normalize place.1.toList, place.2)
  rw [List.map_map]
  exact h.places

theorem nodup_scenarioIds (h : Identifiable scenarios) :
    (scenarios.map Tree.scenarioId).Nodup := by
  have hapart := List.pairwise_map.mp h.places
  apply List.pairwise_map.mpr
  refine hapart.imp_of_mem ?_
  intro a b ha hb hne hids
  obtain ⟨line, hline⟩ := h.featureLines a ha
  obtain ⟨otherLine, hotherLine⟩ := h.featureLines b hb
  simp only [Tree.scenarioId, Scenario.resultKey?, hline, hotherLine, Option.map_some,
    ResultKey.ofPath] at hids
  obtain ⟨hpath, -, hlines⟩ := ResultKey.mk.inj (NodeId.scenario.inj hids)
  exact hne (Prod.ext (String.ofList_injective hpath) hlines)

theorem nodup_groupIds (h : Identifiable scenarios) (strategy : Strategy) :
    ((strategy.organize scenarios).map Group.id).Nodup := by
  unfold Strategy.organize
  split
  case h_2 => exact List.nodup_singleton _
  case h_1 groups hplace =>
    cases strategy with
    | tag => exact Group.nodup_ids_byTag hplace
    | file =>
      rw [Strategy.place_file] at hplace
      refine Group.nodup_ids_byFileAs (fun path _ other _ htext => ?_) hplace
      have hid : NodeId.fileGroup path = .fileGroup other :=
        NodeId.Readable.text_inj trivial trivial htext
      exact NodeId.fileGroup.inj hid
    | kind =>
      cases hplace
      exact Group.nodup_ids_byKind scenarios
    | flat =>
      cases hplace
      exact List.nodup_singleton _
    | feature =>
      rw [Strategy.place_feature] at hplace
      have hheader : ∀ path ∈ Group.distinctPaths scenarios, ∃ line,
          (Group.ofFile scenarios path).head?.bind Scenario.featureLine = some line := by
        intro path hpath
        obtain ⟨first, rest, hfile, hmem, -⟩ := Group.exists_cons_of_mem_distinctPaths hpath
        rw [hfile]
        exact h.featureLines first hmem
      refine Group.nodup_ids_byFileAs (fun path hpath other hother htext => ?_) hplace
      obtain ⟨line, hline⟩ := hheader path hpath
      obtain ⟨otherLine, hotherLine⟩ := hheader other hother
      rw [hline, hotherLine] at htext
      exact NodeId.path_eq_of_text_eq htext

end Identifiable

/-- The identifier of a leaf below a file, told from what it shows. -/
def Summary.lineId (summary : Summary) : NodeId := .scenarioOn (summary.line.getD 0)

namespace Tree

section Slots

variable {members part : List Scenario} {slots : List (Slot × Tree)} {slot : Slot} {tree : Tree}

theorem nodesOf_leaves (id : Scenario → NodeId) (scenarios : List Scenario) :
    nodesOf (scenarios.map fun scenario => leaf (id scenario) scenario) =
      scenarios.map fun scenario => leaf (id scenario) scenario := by
  induction scenarios with
  | nil => rfl
  | cons scenario rest ih => rw [List.map_cons, nodesOf, ih]; rfl

theorem ids_of_leaves {trees : List Tree}
    (h : ∀ tree ∈ trees, ∃ scenario ∈ members, tree = leaf (.scenarioOn scenario.line) scenario) :
    (nodesOf trees).map Tree.id = (summaries trees).map Summary.lineId := by
  induction trees with
  | nil => rfl
  | cons tree rest ih =>
    obtain ⟨scenario, -, rfl⟩ := h _ List.mem_cons_self
    rw [nodesOf, List.map_append, ih fun tree hmem => h tree (List.mem_cons_of_mem _ hmem),
      summaries_cons, List.map_append, summaries_leaf rfl]
    rfl

theorem ids_of_fills (hfills : Fills members slot tree) (hshows : Shows part slot tree) :
    ∃ own, tree.nodes.map Tree.id = own ++ part.map (fun scenario => .scenarioOn scenario.line) ∧
      (own = [] ∨ ∃ path featureLine line, slot = .outline line ∧
        own = [.outline path featureLine line]) := by
  have hpart : (part.map Scenario.summary).map Summary.lineId =
      part.map fun scenario => .scenarioOn scenario.line := by
    rw [List.map_map]
    rfl
  cases slot with
  | scenario line =>
    obtain ⟨scenario, hmem, rfl, rfl⟩ := hfills
    refine ⟨[], ?_, Or.inl rfl⟩
    have hleaf : ∀ tree ∈ [leaf (.scenarioOn scenario.line) scenario], ∃ own ∈ members,
        tree = leaf (.scenarioOn own.line) own :=
      fun tree htree => ⟨scenario, hmem, List.mem_singleton.mp htree⟩
    have hids := ids_of_leaves hleaf
    rw [hshows.summaries, hpart] at hids
    exact hids
  | outline line =>
    obtain ⟨⟨first, -, hid⟩, -, hchildren⟩ := hfills
    refine ⟨[tree.id], ?_, Or.inr ⟨_, _, line, rfl, by rw [hid]⟩⟩
    have hids := ids_of_leaves hchildren
    rw [← summaries_of_isGroup (hshows.isGroup line rfl), hshows.summaries, hpart] at hids
    rw [nodes_eq_cons, List.map_cons, hids]
    rfl

theorem nodup_ids_of_fills (hlines : (part.map Scenario.line).Nodup)
    (hfills : Fills members slot tree) (hshows : Shows part slot tree) :
    (tree.nodes.map Tree.id).Nodup := by
  have hleaves : (part.map fun scenario => NodeId.scenarioOn scenario.line).Nodup := by
    have hids := hlines.map (f := NodeId.scenarioOn) fun _ _ => NodeId.scenarioOn.inj
    rwa [List.map_map] at hids
  obtain ⟨own, hids, hown⟩ := ids_of_fills hfills hshows
  rw [hids]
  rcases hown with rfl | ⟨path, featureLine, line, -, rfl⟩
  · exact hleaves
  · exact List.nodup_cons.mpr ⟨by simp, hleaves⟩

theorem mem_ids_of_fills (hfills : Fills members slot tree) (hshows : Shows part slot tree)
    {id : NodeId} (h : id ∈ tree.nodes.map Tree.id) :
    (∃ path featureLine line, slot = .outline line ∧ id = .outline path featureLine line) ∨
      ∃ scenario ∈ part, id = .scenarioOn scenario.line := by
  obtain ⟨own, hids, hown⟩ := ids_of_fills hfills hshows
  rw [hids] at h
  rcases List.mem_append.mp h with h | h
  · rcases hown with rfl | ⟨path, featureLine, line, hslot, rfl⟩
    · cases h
    · exact Or.inl ⟨path, featureLine, line, hslot, List.mem_singleton.mp h⟩
  · obtain ⟨scenario, hmem, rfl⟩ := List.mem_map.mp h
    exact Or.inr ⟨scenario, hmem, rfl⟩

/-- Slots share no identifier: an outline's line is that of its slot, and a scenario's line tells
the scenario, which has one slot. -/
theorem Arranged.nodup_ids (h : Arranged members slots)
    (hfills : ∀ entry ∈ slots, Fills members entry.1 entry.2)
    (hlines : (members.map Scenario.line).Nodup) :
    ((nodesOf (slots.map Prod.snd)).map Tree.id).Nodup := by
  rw [nodesOf_eq_flatMap, List.flatMap_map, List.map_flatMap]
  apply List.nodup_flatMap.mpr
  constructor
  · intro entry hentry
    apply nodup_ids_of_fills _ (hfills entry hentry) (h.shows entry hentry)
    exact hlines.sublist (List.filter_sublist.map _)
  · have hkeys : (slots.map Prod.fst).Nodup := h.keys ▸ nodup_eraseDups _
    refine (List.pairwise_map.mp hkeys).imp_of_mem ?_
    intro a b ha hb hne id hida hidb
    rcases mem_ids_of_fills (hfills a ha) (h.shows a ha) hida with
      ⟨path, featureLine, line, hslot, rfl⟩ | ⟨scenario, hmem, rfl⟩
    · rcases mem_ids_of_fills (hfills b hb) (h.shows b hb) hidb with
        ⟨_, _, other, hother, heq⟩ | ⟨other, -, heq⟩
      · cases heq
        exact hne (hslot.trans hother.symm)
      · cases heq
    · rcases mem_ids_of_fills (hfills b hb) (h.shows b hb) hidb with
        ⟨_, _, other, -, heq⟩ | ⟨other, hother, heq⟩
      · cases heq
      · obtain ⟨hmem, hslot⟩ := List.mem_filter.mp hmem
        obtain ⟨hother, hotherSlot⟩ := List.mem_filter.mp hother
        obtain rfl := List.inj_on_of_nodup_map hlines hmem hother (NodeId.scenarioOn.inj heq)
        exact hne ((of_decide_eq_true hslot).symm.trans (of_decide_eq_true hotherSlot))

end Slots

section Roots

variable {strategy : Strategy} {scenarios : List Scenario} {group : Group} {tree : Tree}

theorem nodup_ids_of_ofFeatureGroup? (hlines : (group.scenarios.map Scenario.line).Nodup)
    (htree : ofFeatureGroup? group = some tree) : (tree.nodes.map Tree.id).Nodup := by
  obtain ⟨first, hfirst, rfl⟩ := Option.map_eq_some_iff.mp htree
  have harranged := arranged_foldl_addScenario group.scenarios hlines
  have hfills := fills_members group.scenarios
  rw [nodes_eq_cons, List.map_cons]
  refine List.nodup_cons.mpr ⟨?_, harranged.nodup_ids hfills hlines⟩
  intro hmem
  rw [nodesOf_eq_flatMap, List.flatMap_map, List.map_flatMap] at hmem
  obtain ⟨entry, hentry, hmem⟩ := List.mem_flatMap.mp hmem
  rcases mem_ids_of_fills (hfills entry hentry) (harranged.shows entry hentry) hmem with
    ⟨_, _, _, -, heq⟩ | ⟨_, -, heq⟩
  · cases heq
  · cases heq

theorem nodup_ids_of_ofGroup? {id : NodeId} (hid : group.id = id.text) (hreadable : id.Readable)
    (hgroup : id.isGroup = true) (hmembers : (group.scenarios.map scenarioId).Nodup)
    (htree : ofGroup? group = some tree) : (tree.nodes.map Tree.id).Nodup := by
  rw [ofGroup?, hid, hreadable.read_text] at htree
  obtain rfl := Option.some.inj htree
  rw [nodes_eq_cons, nodesOf_leaves, List.map_cons, List.map_map]
  refine List.nodup_cons.mpr ⟨?_, hmembers⟩
  intro hmem
  obtain ⟨scenario, -, heq⟩ := List.mem_map.mp hmem
  have hleaf := isGroup_scenarioId scenario
  rw [show scenarioId scenario = id from heq, hgroup] at hleaf
  cases hleaf

theorem nodup_ids_of_mem_ofScenarios (h : Identifiable scenarios)
    (hroot : tree ∈ ofScenarios strategy scenarios) : (tree.nodes.map Tree.id).Nodup := by
  obtain ⟨group, hgroup, htree⟩ := List.mem_filterMap.mp hroot
  split at htree
  case isTrue hfile =>
    obtain ⟨path, -, hmembers, -⟩ := Strategy.exists_first_of_mem_organize hgroup hfile
    exact nodup_ids_of_ofFeatureGroup? (hmembers ▸ h.lines path) htree
  case isFalse hother =>
    obtain ⟨id, hid, hreadable, hgroupId⟩ := Strategy.exists_readable_id hgroup hother
    have hmembers := h.of_sublist (Strategy.sublist_of_mem_organize hgroup)
    exact nodup_ids_of_ofGroup? hid hreadable hgroupId hmembers.nodup_scenarioIds htree

theorem map_text_of_forall₂ {groups : List Group} {trees : List Tree}
    (h : List.Forall₂ IsRootOf groups trees) :
    trees.map (·.id.text) = groups.map Group.id := by
  induction h with
  | nil => rfl
  | cons hroot _ ih => rw [List.map_cons, List.map_cons, hroot.id, ih]

theorem nodup_rootTexts (h : Identifiable scenarios) (strategy : Strategy) :
    ((ofScenarios strategy scenarios).map (·.id.text)).Nodup := by
  rw [map_text_of_forall₂ (forall₂_isRootOf strategy h.lines)]
  exact h.nodup_groupIds strategy

end Roots

theorem identifiable_of_features {features : List Feature}
    (hread : ∀ feature ∈ features, ∃ naming path text,
      Feature.ofText? naming path text = some feature)
    (hpaths : (features.map fun feature => Path.normalize feature.path.toList).Nodup) :
    Identifiable (features.flatMap Feature.scenarios) := by
  have hsorted : ∀ feature ∈ features, feature.Sorted := by
    intro feature hmem
    obtain ⟨naming, path, text, hread⟩ := hread feature hmem
    exact Feature.sorted_of_ofText? hread
  constructor
  · rw [List.map_flatMap]
    apply List.nodup_flatMap.mpr
    constructor
    · intro feature hmem
      apply List.Nodup.of_map Prod.snd
      rw [List.map_map]
      exact (hsorted feature hmem).lines
    · refine (List.pairwise_map.mp hpaths).imp_of_mem ?_
      intro a b ha hb hne place hplace hother
      obtain ⟨scenario, hscenario, rfl⟩ := List.mem_map.mp hplace
      obtain ⟨other, hother, heq⟩ := List.mem_map.mp hother
      have hsame := congrArg Prod.fst heq
      dsimp only at hsame
      rw [(hsorted a ha).paths scenario hscenario, (hsorted b hb).paths other hother] at hsame
      exact hne hsame.symm
  · intro scenario hmem
    obtain ⟨feature, hfeature, hmem⟩ := List.mem_flatMap.mp hmem
    obtain ⟨naming, path, text, hread⟩ := hread feature hfeature
    obtain ⟨name, above, header, below, -, rfl⟩ := Layout.exists_of_ofText? hread
    exact ⟨header.number, (Layout.origin_of_mem_scenariosOf hmem).2.1⟩

/-- What is read from files with paths of their own gives a tree under every strategy in which nodes
are told apart: the roots by their identifiers, also as written, and the nodes below one root by
theirs. So a search below a root finds the one node that goes by an identifier. -/
theorem ids_of_features {features : List Feature}
    (hread : ∀ feature ∈ features, ∃ naming path text,
      Feature.ofText? naming path text = some feature)
    (hpaths : (features.map fun feature => Path.normalize feature.path.toList).Nodup)
    (strategy : Strategy) :
    let roots := ofScenarios strategy (features.flatMap Feature.scenarios)
    (roots.map Tree.id).Nodup ∧ (roots.map (·.id.text)).Nodup ∧
      ∀ root ∈ roots, (root.nodes.map Tree.id).Nodup ∧
        ∀ id node, root.find? id = some node ↔ node ∈ root.nodes ∧ node.id = id := by
  intro roots
  have hscenarios := identifiable_of_features hread hpaths
  have htexts := nodup_rootTexts hscenarios strategy
  refine ⟨?_, htexts, fun root hroot => ?_⟩
  · apply List.Nodup.of_map NodeId.text
    rwa [List.map_map]
  · have hids := nodup_ids_of_mem_ofScenarios hscenarios hroot
    exact ⟨hids, fun id node => find?_eq_some_iff hids⟩

theorem ids_of_features_of_two_files :
    let text := "Feature: F\nScenario Outline: O\nExamples:\n|x|\n|1|\nScenario: S"
    let features := ["a.feature", "b.feature"].filterMap fun path => Feature.ofText? {} path text
    let roots := ofScenarios .feature (features.flatMap Feature.scenarios)
    (roots.map fun root => root.nodes.map Tree.id) =
        [[.feature "a.feature" (some 1), .outline "a.feature" 1 2, .scenarioOn 5, .scenarioOn 6],
          [.feature "b.feature" (some 1), .outline "b.feature" 1 2, .scenarioOn 5, .scenarioOn 6]] ∧
      (roots.map (·.id.text)).Nodup ∧
      ∀ root ∈ roots, ∀ node ∈ root.nodes, root.find? node.id = some node := by
  intro text features roots
  have hread : ∀ feature ∈ features, ∃ naming path text,
      Feature.ofText? naming path text = some feature := by
    intro feature hmem
    obtain ⟨path, -, hread⟩ := List.mem_filterMap.mp hmem
    exact ⟨_, _, _, hread⟩
  have hpaths : (features.map fun feature => Path.normalize feature.path.toList).Nodup := by
    decide +kernel
  obtain ⟨-, htexts, hnodes⟩ := ids_of_features hread hpaths .feature
  refine ⟨by decide +kernel, htexts, fun root hroot node hnode => ?_⟩
  exact ((hnodes root hroot).2 node.id node).mpr ⟨hnode, rfl⟩

end Tree

end ScenarioAtlas
