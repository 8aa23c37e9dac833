import ScenarioAtlas.Proofs.Feature.RunnableLines
import ScenarioAtlas.Proofs.Group.Parts
import ScenarioAtlas.Proofs.Tree.Contents

/-!
# Nothing is lost in a test tree

Each group has its root, and each scenario is shown as often as it stands in a group. For the
scenarios of feature files as read, one file after the other, the tree by feature even keeps the
order: files are in one piece because their paths differ, and inside a file the examples of an
outline are in one piece because all of them come from the block below its header.
-/

namespace ScenarioAtlas

set_option autoImplicit false

namespace Layout

variable (naming : Naming) (path : String) (featureLine : Nat)

/-- All that a line stands for has one slot, which is on that line. -/
theorem exists_slot_of_ofHeader (above : List Line) (header : Line) (below : List Line) :
    ∃ slot : Tree.Slot, slot.line = header.number ∧
      ∀ scenario ∈ ofHeader naming path featureLine above header below,
        Tree.slotOf scenario = slot := by
  cases hkind : header.kind with
  | scenario name =>
    refine ⟨.scenario header.number, rfl, fun scenario hmem => ?_⟩
    simp only [ofHeader, hkind] at hmem
    rw [List.mem_singleton.mp hmem]
    rfl
  | outline name =>
    by_cases hrows : usableRows (Line.body below) = []
    · refine ⟨.scenario header.number, rfl, fun scenario hmem => ?_⟩
      simp only [ofHeader, hkind, ofOutline_of_rowless hrows] at hmem
      rw [List.mem_singleton.mp hmem]
      rfl
    · refine ⟨.outline header.number, rfl, fun scenario hmem => ?_⟩
      simp only [ofHeader, hkind, ofOutline_of_rows hrows] at hmem
      obtain ⟨k, _, rfl⟩ := List.mem_mapIdx.mp hmem
      rfl
  | _ =>
    refine ⟨.scenario header.number, rfl, fun scenario hmem => ?_⟩
    simp [ofHeader, hkind] at hmem

/-- The scenarios of a file are sorted by their slots. -/
theorem groupedBy_scenariosOf (above : List Line) {below : List Line}
    (hascending : below.Pairwise (·.number < ·.number)) :
    groupedBy Tree.slotOf (scenariosOf naming path featureLine above below) =
      scenariosOf naming path featureLine above below := by
  induction below generalizing above with
  | nil => rfl
  | cons line rest ih =>
    obtain ⟨hfirst, hrest⟩ := List.pairwise_cons.mp hascending
    obtain ⟨slot, hslot, hown⟩ := exists_slot_of_ofHeader naming path featureLine above line rest
    have hsplit : scenariosOf naming path featureLine above (line :: rest) =
        ofHeader naming path featureLine above line rest ++
          scenariosOf naming path featureLine (above ++ [line]) rest := rfl
    rw [hsplit, groupedBy_append, ih (above ++ [line]) hrest, groupedBy_eq_self]
    · intro scenario hmem other hother
      rw [hown scenario hmem, hown other hother]
    · intro scenario hmem other hother hsame
      obtain ⟨before, header, after, hheader, hother⟩ := mem_scenariosOf_iff.mp hother
      obtain ⟨otherSlot, hotherSlot, hotherOwn⟩ := exists_slot_of_ofHeader naming path featureLine
        (above ++ [line] ++ before) header after
      rw [hown scenario hmem, hotherOwn other hother] at hsame
      have hlater := hfirst header (hheader ▸ List.mem_append_right _ List.mem_cons_self)
      rw [← hslot, ← hotherSlot, hsame] at hlater
      exact Nat.lt_irrefl _ hlater

end Layout

/-- The scenarios of a feature are those of its own file, each on a line of its own, and sorted by
their slots. -/
structure Feature.Sorted (feature : Feature) : Prop where
  paths : ∀ scenario ∈ feature.scenarios, scenario.path = feature.path
  lines : (feature.scenarios.map Scenario.line).Nodup
  slots : groupedBy Tree.slotOf feature.scenarios = feature.scenarios

theorem Feature.sorted_of_ofText? {naming : Naming} {path text : String} {feature : Feature}
    (h : Feature.ofText? naming path text = some feature) : feature.Sorted := by
  obtain ⟨name, above, header, below, hheader, rfl⟩ := Layout.exists_of_ofText? h
  constructor
  · intro scenario hmem
    exact (Layout.origin_of_mem_scenariosOf hmem).1
  · exact (hheader.scenarios_ascending naming path).imp Nat.ne_of_lt
  · exact Layout.groupedBy_scenariosOf naming path header.number (above ++ [header])
      (List.pairwise_cons.mp hheader.ascending).2

section Files

variable {features : List Feature}

theorem Group.ofFile_eq_nil_or (hpaths : (features.map Feature.path).Nodup)
    (hsorted : ∀ feature ∈ features, feature.Sorted) (path : String) :
    Group.ofFile (features.flatMap Feature.scenarios) path = [] ∨
      ∃ feature ∈ features,
        Group.ofFile (features.flatMap Feature.scenarios) path = feature.scenarios := by
  have hnone {others : List Feature} (hmem : others ⊆ features)
      (hne : path ∉ others.map Feature.path) :
      Group.ofFile (others.flatMap Feature.scenarios) path = [] := by
    apply List.filter_eq_nil_iff.mpr
    intro scenario hscenario
    obtain ⟨other, hother, hscenario⟩ := List.mem_flatMap.mp hscenario
    rw [(hsorted other (hmem hother)).paths scenario hscenario, decide_eq_true_iff]
    exact fun heq => hne (heq ▸ List.mem_map_of_mem hother)
  by_cases h : path ∈ features.map Feature.path
  · obtain ⟨feature, hmem, rfl⟩ := List.mem_map.mp h
    refine Or.inr ⟨feature, hmem, ?_⟩
    obtain ⟨before, after, rfl⟩ := List.append_of_mem hmem
    rw [List.map_append, List.map_cons] at hpaths
    obtain ⟨-, hafter, hapart⟩ := List.nodup_append.mp hpaths
    have hbefore : feature.path ∉ before.map Feature.path :=
      fun hmem => hapart _ hmem _ List.mem_cons_self rfl
    have hown : Group.ofFile feature.scenarios feature.path = feature.scenarios :=
      List.filter_eq_self.mpr fun scenario hscenario =>
        decide_eq_true ((hsorted feature hmem).paths scenario hscenario)
    have hsplit :
        Group.ofFile ((before ++ feature :: after).flatMap Feature.scenarios) feature.path =
          Group.ofFile (before.flatMap Feature.scenarios) feature.path ++
            (Group.ofFile feature.scenarios feature.path ++
              Group.ofFile (after.flatMap Feature.scenarios) feature.path) := by
      simp only [Group.ofFile, List.flatMap_append, List.flatMap_cons, List.filter_append]
    rw [hsplit, hown, hnone (List.subset_append_left _ _) hbefore,
      hnone (fun other hother => List.mem_append_right _ (List.mem_cons_of_mem _ hother))
        (List.nodup_cons.mp hafter).1, List.nil_append, List.append_nil]
  · exact Or.inl (hnone (List.Subset.refl _) h)

theorem Group.ofFile_sorted (hpaths : (features.map Feature.path).Nodup)
    (hsorted : ∀ feature ∈ features, feature.Sorted) (path : String) :
    ((Group.ofFile (features.flatMap Feature.scenarios) path).map Scenario.line).Nodup ∧
      groupedBy Tree.slotOf (Group.ofFile (features.flatMap Feature.scenarios) path) =
        Group.ofFile (features.flatMap Feature.scenarios) path := by
  rcases Group.ofFile_eq_nil_or hpaths hsorted path with hnone | ⟨feature, hmem, hown⟩
  · rw [hnone]
    exact ⟨List.nodup_nil, rfl⟩
  · rw [hown]
    exact ⟨(hsorted feature hmem).lines, (hsorted feature hmem).slots⟩

theorem groupedBy_path (hpaths : (features.map Feature.path).Nodup)
    (hsorted : ∀ feature ∈ features, feature.Sorted) :
    groupedBy Scenario.path (features.flatMap Feature.scenarios) =
      features.flatMap Feature.scenarios :=
  groupedBy_flatMap (fun feature hmem => (hsorted feature hmem).paths) hpaths

end Files

namespace Tree

section Roots

variable {strategy : Strategy} {scenarios : List Scenario} {group : Group}

/-- Each group has its root. It shows the scenarios of the group in their order, or sorted by slots
if it stands for a file. -/
theorem exists_root (hlines : ∀ path, ((Group.ofFile scenarios path).map Scenario.line).Nodup)
    (h : group ∈ strategy.organize scenarios) :
    ∃ tree, (if strategy.isHierarchical ∧ group.id ≠ NodeId.all.text then ofFeatureGroup? group
        else ofGroup? group) = some tree ∧
      IsRootOf group tree ∧
      (groupedBy slotOf group.scenarios = group.scenarios →
        summaries [tree] = group.scenarios.map Scenario.summary) := by
  split
  case isTrue hroot =>
    obtain ⟨path, first, hmembers, hfirst, hid⟩ := Strategy.exists_first_of_mem_organize h hroot
    obtain ⟨tree, htree, hroot, hsummaries⟩ :=
      exists_ofFeatureGroup? hfirst hid (hmembers ▸ hlines path)
    exact ⟨tree, htree, hroot, fun hsorted => by rw [hsummaries, hsorted]⟩
  case isFalse hroot =>
    obtain ⟨id, hid, hreadable, hgroup⟩ := Strategy.exists_readable_id h hroot
    obtain ⟨tree, htree, hroot, hsummaries⟩ := exists_ofGroup? hid hreadable hgroup
    exact ⟨tree, htree, hroot, fun _ => hsummaries⟩

theorem forall₂_filterMap {α β : Type} {R : α → β → Prop} {f : α → Option β} {l : List α}
    (h : ∀ a ∈ l, ∃ b, f a = some b ∧ R a b) : List.Forall₂ R l (l.filterMap f) := by
  induction l with
  | nil => exact .nil
  | cons a l ih =>
    obtain ⟨b, hb, hab⟩ := h a List.mem_cons_self
    rw [List.filterMap_cons_some hb]
    exact .cons hab (ih fun c hc => h c (List.mem_cons_of_mem a hc))

theorem forall₂_isRootOf (strategy : Strategy)
    (hlines : ∀ path, ((Group.ofFile scenarios path).map Scenario.line).Nodup) :
    List.Forall₂ IsRootOf (strategy.organize scenarios) (ofScenarios strategy scenarios) := by
  apply forall₂_filterMap
  intro group hmem
  obtain ⟨tree, htree, hroot, -⟩ := exists_root hlines hmem
  exact ⟨tree, htree, hroot⟩

theorem summaries_perm {groups : List Group} {trees : List Tree}
    (h : List.Forall₂ IsRootOf groups trees) :
    (summaries trees).Perm ((groups.flatMap Group.scenarios).map Scenario.summary) := by
  induction h with
  | nil => exact .nil
  | cons hroot _ ih =>
    rw [summaries_cons, List.flatMap_cons, List.map_append]
    exact hroot.summaries.append ih

theorem summaries_eq {groups : List Group} {trees : List Tree}
    (h : List.Forall₂ (fun group tree => summaries [tree] = group.scenarios.map Scenario.summary)
      groups trees) :
    summaries trees = (groups.flatMap Group.scenarios).map Scenario.summary := by
  induction h with
  | nil => rfl
  | cons hroot _ ih => rw [summaries_cons, List.flatMap_cons, List.map_append, hroot, ih]

/-- The tree by feature keeps the order of scenarios that come file after file, each file sorted. -/
theorem summaries_of_sorted {features : List Feature}
    (hsorted : ∀ feature ∈ features, feature.Sorted) (hpaths : (features.map Feature.path).Nodup)
    (hnamed : ∀ feature ∈ features, Text.allBlank feature.path.toList = false) :
    summaries (ofScenarios .feature (features.flatMap Feature.scenarios)) =
      (features.flatMap Feature.scenarios).map Scenario.summary := by
  have hfile := Group.ofFile_sorted hpaths hsorted
  have hblank : ∀ scenario ∈ features.flatMap Feature.scenarios,
      Text.allBlank scenario.path.toList = false := by
    intro scenario hmem
    obtain ⟨feature, hfeature, hmem⟩ := List.mem_flatMap.mp hmem
    rw [(hsorted feature hfeature).paths scenario hmem]
    exact hnamed feature hfeature
  obtain ⟨groups, hgroups⟩ := Group.isOk_byFileAs hblank
  have horganize : Strategy.feature.organize (features.flatMap Feature.scenarios) = groups := by
    rw [Strategy.organize, Strategy.place_feature, hgroups]
  have hroots : List.Forall₂ (fun group tree =>
      summaries [tree] = group.scenarios.map Scenario.summary) groups
      (ofScenarios .feature (features.flatMap Feature.scenarios)) := by
    rw [ofScenarios, ofGroups, horganize]
    apply forall₂_filterMap
    intro group hmem
    obtain ⟨path, -, -, hmembers⟩ := Group.exists_path_of_mem_byFileAs hgroups hmem
    obtain ⟨tree, htree, -, hsummaries⟩ :=
      exists_root (fun path => (hfile path).1) (horganize ▸ hmem)
    refine ⟨tree, htree, hsummaries ?_⟩
    rw [hmembers]
    exact (hfile path).2
  rw [summaries_eq hroots, Group.members_of_byFileAs hgroups, groupedBy_path hpaths hsorted]

end Roots

/-- Scenarios no two of which share both path and line are shown under every strategy, below one
root for each group, as often as they stand in a group: once, or once for each tag under the
strategy by tag. The scenarios of feature files as read are shown by feature in their own order. -/
theorem shows_every_scenario :
    (∀ (strategy : Strategy) (scenarios : List Scenario),
      (scenarios.map fun scenario => (scenario.path, scenario.line)).Nodup →
        List.Forall₂ IsRootOf (strategy.organize scenarios) (ofScenarios strategy scenarios) ∧
        (summaries (ofScenarios strategy scenarios)).Perm
          ((scenarios.flatMap fun scenario =>
            List.replicate (strategy.copies scenarios scenario) scenario).map Scenario.summary)) ∧
    ∀ features : List Feature,
      (∀ feature ∈ features, ∃ naming path text,
        Feature.ofText? naming path text = some feature) →
      (features.map Feature.path).Nodup →
      (∀ feature ∈ features, Text.allBlank feature.path.toList = false) →
        summaries (ofScenarios .feature (features.flatMap Feature.scenarios)) =
          (features.flatMap Feature.scenarios).map Scenario.summary := by
  constructor
  · intro strategy scenarios hplaces
    have hroots := forall₂_isRootOf strategy (nodup_lines_ofFile hplaces)
    refine ⟨hroots, (summaries_perm hroots).trans ?_⟩
    exact (strategy.members_perm scenarios).map Scenario.summary
  · intro features hread hpaths hnamed
    refine summaries_of_sorted (fun feature hmem => ?_) hpaths hnamed
    obtain ⟨naming, path, text, hread⟩ := hread feature hmem
    exact Feature.sorted_of_ofText? hread

theorem shows_every_scenario_of_two_files :
    let tagged := { Scenario.new "A" "a.feature" 2 with tags := ["@x", "@y", "@x"] }
    let plain := Scenario.new "B" "a.feature" 4
    (summaries (ofScenarios .tag [tagged, plain])).Perm
      [tagged.summary, tagged.summary, plain.summary] ∧
    ∃ features : List Feature, features.map Feature.path = ["a.feature", "b.feature"] ∧
      summaries (ofScenarios .feature (features.flatMap Feature.scenarios)) =
        (features.flatMap Feature.scenarios).map Scenario.summary := by
  intro tagged plain
  constructor
  · exact (shows_every_scenario.1 .tag _ (by decide)).2.trans (.of_eq (by decide +kernel))
  · have hfirst : (Feature.ofText? {} "a.feature"
        "Feature: F\nScenario Outline: O\nExamples:\n|x|\n|1|\nScenario: S").map Feature.path =
          some "a.feature" := by
      decide +kernel
    have hsecond : (Feature.ofText? {} "b.feature" "Feature: G\nScenario: T").map Feature.path =
        some "b.feature" := by
      decide +kernel
    obtain ⟨first, hfirst, hpath⟩ := Option.map_eq_some_iff.mp hfirst
    obtain ⟨second, hsecond, hother⟩ := Option.map_eq_some_iff.mp hsecond
    refine ⟨[first, second], by simp [hpath, hother], shows_every_scenario.2 _ ?_ ?_ ?_⟩
    · intro feature hmem
      rcases List.mem_pair.mp hmem with rfl | rfl
      · exact ⟨_, _, _, hfirst⟩
      · exact ⟨_, _, _, hsecond⟩
    · simp [hpath, hother]
    · intro feature hmem
      rcases List.mem_pair.mp hmem with rfl | rfl
      · rw [hpath]
        decide
      · rw [hother]
        decide

end Tree

end ScenarioAtlas
