import ScenarioAtlas.Proofs.Feature.RunnableLines
import ScenarioAtlas.Proofs.Status.References
import ScenarioAtlas.Proofs.Tree.Completeness
import ScenarioAtlas.Proofs.Tree.Placement

/-!
# Results reach their own scenarios

With results that were reported for scenarios of the tree, each leaf finds the result under the key
of its own scenario and no other. The key that a leaf and the node above it spell out is that key.
If it has no result, then neither does a search by file and line find one, since no colon in the
path of a file leaves room for a key that only looks the same. And no scenario is without its leaf.
-/

namespace ScenarioAtlas

set_option autoImplicit false

def Scenario.pathIn (root : String) (scenario : Scenario) : List Char :=
  Path.relativeTo scenario.path.toList root.toList

/-- The key that the outcome of a scenario is reported under in the workspace at `root`. -/
def Scenario.keyIn? (root : String) (scenario : Scenario) : Option ResultKey :=
  scenario.featureLine.map fun featureLine =>
    .ofPath (String.ofList (scenario.pathIn root)) featureLine scenario.line

namespace Results

/-- What was reported for a scenario under its own key. -/
def own? {α : Type} (results : Results α) (root : String) (scenario : Scenario) : Option α := do
  results.lookup (← scenario.keyIn? root).text

/-- The results of some of the scenarios and of nothing else. -/
def AreOf {α : Type} (results : Results α) (root : String) (scenarios : List Scenario) : Prop :=
  ∀ entry ∈ results, ∃ scenario ∈ scenarios, ∃ key,
    scenario.keyIn? root = some key ∧ entry.1 = key.text

/-- Scenarios that can be told apart by their keys: their lines can be read back, the paths of their
files end as those of feature files do and have no colon, and a path stands for one file. -/
structure Distinct (root : String) (scenarios : List Scenario) : Prop where
  line_lt : ∀ scenario ∈ scenarios, scenario.line < Text.numberBound
  featureLine : ∀ scenario ∈ scenarios, ∃ featureLine,
    scenario.featureLine = some featureLine ∧ featureLine < Text.numberBound
  named : ∀ scenario ∈ scenarios, ".feature".toList <:+ scenario.pathIn root
  noColon : ∀ scenario ∈ scenarios, ':' ∉ scenario.pathIn root
  noBreak : ∀ scenario ∈ scenarios, '\n' ∉ scenario.path.toList
  sameFile : ∀ a ∈ scenarios, ∀ b ∈ scenarios, a.pathIn root = b.pathIn root →
    a.path = b.path ∧ a.featureLine = b.featureLine

variable {α : Type} {results : Results α} {root : String} {scenarios : List Scenario}
variable {scenario : Scenario} {featureLine : Nat}

theorem keyIn?_eq (root : String) (h : scenario.featureLine = some featureLine) :
    scenario.keyIn? root =
      some (.ofPath (String.ofList (scenario.pathIn root)) featureLine scenario.line) := by
  simp [Scenario.keyIn?, h]

theorem toList_keyIn (line : Nat) :
    (ResultKey.ofPath (String.ofList (scenario.pathIn root)) featureLine line).text.toList =
      scenario.pathIn root ++ ':' :: Text.writeNumber featureLine ++
        ':' :: Text.writeNumber line := by
  simp [ResultKey.toList_text, ResultKey.ofPath, Scenario.pathIn, Path.normalize_relativeTo]

/-- A key of one of the scenarios in the file and on the line of another is the key of that one. -/
theorem Distinct.key_eq (h : Distinct root scenarios) {other : Scenario} {key found : ResultKey}
    (hscenario : scenario ∈ scenarios) (hother : other ∈ scenarios)
    (hkey : scenario.keyIn? root = some key) (hfound : other.keyIn? root = some found)
    (hstart : scenario.pathIn root ++ [':'] <+: found.text.toList)
    (hend : lineSuffix scenario.line <:+ found.text.toList) : found = key := by
  obtain ⟨featureLine, hline, -⟩ := h.featureLine scenario hscenario
  obtain ⟨otherLine, hotherLine, -⟩ := h.featureLine other hother
  rw [keyIn?_eq root hline] at hkey
  rw [keyIn?_eq root hotherLine] at hfound
  obtain rfl := Option.some.inj hkey
  obtain rfl := Option.some.inj hfound
  rw [toList_keyIn] at hstart hend
  obtain ⟨rest, hrest⟩ := hstart
  rw [List.append_assoc, List.append_assoc, List.singleton_append, List.cons_append] at hrest
  obtain ⟨hpath, -⟩ :=
    Text.append_cons_inj (h.noColon scenario hscenario) (h.noColon other hother) hrest
  obtain ⟨before, hbefore⟩ := hend
  have hcut := Text.cutLast?_append (Text.colon_not_mem_writeNumber scenario.line) before
  rw [show before ++ ':' :: Text.writeNumber scenario.line = _ from hbefore,
    Text.cutLast?_append (Text.colon_not_mem_writeNumber other.line)] at hcut
  obtain ⟨-, hlines⟩ := Prod.mk.inj (Option.some.inj hcut)
  obtain ⟨-, hfile⟩ := h.sameFile scenario hscenario other hother hpath
  rw [hline, hotherLine] at hfile
  rw [Option.some.inj hfile, hpath, Text.writeNumber_injective hlines]

theorem Distinct.eq_of_keyIn?_eq (h : Distinct root scenarios) {a b : Scenario}
    (ha : a ∈ scenarios) (hb : b ∈ scenarios)
    (hkeys : (a.keyIn? root).map ResultKey.text = (b.keyIn? root).map ResultKey.text) :
    a.pathIn root = b.pathIn root ∧ a.line = b.line := by
  obtain ⟨la, hla, -⟩ := h.featureLine a ha
  obtain ⟨lb, hlb, -⟩ := h.featureLine b hb
  have hkeya := keyIn?_eq root hla
  have hkeyb := keyIn?_eq root hlb
  rw [hkeya, hkeyb] at hkeys
  have htext := Option.some.inj hkeys
  have hstart : a.pathIn root ++ [':'] <+:
      (ResultKey.ofPath (String.ofList (b.pathIn root)) lb b.line).text.toList := by
    rw [← htext, toList_keyIn]
    exact ⟨Text.writeNumber la ++ ':' :: Text.writeNumber a.line, by simp⟩
  have hend : lineSuffix a.line <:+
      (ResultKey.ofPath (String.ofList (b.pathIn root)) lb b.line).text.toList := by
    rw [← htext, toList_keyIn]
    exact List.suffix_append _ _
  have hkey := h.key_eq ha hb hkeya hkeyb hstart hend
  simp only [ResultKey.ofPath, String.toList_ofList, Scenario.pathIn,
    Path.normalize_relativeTo] at hkey
  obtain ⟨hpath, -, hline⟩ := ResultKey.mk.inj hkey
  exact ⟨(String.ofList_injective hpath).symm, hline.symm⟩

theorem unique?_eq_none {accept : List Char → Bool}
    (h : ∀ entry ∈ results, accept entry.1.toList = false) : results.unique? accept = none := by
  unfold unique?
  rw [List.filter_eq_nil_iff.mpr]
  intro entry hentry
  simpa using h entry hentry

theorem mem_of_lookup_eq_none {key : String} (h : results.lookup key = none) :
    ∀ entry ∈ results, entry.1 ≠ key := by
  intro entry hentry heq
  have hother := List.lookup_eq_none_iff.mp h entry hentry
  simp [heq] at hother

/-- A reference to the file and the line of a scenario finds the result of the scenario. -/
theorem Distinct.reconcile_eq (h : Distinct root scenarios)
    (hresults : results.AreOf root scenarios) (hscenario : scenario ∈ scenarios)
    {key : ResultKey} (hkey : scenario.keyIn? root = some key) {child parent : String}
    {reference : ScenarioRef} {path : List Char}
    (hread : ScenarioRef.read? child.toList = some reference)
    (hdirect : directKey? reference (FileRef.read? parent.toList) root.toList = some key)
    (hline : reference.line = scenario.line)
    (hpath : reference.path?.or ((FileRef.read? parent.toList).map FileRef.path) = some path)
    (hrelative : Path.relativeTo path root.toList = scenario.pathIn root)
    (htrailing : trailingFile? child.toList = none) :
    results.reconcile child parent root = results.own? root scenario := by
  have hnamed : results.byFileName? child.toList = none := by simp [byFileName?, htrailing]
  have hown : results.own? root scenario = results.lookup key.text := by simp [own?, hkey]
  have hreconcile : results.reconcile child parent root =
      (results.lookup key.text).or
        (results.inFile? reference (FileRef.read? parent.toList) root.toList) := by
    simp [reconcile, hread, hdirect, hnamed]
  rw [hown, hreconcile]
  cases hlookup : results.lookup key.text with
  | some value => rfl
  | none =>
    rw [Option.none_or]
    have hscan : results.inFile? reference (FileRef.read? parent.toList) root.toList =
        results.unique? fun text =>
          (scenario.pathIn root ++ [':']).isPrefixOf text &&
            (lineSuffix scenario.line).isSuffixOf text := by
      simp [inFile?, hpath, hrelative, hline]
    rw [hscan]
    refine unique?_eq_none fun entry hentry => ?_
    obtain ⟨other, hother, found, hfound, hentryKey⟩ := hresults entry hentry
    rw [Bool.eq_false_iff]
    intro haccept
    rw [Bool.and_eq_true, List.isPrefixOf_iff_prefix, List.isSuffixOf_iff_suffix,
      hentryKey] at haccept
    obtain ⟨hstart, hend⟩ := haccept
    have hsame := h.key_eq hscenario hother hkey hfound hstart hend
    exact mem_of_lookup_eq_none hlookup entry hentry (hsame ▸ hentryKey)

theorem Distinct.feature_suffix (h : Distinct root scenarios) (hscenario : scenario ∈ scenarios) :
    ".feature".toList <:+ Path.normalize scenario.path.toList :=
  (h.named scenario hscenario).trans (Path.relativeTo_suffix _ _)

theorem Distinct.reconcile_byKey (h : Distinct root scenarios)
    (hresults : results.AreOf root scenarios) (hscenario : scenario ∈ scenarios) (parent : String) :
    results.reconcile (Tree.scenarioId scenario).text parent root = results.own? root scenario := by
  obtain ⟨featureLine, hline, hfeature⟩ := h.featureLine scenario hscenario
  have hid : (Tree.scenarioId scenario).text.toList =
      Path.normalize scenario.path.toList ++ ':' :: Text.writeNumber featureLine ++
        ':' :: Text.writeNumber scenario.line := by
    simp [Tree.scenarioId, Scenario.resultKey?, hline, NodeId.text, ResultKey.toList_text,
      ResultKey.ofPath]
  have hbreak : '\n' ∉ Path.normalize scenario.path.toList := fun hmem =>
    h.noBreak scenario hscenario (Path.mem_normalize (by decide) hmem)
  have hread := ScenarioRef.read?_key (h.feature_suffix hscenario) hbreak hfeature
    (h.line_lt scenario hscenario)
  rw [← hid] at hread
  refine h.reconcile_eq hresults hscenario (keyIn?_eq root hline) hread ?_ rfl rfl ?_ ?_
  · simp [directKey?, ResultKey.ofPath, Path.normalize_normalize, Path.relativeTo_normalize,
      Scenario.pathIn]
  · simp [ResultKey.ofPath, Path.normalize_normalize, Path.relativeTo_normalize, Scenario.pathIn]
  · rw [hid]
    exact trailingFile?_key _ _ _

theorem Distinct.feature_suffix_path (h : Distinct root scenarios)
    (hscenario : scenario ∈ scenarios) : ".feature".toList <:+ scenario.path.toList :=
  Path.suffix_of_suffix_normalize (by decide) (h.feature_suffix hscenario)

theorem Distinct.reconcile_onLine (h : Distinct root scenarios)
    (hresults : results.AreOf root scenarios) (hscenario : scenario ∈ scenarios)
    (hline : scenario.featureLine = some featureLine) {parent : String}
    (hfile : FileRef.read? parent.toList = some ⟨scenario.path.toList, some featureLine⟩) :
    results.reconcile (NodeId.scenarioOn scenario.line).text parent root =
      results.own? root scenario := by
  have hid : (NodeId.scenarioOn scenario.line).text.toList =
      ':' :: Text.writeNumber scenario.line := NodeId.toList_lineSegment _
  have hread : ScenarioRef.read? (NodeId.scenarioOn scenario.line).text.toList =
      some (.onLine scenario.line) := by
    rw [hid]
    exact ScenarioRef.read?_line (h.line_lt scenario hscenario)
  have hpath : (ScenarioRef.onLine scenario.line).path?.or
      ((FileRef.read? parent.toList).map FileRef.path) = some scenario.path.toList := by
    simp [hfile, ScenarioRef.path?]
  refine h.reconcile_eq hresults hscenario (keyIn?_eq root hline) hread ?_ rfl hpath rfl ?_
  · simp [directKey?, hfile, Scenario.pathIn]
  · rw [hid]
    exact trailingFile?_line _

/-- Wherever the leaf of a scenario stands, it finds the result of that scenario. -/
theorem Distinct.reconcile_placed (h : Distinct root scenarios)
    (hresults : results.AreOf root scenarios) {parent : String} {leaf : Tree}
    (hplaced : Tree.Placed scenarios parent leaf) :
    ∃ scenario ∈ scenarios, leaf = Tree.leaf leaf.id scenario ∧
      results.reconcile leaf.id.text parent root = results.own? root scenario := by
  have hfile {scenario first : Scenario} (hscenario : scenario ∈ scenarios)
      (hfirst : first ∈ scenarios) (hpath : first.path = scenario.path) :
      ∃ featureLine < Text.numberBound, scenario.featureLine = some featureLine ∧
        first.featureLine = some featureLine := by
    have hsame := h.sameFile first hfirst scenario hscenario (by simp [Scenario.pathIn, hpath])
    obtain ⟨featureLine, hline, hlt⟩ := h.featureLine scenario hscenario
    exact ⟨featureLine, hlt, hline, hsame.2.trans hline⟩
  cases hplaced with
  | byKey _ hscenario => exact ⟨_, hscenario, rfl, h.reconcile_byKey hresults hscenario parent⟩
  | inFile hscenario hfirst hpath =>
    obtain ⟨featureLine, hlt, hline, hfirstLine⟩ := hfile hscenario hfirst hpath
    refine ⟨_, hscenario, rfl, h.reconcile_onLine hresults hscenario hline ?_⟩
    rw [hfirstLine, NodeId.text, hpath, String.toList_append, NodeId.toList_lineSegment]
    exact FileRef.read?_feature (h.feature_suffix_path hscenario) (h.noBreak _ hscenario) hlt
  | inOutline outlineLine hscenario hfirst hpath =>
    obtain ⟨featureLine, hlt, hline, hfirstLine⟩ := hfile hscenario hfirst hpath
    refine ⟨_, hscenario, rfl, h.reconcile_onLine hresults hscenario hline ?_⟩
    have hread := FileRef.read?_outline (h.feature_suffix_path hscenario)
      (h.noBreak _ hscenario) hlt outlineLine
    simpa [hfirstLine, NodeId.text, hpath, NodeId.toList_lineSegment] using hread

end Results

section Features

variable {root : String} {features : List Feature}

/-- Features that were read from different files of the workspace at `root`. Seen from there, the
paths of the files end as those of feature files do and have no colon, and the lines of no file are
too many to be counted. -/
structure Feature.InWorkspace (root : String) (features : List Feature) : Prop where
  read : ∀ feature ∈ features, ∃ naming text,
    Feature.ofText? naming feature.path text = some feature ∧
      (Line.scan text).length < Text.numberBound
  distinct : (features.map fun feature =>
    Path.relativeTo feature.path.toList root.toList).Nodup
  named : ∀ feature ∈ features,
    ".feature".toList <:+ Path.relativeTo feature.path.toList root.toList
  noColon : ∀ feature ∈ features, ':' ∉ Path.relativeTo feature.path.toList root.toList
  noBreak : ∀ feature ∈ features, '\n' ∉ feature.path.toList

/-- Features that keep their scenarios apart: the scenarios stand on lines of their own in one file,
and all lines can be read back. -/
structure Feature.Numbered (feature : Feature) : Prop where
  nodup : (feature.scenarios.map Scenario.line).Nodup
  path : ∀ scenario ∈ feature.scenarios, scenario.path = feature.path
  line_lt : ∀ scenario ∈ feature.scenarios, scenario.line < Text.numberBound
  featureLine : ∃ featureLine < Text.numberBound,
    ∀ scenario ∈ feature.scenarios, scenario.featureLine = some featureLine

theorem Feature.numbered_of_read {naming : Naming} {path text : String} {feature : Feature}
    (hread : Feature.ofText? naming path text = some feature)
    (hlength : (Line.scan text).length < Text.numberBound) : feature.Numbered := by
  obtain ⟨name, above, header, below, hheader, rfl⟩ := Layout.exists_of_ofText? hread
  have hlines : ∀ line ∈ header :: below, line.number < Text.numberBound := by
    intro line hline
    have hcounted : line.number ≤ (Line.scan text).length :=
      Line.number_le_of_mem_counted (hheader.split ▸ List.mem_append_right _ hline)
    omega
  constructor
  · exact (hheader.scenarios_ascending naming path).imp Nat.ne_of_lt
  · intro scenario hscenario
    exact (Layout.origin_of_mem_scenariosOf hscenario).1
  · intro scenario hscenario
    have hline := Layout.scenariosOf_lines_sublist.subset (List.mem_map_of_mem hscenario)
    obtain ⟨line, hbelow, hnumber⟩ := List.mem_map.mp hline
    exact hnumber ▸ hlines line (List.mem_cons_of_mem _ hbelow)
  · refine ⟨header.number, hlines header List.mem_cons_self, ?_⟩
    intro scenario hscenario
    exact (Layout.origin_of_mem_scenariosOf hscenario).2.1

namespace Feature.InWorkspace

theorem numbered (h : InWorkspace root features) {feature : Feature} (hmem : feature ∈ features) :
    feature.Numbered := by
  obtain ⟨naming, text, hread, hlength⟩ := h.read feature hmem
  exact numbered_of_read hread hlength

theorem exists_feature (h : InWorkspace root features) {scenario : Scenario}
    (hscenario : scenario ∈ features.flatMap Feature.scenarios) :
    ∃ feature ∈ features, scenario ∈ feature.scenarios ∧ feature.Numbered ∧
      scenario.pathIn root = Path.relativeTo feature.path.toList root.toList := by
  obtain ⟨feature, hfeature, hmem⟩ := List.mem_flatMap.mp hscenario
  have hnumbered := h.numbered hfeature
  refine ⟨feature, hfeature, hmem, hnumbered, ?_⟩
  rw [Scenario.pathIn, hnumbered.path scenario hmem]

theorem exists_same_feature (h : InWorkspace root features) {a b : Scenario}
    (ha : a ∈ features.flatMap Feature.scenarios) (hb : b ∈ features.flatMap Feature.scenarios)
    (heq : a.pathIn root = b.pathIn root) :
    ∃ feature ∈ features, a ∈ feature.scenarios ∧ b ∈ feature.scenarios ∧ feature.Numbered := by
  obtain ⟨f, hf, hmema, hnumbered, hpatha⟩ := h.exists_feature ha
  obtain ⟨g, hg, hmemb, -, hpathb⟩ := h.exists_feature hb
  obtain rfl : f = g := by
    apply List.inj_on_of_nodup_map h.distinct hf hg
    rw [← hpatha, ← hpathb, heq]
  exact ⟨f, hf, hmema, hmemb, hnumbered⟩

theorem distinct_scenarios (h : InWorkspace root features) :
    Results.Distinct root (features.flatMap Feature.scenarios) := by
  constructor
  · intro scenario hscenario
    obtain ⟨feature, -, hmem, hnumbered, -⟩ := h.exists_feature hscenario
    exact hnumbered.line_lt scenario hmem
  · intro scenario hscenario
    obtain ⟨feature, -, hmem, hnumbered, -⟩ := h.exists_feature hscenario
    obtain ⟨featureLine, hlt, hall⟩ := hnumbered.featureLine
    exact ⟨featureLine, hall scenario hmem, hlt⟩
  · intro scenario hscenario
    obtain ⟨feature, hfeature, -, -, hpath⟩ := h.exists_feature hscenario
    exact hpath ▸ h.named feature hfeature
  · intro scenario hscenario
    obtain ⟨feature, hfeature, -, -, hpath⟩ := h.exists_feature hscenario
    exact hpath ▸ h.noColon feature hfeature
  · intro scenario hscenario
    obtain ⟨feature, hfeature, hmem, hnumbered, -⟩ := h.exists_feature hscenario
    exact hnumbered.path scenario hmem ▸ h.noBreak feature hfeature
  · intro a ha b hb heq
    obtain ⟨feature, -, hmema, hmemb, hnumbered⟩ := h.exists_same_feature ha hb heq
    obtain ⟨featureLine, -, hall⟩ := hnumbered.featureLine
    exact ⟨(hnumbered.path a hmema).trans (hnumbered.path b hmemb).symm,
      (hall a hmema).trans (hall b hmemb).symm⟩

theorem eq_of_pathIn_eq (h : InWorkspace root features) {a b : Scenario}
    (ha : a ∈ features.flatMap Feature.scenarios) (hb : b ∈ features.flatMap Feature.scenarios)
    (hpath : a.pathIn root = b.pathIn root) (hline : a.line = b.line) : a = b := by
  obtain ⟨feature, -, hmema, hmemb, hnumbered⟩ := h.exists_same_feature ha hb hpath
  exact List.inj_on_of_nodup_map hnumbered.nodup hmema hmemb hline

theorem nodup_paths (h : InWorkspace root features) : (features.map Feature.path).Nodup := by
  apply List.Nodup.of_map fun path : String => Path.relativeTo path.toList root.toList
  rw [List.map_map]
  exact h.distinct

theorem sorted (h : InWorkspace root features) : ∀ feature ∈ features, feature.Sorted := by
  intro feature hmem
  obtain ⟨naming, text, hread, -⟩ := h.read feature hmem
  exact Feature.sorted_of_ofText? hread

theorem summaries_perm (h : InWorkspace root features) (strategy : Strategy) :
    let scenarios := features.flatMap Feature.scenarios
    (Tree.summaries (Tree.ofScenarios strategy scenarios)).Perm
      ((scenarios.flatMap fun scenario =>
        List.replicate (strategy.copies scenarios scenario) scenario).map Scenario.summary) := by
  intro scenarios
  have hroots := Tree.forall₂_isRootOf strategy fun path =>
    (Group.ofFile_sorted h.nodup_paths h.sorted path).1
  exact (Tree.summaries_perm hroots).trans ((strategy.members_perm _).map Scenario.summary)

theorem eq_of_summary_eq (h : InWorkspace root features) {a b : Scenario}
    (ha : a ∈ features.flatMap Feature.scenarios) (hb : b ∈ features.flatMap Feature.scenarios)
    (heq : a.summary = b.summary) : a = b := by
  obtain ⟨-, hpath, hline, -⟩ := Summary.mk.inj heq
  have hpath := Option.some.inj hpath
  exact h.eq_of_pathIn_eq ha hb (by rw [Scenario.pathIn, Scenario.pathIn, hpath])
    (Option.some.inj hline)

end Feature.InWorkspace

namespace Report

/-- What the leaves of scenarios tell of them, each with its status in the reports on the trees. -/
def shown (results : Results Outcome) (root : String) (trees : List Tree) :
    List (Summary × Status) :=
  (((Tree.leavesOf "" trees).zip (leavesOf (ofRoots results root trees))).filter
    (!·.1.2.id.isGroup)).map fun (place, report) => (place.2.summary, report.status)

variable {results : Results Outcome}

theorem shown_eq (results : Results Outcome) (root : String) (trees : List Tree) :
    shown results root trees =
      ((Tree.leavesOf "" trees).filter (!·.2.id.isGroup)).map fun place =>
        (place.2.summary, (ofTree results root place.1 place.2).status) := by
  rw [shown, ofRoots, leavesOf_ofTrees, ← List.map_prod_left_eq_zip, List.filter_map, List.map_map]
  rfl

theorem map_fst_shown (results : Results Outcome) (root : String) (trees : List Tree) :
    (shown results root trees).map Prod.fst = Tree.summaries trees := by
  rw [shown_eq, List.map_map, Tree.summaries, List.filter_map, List.map_map]
  rfl

/-- The report on a leaf of a scenario has the status of that scenario. -/
theorem exists_of_mem_leaves (hfeatures : Feature.InWorkspace root features)
    (hresults : results.AreOf root (features.flatMap Feature.scenarios)) {strategy : Strategy}
    {parent : String} {leaf : Tree}
    (h : (parent, leaf) ∈
      Tree.leavesOf "" (Tree.ofScenarios strategy (features.flatMap Feature.scenarios)))
    (hscenario : leaf.id.isGroup = false) :
    ∃ scenario ∈ features.flatMap Feature.scenarios, leaf = Tree.leaf leaf.id scenario ∧
      ofTree results root parent leaf =
        { id := leaf.id.text
          label := scenario.name
          status := .ofOutcome? (results.own? root scenario) } := by
  rcases Tree.placed_of_mem_leaves h with hgroup | hplaced
  · rw [hscenario] at hgroup
    cases hgroup
  · obtain ⟨scenario, hmem, hleaf, hown⟩ :=
      hfeatures.distinct_scenarios.reconcile_placed hresults hplaced
    dsimp only at hleaf hown
    refine ⟨scenario, hmem, hleaf, ?_⟩
    rw [ofTree_leaf results root (by rw [hleaf]; rfl) hscenario, hown,
      show leaf.label = scenario.name by rw [hleaf]; rfl]

theorem exists_of_mem_shown (hfeatures : Feature.InWorkspace root features)
    (hresults : results.AreOf root (features.flatMap Feature.scenarios)) {strategy : Strategy}
    {entry : Summary × Status}
    (h : entry ∈ shown results root
      (Tree.ofScenarios strategy (features.flatMap Feature.scenarios))) :
    ∃ scenario ∈ features.flatMap Feature.scenarios,
      entry = (scenario.summary, .ofOutcome? (results.own? root scenario)) := by
  rw [shown_eq] at h
  obtain ⟨⟨parent, leaf⟩, hplace, rfl⟩ := List.mem_map.mp h
  obtain ⟨hplace, hscenario⟩ := List.mem_filter.mp hplace
  have hscenario : leaf.id.isGroup = false := by simpa using hscenario
  obtain ⟨scenario, hmem, hleaf, hreport⟩ :=
    exists_of_mem_leaves hfeatures hresults hplace hscenario
  have hsummary : leaf.summary = scenario.summary := by
    rw [hleaf]
    rfl
  exact ⟨scenario, hmem, by rw [hreport, hsummary]⟩

/-- Every scenario is shown with its own status, as often as it stands in the groups. -/
theorem shown_perm (hfeatures : Feature.InWorkspace root features)
    (hresults : results.AreOf root (features.flatMap Feature.scenarios)) (strategy : Strategy) :
    let scenarios := features.flatMap Feature.scenarios
    (shown results root (Tree.ofScenarios strategy scenarios)).Perm
      ((scenarios.flatMap fun scenario =>
        List.replicate (strategy.copies scenarios scenario) scenario).map fun scenario =>
        (scenario.summary, Status.ofOutcome? (results.own? root scenario))) := by
  intro scenarios
  have hsummaries :=
    (List.Perm.of_eq (map_fst_shown results root _)).trans (hfeatures.summaries_perm strategy)
  have hmembers : ∀ scenario ∈ scenarios.flatMap fun scenario =>
      List.replicate (strategy.copies scenarios scenario) scenario, scenario ∈ scenarios := by
    intro scenario hmem
    obtain ⟨other, hother, hmem⟩ := List.mem_flatMap.mp hmem
    rwa [List.eq_of_mem_replicate hmem]
  -- the entries belong to scenarios in some order, and a summary tells to which one
  obtain ⟨told, htold, hperm⟩ := List.perm_comp_forall₂
    (r := fun summary scenario => scenario ∈ scenarios ∧ summary = scenario.summary)
    hsummaries (List.forall₂_map_left_iff.mpr
      (List.forall₂_same.mpr fun scenario hmem => ⟨hmembers scenario hmem, rfl⟩))
  have hshown : shown results root (Tree.ofScenarios strategy scenarios) =
      told.map fun scenario =>
        (scenario.summary, Status.ofOutcome? (results.own? root scenario)) := by
    rw [← List.forall₂_eq_eq_eq, List.forall₂_map_right_iff]
    have hentries := (List.forall₂_and_left _ _).mpr
      ⟨fun entry => exists_of_mem_shown hfeatures hresults, List.forall₂_map_left_iff.mp htold⟩
    refine hentries.imp ?_
    rintro entry scenario ⟨⟨other, hother, rfl⟩, hmem, hsummary⟩
    rw [hfeatures.eq_of_summary_eq hother hmem hsummary]
  rw [hshown]
  exact hperm.map _

/-- In a report on features from different files every leaf of a scenario has the status of the
result under that scenario's own key, no two scenarios have the same key, and every scenario has its
leaves: one in each group that it stands in. -/
theorem leaves_have_own_results (hfeatures : Feature.InWorkspace root features)
    (hresults : results.AreOf root (features.flatMap Feature.scenarios)) (strategy : Strategy) :
    let scenarios := features.flatMap Feature.scenarios
    let trees := Tree.ofScenarios strategy scenarios
    List.Forall₂ (fun (place : String × Tree) (report : Report) =>
        report.id = place.2.id.text ∧
        (place.2.id.isGroup = false → ∃ scenario ∈ scenarios,
          place.2 = Tree.leaf place.2.id scenario ∧
          report.label = scenario.name ∧
          report.status = .ofOutcome? (results.own? root scenario)))
      (Tree.leavesOf "" trees) (leavesOf (ofRoots results root trees)) ∧
    (∀ a ∈ scenarios, ∀ b ∈ scenarios,
      (a.keyIn? root).map ResultKey.text = (b.keyIn? root).map ResultKey.text → a = b) ∧
    (shown results root trees).Perm
      ((scenarios.flatMap fun scenario =>
        List.replicate (strategy.copies scenarios scenario) scenario).map fun scenario =>
        (scenario.summary, Status.ofOutcome? (results.own? root scenario))) := by
  intro scenarios trees
  have hdistinct := hfeatures.distinct_scenarios
  refine ⟨?_, ?_, shown_perm hfeatures hresults strategy⟩
  · rw [ofRoots, leavesOf_ofTrees, List.forall₂_map_right_iff, List.forall₂_same]
    rintro ⟨parent, leaf⟩ hplace
    refine ⟨ofTree_id results root parent leaf, fun hscenario => ?_⟩
    obtain ⟨scenario, hmem, hleaf, hreport⟩ :=
      exists_of_mem_leaves hfeatures hresults hplace hscenario
    refine ⟨scenario, hmem, hleaf, ?_⟩
    dsimp only
    rw [hreport]
    exact ⟨rfl, rfl⟩
  · intro a ha b hb hkeys
    obtain ⟨hpath, hline⟩ := hdistinct.eq_of_keyIn?_eq ha hb hkeys
    exact hfeatures.eq_of_pathIn_eq ha hb hpath hline

theorem leaves_have_own_results_of_two_files :
    let sources := [
      ("/ws/a.feature", "Feature: F\nScenario Outline: O\nExamples:\n|x|\n|1|\n|2|"),
      ("/ws/b.feature", "Feature: G\nScenario: S\n\n@t @u\nScenario: T")]
    let features := sources.filterMap fun (path, text) => Feature.ofText? {} path text
    let results : Results Outcome := [("a.feature:1:6", .failed), ("b.feature:1:5", .passed)]
    let statuses (strategy : Strategy) : List (Option String × Option Nat × Status) :=
      (shown results "/ws" (Tree.ofScenarios strategy (features.flatMap Feature.scenarios))).map
        fun entry => (entry.1.path, entry.1.line, entry.2)
    (statuses .feature).Perm [
      (some "/ws/a.feature", some 5, .skipped), (some "/ws/a.feature", some 6, .failed),
      (some "/ws/b.feature", some 2, .skipped), (some "/ws/b.feature", some 5, .passed)] ∧
    (statuses .tag).Perm [
      (some "/ws/a.feature", some 5, .skipped), (some "/ws/a.feature", some 6, .failed),
      (some "/ws/b.feature", some 2, .skipped), (some "/ws/b.feature", some 5, .passed),
      (some "/ws/b.feature", some 5, .passed)] := by
  intro sources features results statuses
  have hfeatures : Feature.InWorkspace "/ws" features := by
    refine ⟨?_, by decide +kernel, by decide +kernel, by decide +kernel, by decide +kernel⟩
    intro feature hmem
    obtain ⟨⟨path, text⟩, hsource, hread⟩ := List.mem_filterMap.mp hmem
    have hlength : ∀ source ∈ sources, (Line.scan source.2).length < Text.numberBound := by
      decide +kernel
    have hpath : feature.path = path := by
      obtain ⟨_, _, _, _, -, rfl⟩ := Layout.exists_of_ofText? hread
      rfl
    exact ⟨{}, text, hpath ▸ hread, hlength (path, text) hsource⟩
  have hresults : results.AreOf "/ws" (features.flatMap Feature.scenarios) := by
    have hkeys : ∀ entry ∈ results, ∃ scenario ∈ features.flatMap Feature.scenarios,
        (scenario.keyIn? "/ws").map ResultKey.text = some entry.1 := by
      decide +kernel
    intro entry hentry
    obtain ⟨scenario, hscenario, hkey⟩ := hkeys entry hentry
    obtain ⟨key, hkey, htext⟩ := Option.map_eq_some_iff.mp hkey
    exact ⟨scenario, hscenario, key, hkey, htext.symm⟩
  have hshown (strategy : Strategy) :=
    ((leaves_have_own_results hfeatures hresults strategy).2.2).map
      fun entry : Summary × Status => (entry.1.path, entry.1.line, entry.2)
  exact ⟨(hshown .feature).trans (.of_eq (by decide +kernel)),
    (hshown .tag).trans (.of_eq (by decide +kernel))⟩

end Report

end Features

end ScenarioAtlas
