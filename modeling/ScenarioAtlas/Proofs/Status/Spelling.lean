import ScenarioAtlas.Proofs.Status.References

/-!
# Spellings of a result key

The place of a scenario can be spelled in several ways: by its line below its file or its outline,
by a path from the root of the disk with the line, or by the whole key. All of them spell one key,
so a result under that key is found whatever else was reported. Nothing is claimed where no result
has that key.
-/

namespace ScenarioAtlas.Results

set_option autoImplicit false

/-- A feature file by its path as results are reported for it in the workspace at `root`. -/
structure ReportedIn (root path : String) : Prop where
  named : ".feature".toList <:+ path.toList
  noBackslash : '\\' ∉ path.toList
  noBreak : '\n' ∉ path.toList
  notRooted : path.toList.head? ≠ some '/'
  rootNamed : Path.dropTrailingSlashes (Path.normalize root.toList) ≠ []
  rootNoBreak : '\n' ∉ root.toList
  outside : ¬ Path.IsWithin path.toList root.toList

/-- The identifiers of a node and of the node above it that spell the key of a scenario. -/
inductive Spelling (root path : String) (featureLine line : Nat) : String → String → Prop where
  | lineInFile :
    Spelling root path featureLine line (NodeId.lineSegment line)
      (path ++ NodeId.lineSegment featureLine)
  | lineInFileOnDisk :
    Spelling root path featureLine line (NodeId.lineSegment line)
      (root ++ "/" ++ path ++ NodeId.lineSegment featureLine)
  | lineInOutline (outlineLine : Nat) :
    Spelling root path featureLine line (NodeId.lineSegment line)
      (path ++ NodeId.lineSegment featureLine ++ ":outline" ++ NodeId.lineSegment outlineLine)
  | lineOnDisk :
    Spelling root path featureLine line (root ++ "/" ++ path ++ NodeId.lineSegment line)
      (path ++ NodeId.lineSegment featureLine)
  | key (parent : String) :
    Spelling root path featureLine line
      (path ++ NodeId.lineSegment featureLine ++ NodeId.lineSegment line) parent
  | keyOnDisk (parent : String) :
    Spelling root path featureLine line
      (root ++ "/" ++ path ++ NodeId.lineSegment featureLine ++ NodeId.lineSegment line) parent

/-- A path that names the file which is seen as `path` from the root. -/
structure SeenAs (root path : String) (written : List Char) : Prop where
  named : ".feature".toList <:+ written
  noBreak : '\n' ∉ written
  relative : Path.relativeTo written root.toList = path.toList

variable {α : Type} {results : Results α} {value : α} {root path child parent : String}
variable {written : List Char} {featureLine line : Nat}

theorem ReportedIn.seenAs_self (h : ReportedIn root path) : SeenAs root path path.toList := by
  refine ⟨h.named, h.noBreak, ?_⟩
  rw [Path.relativeTo_of_not_isWithin h.outside, Path.normalize_eq_self h.noBackslash]

theorem ReportedIn.seenAs_onDisk (h : ReportedIn root path) :
    SeenAs root path (root ++ "/" ++ path).toList := by
  rw [String.toList_append, String.toList_append]
  refine ⟨h.named.trans (List.suffix_append _ _), ?_, ?_⟩
  · simp [h.noBreak, h.rootNoBreak]
  · have hnormal := Path.normalize_eq_self h.noBackslash
    have hhead : (Path.normalize path.toList).head? ≠ some '/' := by
      rw [hnormal]
      exact h.notRooted
    have hslash : ∀ c ∈ "/".toList, Path.isSeparator c = true := by
      intro c hc
      rw [List.mem_singleton.mp hc]
      rfl
    rw [Path.relativeTo_append h.rootNamed (by decide) hslash hhead, hnormal]

theorem reconcile_of_directKey? {reference : ScenarioRef} {key : ResultKey}
    (hread : ScenarioRef.read? child.toList = some reference)
    (hdirect : directKey? reference (FileRef.read? parent.toList) root.toList = some key)
    (hkey : results.lookup key.text = some value) :
    results.reconcile child parent root = some value := by
  simp [reconcile, hread, hdirect, hkey]

theorem SeenAs.keyIn (h : SeenAs root path written) (hpath : '\\' ∉ path.toList)
    (featureLine line : Nat) :
    ResultKey.ofPath (String.ofList (Path.relativeTo written root.toList)) featureLine line =
      ⟨path, featureLine, line⟩ := by
  rw [h.relative, ResultKey.ofPath, String.ofList_toList, Path.normalize_eq_self hpath,
    String.ofList_toList]

theorem SeenAs.reconcile_below (h : SeenAs root path written) (hpath : '\\' ∉ path.toList)
    {reference : ScenarioRef} (hread : ScenarioRef.read? child.toList = some reference)
    (hreference : reference = .onLine line ∨ ∃ own, reference = .inFile own line)
    (hfile : FileRef.read? parent.toList = some ⟨written, some featureLine⟩)
    (hkey : results.lookup (ResultKey.mk path featureLine line).text = some value) :
    results.reconcile child parent root = some value := by
  refine reconcile_of_directKey? hread ?_ hkey
  rcases hreference with rfl | ⟨own, rfl⟩
  · simp [directKey?, hfile, h.keyIn hpath]
  · simp [directKey?, hfile, h.keyIn hpath]

theorem SeenAs.reconcile_key (h : SeenAs root path written) (hpath : '\\' ∉ path.toList)
    (hfeature : featureLine < Text.numberBound) (hline : line < Text.numberBound)
    (hchild : child.toList =
      written ++ ':' :: Text.writeNumber featureLine ++ ':' :: Text.writeNumber line)
    (hkey : results.lookup (ResultKey.mk path featureLine line).text = some value) :
    results.reconcile child parent root = some value := by
  have hread := ScenarioRef.read?_key h.named h.noBreak hfeature hline
  rw [← hchild] at hread
  refine reconcile_of_directKey? hread ?_ hkey
  have hrelative := h.keyIn hpath featureLine line
  simpa [directKey?, ResultKey.ofPath, Path.relativeTo_normalize] using hrelative

/-- The result under a key is found by every spelling of the key, whatever other results there
are. -/
theorem reconcile_of_spelling (hpath : ReportedIn root path)
    (hfeature : featureLine < Text.numberBound) (hline : line < Text.numberBound)
    (hkey : results.lookup (ResultKey.mk path featureLine line).text = some value)
    (hspelling : Spelling root path featureLine line child parent) :
    results.reconcile child parent root = some value := by
  have hself := hpath.seenAs_self
  have hdisk := hpath.seenAs_onDisk
  have hslash := hpath.noBackslash
  have honLine : ScenarioRef.read? (NodeId.lineSegment line).toList = some (.onLine line) := by
    rw [NodeId.toList_lineSegment]
    exact ScenarioRef.read?_line hline
  have hinFile : FileRef.read? (path ++ NodeId.lineSegment featureLine).toList =
      some ⟨path.toList, some featureLine⟩ := by
    rw [String.toList_append, NodeId.toList_lineSegment]
    exact FileRef.read?_feature hself.named hself.noBreak hfeature
  cases hspelling with
  | lineInFile => exact hself.reconcile_below hslash honLine (.inl rfl) hinFile hkey
  | lineInFileOnDisk =>
    refine hdisk.reconcile_below hslash honLine (.inl rfl) ?_ hkey
    rw [String.toList_append, NodeId.toList_lineSegment]
    exact FileRef.read?_feature hdisk.named hdisk.noBreak hfeature
  | lineInOutline outlineLine =>
    refine hself.reconcile_below hslash honLine (.inl rfl) ?_ hkey
    have houtline := FileRef.read?_outline hself.named hself.noBreak hfeature outlineLine
    simpa [NodeId.toList_lineSegment] using houtline
  | lineOnDisk =>
    refine hself.reconcile_below hslash ?_ (.inr ⟨(root ++ "/" ++ path).toList, rfl⟩) hinFile hkey
    rw [String.toList_append, NodeId.toList_lineSegment]
    exact ScenarioRef.read?_fileLine hdisk.named hdisk.noBreak hline
  | key parent =>
    refine hself.reconcile_key hslash hfeature hline ?_ hkey
    simp [NodeId.toList_lineSegment]
  | keyOnDisk parent =>
    refine hdisk.reconcile_key hslash hfeature hline ?_ hkey
    simp [NodeId.toList_lineSegment]

/-- A file below a folder that is called as a feature file and a line may be, among results that
only look like that of its scenario. -/
theorem reconcile_of_spelling_in_odd_folder :
    let results : Results String :=
      [("b.feature:2:10", "other"), ("a.feature:2:3/b.feature:2:10", "own"),
        ("a.feature:2:3/b.feature:2:9:10", "other")]
    results.reconcile ":10" "C:\\ws\\/a.feature:2:3/b.feature:2" "C:\\ws\\" = some "own" ∧
      results.reconcile "a.feature:2:3/b.feature:2:10" "tag:@x" "C:\\ws\\" = some "own" := by
  intro results
  have hpath : ReportedIn "C:\\ws\\" "a.feature:2:3/b.feature" :=
    ⟨by decide, by decide, by decide, by decide, by decide, by decide, by decide⟩
  have hkey : results.lookup (ResultKey.mk "a.feature:2:3/b.feature" 2 10).text = some "own" := by
    decide +kernel
  have hfeature : 2 < Text.numberBound := by decide
  have hline : 10 < Text.numberBound := by decide
  exact ⟨reconcile_of_spelling hpath hfeature hline hkey .lineInFileOnDisk,
    reconcile_of_spelling hpath hfeature hline hkey (.key "tag:@x")⟩

end ScenarioAtlas.Results
