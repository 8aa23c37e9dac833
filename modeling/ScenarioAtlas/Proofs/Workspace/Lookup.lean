import ScenarioAtlas.Proofs.Distinct
import ScenarioAtlas.Proofs.Path
import ScenarioAtlas.Proofs.Workspace.Session

/-!
# Looking up features by their paths

A feature is looked up by the path of its file as seen from the root. The path of a file that was
found has the root in front, which is cut off only if the path is absolute; of any other root just
the leading `./` goes. So a workspace finds a feature by the path below the root exactly if nothing is
left of the root in front of it.
-/

namespace ScenarioAtlas

set_option autoImplicit false

namespace Workspace

/-- What is left of a root in front of the files below it, as they are seen from there. -/
def leftOfRoot (root : List Char) : List Char :=
  let folder := Path.asFolder root
  if Path.isAbsolute folder then
    if Path.dropTrailingSlashes (Path.normalize root) = [] then Path.normalize folder else []
  else Path.normalize (dropHere folder)

/-- Whether a root is cut off the files below it: an absolute one if there is more to it than
separators, any other if it is the folder that relative paths start in. -/
def isCutOff (root : List Char) : Bool :=
  let folder := Path.asFolder root
  if Path.isAbsolute folder then !(Path.dropTrailingSlashes (Path.normalize root)).isEmpty
  else (dropHere folder).isEmpty

/-- Whether the path leads to the feature, and to its actions whatever the files are by now. -/
def Finds (workspace : Workspace) (now : FileSource) (path : String) (feature : Feature) : Prop :=
  workspace.feature? path = some feature ∧ workspace.actions now path = Action.ofFeature feature

theorem leftOfRoot_eq_nil_iff (root : List Char) :
    leftOfRoot root = [] ↔ isCutOff root = true := by
  have hnormal (path : List Char) : Path.normalize path = [] ↔ path = [] := List.map_eq_nil_iff
  unfold leftOfRoot isCutOff
  dsimp only
  split
  case isTrue habsolute =>
    split
    case isTrue hnameless =>
      have hsome : Path.asFolder root ≠ [] := by
        intro hnil
        rw [hnil] at habsolute
        cases habsolute
      simp [hnameless, hnormal, hsome]
    case isFalse hnamed => simp [hnamed]
  case isFalse => rw [hnormal, List.isEmpty_iff]

section Here

variable {path : List Char}

theorem dropHere_eq_self (h : ¬ ['.', '/'] <+: path) : dropHere path = path := by
  unfold dropHere
  split
  case h_1 rest => exact absurd ⟨rest, rfl⟩ h
  case h_2 => rfl

theorem dropHere_append (folders : List Char) (h : ¬ ['.', '/'] <+: path) :
    dropHere (folders ++ '/' :: path) = dropHere (folders ++ ['/']) ++ path := by
  induction folders using dropHere.induct with
  | case1 rest ih => exact ih
  | case2 folders hstart =>
    match folders with
    | [] => rfl
    | [c] =>
      by_cases hc : '.' = c
      · subst hc
        exact dropHere_eq_self h
      · rw [dropHere_eq_self (by simp [hc]), dropHere_eq_self (by simp [hc])]
        rfl
    | c :: d :: rest =>
      have hother : ¬ ('.' = c ∧ '/' = d) := by
        rintro ⟨rfl, rfl⟩
        exact hstart rest rfl
      rw [dropHere_eq_self (by simpa using hother), dropHere_eq_self (by simpa using hother)]
      simp

end Here

section Seen

variable (workspace : Workspace) {path : RelativePath}

theorem pathFromRoot_inRoot (h : ¬ ['.', '/'] <+: path.text.toList) :
    workspace.pathFromRoot (path.inRoot workspace.settings.root) =
      leftOfRoot workspace.settings.root.toList ++ path.normalized := by
  generalize hroot : workspace.settings.root.toList = root
  rw [RelativePath.inRoot, pathFromRoot, String.toList_ofList, hroot,
    Path.join_eq_append _ (Path.isRooted_of_isBelow path.isBelow)]
  by_cases hempty : root = []
  case pos =>
    subst hempty
    split
    case isTrue => rfl
    case isFalse => exact congrArg Path.normalize (dropHere_eq_self h)
  case neg =>
    obtain ⟨folders, hfolder, -⟩ := Path.exists_asFolder_eq hempty
    have habsolute : Path.isAbsolute (Path.asFolder root ++ path.text.toList) =
        Path.isAbsolute (Path.asFolder root) := by
      rw [hfolder, List.append_assoc]
      exact Path.isAbsolute_append_slash folders path.text.toList
    have hhere : dropHere (Path.asFolder root ++ path.text.toList) =
        dropHere (Path.asFolder root) ++ path.text.toList := by
      rw [hfolder, List.append_assoc]
      exact dropHere_append folders h
    rw [habsolute, leftOfRoot]
    split
    case isFalse => rw [hhere, Path.normalize_append]; rfl
    case isTrue =>
      split
      case isFalse hnamed => exact Path.relativeTo_asFolder_append hnamed path.isBelow
      case isTrue hnameless =>
        simp only [Path.relativeTo, hnameless]
        exact Path.normalize_append _ _

theorem pathFromRoot_here (h : ¬ ['.', '/'] <+: path.text.toList) :
    workspace.pathFromRoot ("./" ++ path.text) = path.normalized := by
  rw [pathFromRoot, String.toList_append]
  exact congrArg Path.normalize (dropHere_eq_self h)

/-- The path itself is seen whole unless it reads as one that starts with the root. -/
theorem pathFromRoot_text_eq_append_iff (h : ¬ ['.', '/'] <+: path.text.toList)
    (left : List Char) :
    workspace.pathFromRoot path.text = left ++ path.normalized ↔
      left = [] ∧ ¬ (Path.isAbsolute path.text.toList = true ∧
        Path.IsWithin path.text.toList workspace.settings.root.toList) := by
  have hwhole : Path.normalize path.text.toList = left ++ path.normalized ↔ left = [] :=
    List.self_eq_append_left
  rw [pathFromRoot]
  split
  case isFalse hrelative =>
    rw [dropHere_eq_self h, hwhole]
    simp [hrelative]
  case isTrue habsolute =>
    by_cases hwithin : Path.IsWithin path.text.toList workspace.settings.root.toList
    case neg =>
      rw [Path.relativeTo_of_not_isWithin hwithin, hwhole]
      simp [hwithin]
    case pos =>
      have hsome : path.text.toList ≠ [] := by
        intro hempty
        rw [hempty] at habsolute
        cases habsolute
      have hshorter := Path.length_relativeTo_lt
        (hwithin.root_ne_nil hsome (Path.head?_normalize_ne path.isBelow)) hwithin
      constructor
      · intro hsame
        rw [hsame, List.length_append] at hshorter
        exact absurd hshorter (Nat.not_lt.mpr (Nat.le_add_left _ _))
      · rintro ⟨-, hnot⟩
        exact absurd ⟨habsolute, hwithin⟩ hnot

end Seen

theorem path_of_load? {workspace : Workspace} {source : FileSource} {path : String}
    {feature : Feature} (h : workspace.load? source path = some feature) : feature.path = path := by
  obtain ⟨text, -, htext⟩ := Option.bind_eq_some_iff.mp h
  obtain ⟨header, -, rfl⟩ := Option.map_eq_some_iff.mp htext
  rfl

section Refreshed

variable {workspace : Workspace} {source : FileSource} {now : Nat} {force : Bool}
  {paths : List RelativePath} {path : RelativePath} {feature : Feature}

/-- After a refresh a path leads to a feature exactly if both are seen as the same. -/
theorem finds_iff_pathFromRoot_eq
    (hlisted : (workspace.cache.discover workspace.settings.cache now
      { pattern := workspace.settings.featureGlob, force } source.list).2 =
        paths.map (RelativePath.inRoot workspace.settings.root))
    (hhere : ∀ other ∈ paths, ¬ ['.', '/'] <+: other.text.toList)
    (hdistinct : ∀ other ∈ paths, other.normalized = path.normalized → other = path)
    (hmem : path ∈ paths)
    (hload : workspace.load? source (path.inRoot workspace.settings.root) = some feature)
    (later : FileSource) (query : String) :
    (workspace.refresh source now force).1.Finds later query feature ↔
      workspace.pathFromRoot query =
        leftOfRoot workspace.settings.root.toList ++ path.normalized := by
  obtain ⟨hfeatures, -⟩ := refresh_of_listed hlisted
  have hseen (text : String) :
      (workspace.refresh source now force).1.pathFromRoot text = workspace.pathFromRoot text := rfl
  have hfind : (workspace.refresh source now force).1.feature? query =
      (paths.filterMap fun other =>
        workspace.load? source (other.inRoot workspace.settings.root)).find? fun found =>
          decide (workspace.pathFromRoot found.path = workspace.pathFromRoot query) := by
    simp only [feature?, hseen, hfeatures, List.filterMap_map, Function.comp_def]
  have hown : workspace.pathFromRoot feature.path =
      leftOfRoot workspace.settings.root.toList ++ path.normalized := by
    rw [path_of_load? hload]
    exact workspace.pathFromRoot_inRoot (hhere path hmem)
  constructor
  · rintro ⟨hfound, -⟩
    rw [hfind] at hfound
    have hsame := List.find?_some hfound
    rw [← hown]
    exact (of_decide_eq_true hsame).symm
  · intro hquery
    have hfound : (workspace.refresh source now force).1.feature? query = some feature := by
      rw [hfind]
      apply find?_eq_some_of_unique
      · exact List.mem_filterMap.mpr ⟨path, hmem, hload⟩
      · exact decide_eq_true (hown.trans hquery.symm)
      · intro found hfound hsame
        obtain ⟨other, hother, hotherLoad⟩ := List.mem_filterMap.mp hfound
        rw [decide_eq_true_iff, path_of_load? hotherLoad,
          workspace.pathFromRoot_inRoot (hhere other hother), hquery] at hsame
        rw [hdistinct other hother (List.append_cancel_left hsame), hload] at hotherLoad
        exact (Option.some.inj hotherLoad).symm
    refine ⟨hfound, ?_⟩
    rw [actions, hfound]
    rfl

/-- After a refresh every feature is found by the path of its file with the root in front. By its
path from the root on, with or without `./`, it is found exactly if the root is cut off the files
below it; without `./` the path must not read as one that starts with the root either. -/
theorem finds_iff_isCutOff
    (hlisted : (workspace.cache.discover workspace.settings.cache now
      { pattern := workspace.settings.featureGlob, force } source.list).2 =
        paths.map (RelativePath.inRoot workspace.settings.root))
    (hhere : ∀ other ∈ paths, ¬ ['.', '/'] <+: other.text.toList)
    (hdistinct : ∀ other ∈ paths, other.normalized = path.normalized → other = path)
    (hmem : path ∈ paths)
    (hload : workspace.load? source (path.inRoot workspace.settings.root) = some feature)
    (later : FileSource) :
    let refreshed := (workspace.refresh source now force).1
    let root := workspace.settings.root
    refreshed.Finds later (path.inRoot root) feature ∧
      (refreshed.Finds later ("./" ++ path.text) feature ↔ isCutOff root.toList = true) ∧
      (refreshed.Finds later path.text feature ↔ isCutOff root.toList = true ∧
        ¬ (Path.isAbsolute path.text.toList = true ∧
          Path.IsWithin path.text.toList root.toList)) := by
  intro refreshed root
  have hfinds := finds_iff_pathFromRoot_eq hlisted hhere hdistinct hmem hload later
  have hown := hhere path hmem
  refine ⟨?_, ?_, ?_⟩
  · exact (hfinds _).mpr (workspace.pathFromRoot_inRoot hown)
  · rw [hfinds, workspace.pathFromRoot_here hown, List.self_eq_append_left, leftOfRoot_eq_nil_iff]
  · rw [hfinds, workspace.pathFromRoot_text_eq_append_iff hown, leftOfRoot_eq_nil_iff]

end Refreshed

theorem finds_iff_isCutOff_of_absolute_root :
    let source : FileSource :=
      { list := fun _ => .ok ["/ws/a.feature", "/ws/b/a.feature"]
        read? := fun path => some ("Feature: " ++ path) }
    let workspace : Workspace := { settings := { root := "/ws/" } }
    let refreshed := (workspace.refresh source 0 false).1
    ∃ feature : Feature, feature.name = "/ws/b/a.feature" ∧
      refreshed.Finds source "/ws/b/a.feature" feature ∧
      refreshed.Finds source "./b/a.feature" feature ∧
      refreshed.Finds source "b/a.feature" feature := by
  intro source workspace refreshed
  let path : RelativePath := ⟨"b/a.feature", rfl⟩
  let paths : List RelativePath := [⟨"a.feature", rfl⟩, path]
  have hlisted : (workspace.cache.discover workspace.settings.cache 0
      { pattern := workspace.settings.featureGlob, force := false } source.list).2 =
        paths.map (RelativePath.inRoot workspace.settings.root) := by decide +kernel
  have hload : workspace.load? source (path.inRoot workspace.settings.root) = some
      { name := "/ws/b/a.feature", path := "/ws/b/a.feature", line := some 1 } := by
    decide +kernel
  have hinRoot : path.inRoot workspace.settings.root = "/ws/b/a.feature" := by decide +kernel
  have hbelowHere : "./" ++ path.text = "./b/a.feature" := by decide +kernel
  have hcut : isCutOff workspace.settings.root.toList = true := by decide +kernel
  obtain ⟨hwhole, hhere, hbelow⟩ := finds_iff_isCutOff hlisted (by decide +kernel)
    (by decide +kernel) (by decide +kernel) hload source
  rw [hinRoot] at hwhole
  rw [hbelowHere] at hhere
  exact ⟨_, rfl, hwhole, hhere.mpr hcut, hbelow.mpr ⟨hcut, by decide +kernel⟩⟩

/-- Below a relative root a path leads nowhere, or to another file. -/
theorem feature?_below_relative_root :
    let source : FileSource :=
      { list := fun _ => .ok ["ws/a.feature", "ws/ws/a.feature"]
        read? := fun path => if "ws/".isPrefixOf path then some ("Feature: " ++ path) else none }
    let workspace : Workspace := { settings := { root := "ws" } }
    let refreshed := (workspace.refresh source 0 false).1
    refreshed.features.map Feature.name = ["ws/a.feature", "ws/ws/a.feature"] ∧
      refreshed.feature? "a.feature" = none ∧ refreshed.actions source "a.feature" = [] ∧
      (refreshed.feature? "ws/a.feature").map Feature.name = some "ws/a.feature" := by
  decide +kernel

end Workspace

end ScenarioAtlas
