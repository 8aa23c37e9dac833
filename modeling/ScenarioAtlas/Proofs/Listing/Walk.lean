import ScenarioAtlas.Listing.Walk
import ScenarioAtlas.Proofs.Disk
import ScenarioAtlas.Proofs.Glob.Reading
import ScenarioAtlas.Proofs.Path
import ScenarioAtlas.Proofs.Text.ByteOrder

/-!
# What a listing holds

In a tree without links the walk comes to the files that the recursion on the tree finds, since the
tree is not deeper than the walk may go. Each of them has a path of its own, so the list is ascending.
Nothing is claimed of trees with links.
-/

namespace ScenarioAtlas.Listing

set_option autoImplicit false

variable {scope : Scope} {disk : Disk} {start : String} {entries : List (String × DiskNode)}

theorem target?_of_isPlain {entry : String × DiskNode} (h : entry.2.IsPlain)
    (above : List (List String)) (here names : List String) :
    target? scope disk start above here names entry = some (here ++ [entry.1], entry.2) := by
  obtain ⟨name, node⟩ := entry
  cases node with
  | file content => rfl
  | folder entries => rfl
  | link target => exact h.elim

/-- A walk that may go as deep as there are names finds what the recursion on the tree finds. -/
theorem filesBelow_eq_filesIn {depth : Nat} (h : DiskNode.ArePlain entries)
    (hdepth : DiskNode.sizes entries ≤ depth) (above : List (List String))
    (here walked : List String) :
    filesBelow scope disk start depth above here walked entries =
      (DiskNode.filesIn scope.ignoredFolders entries).map (walked ++ ·) := by
  induction depth generalizing above here walked entries with
  | zero =>
    cases entries with
    | nil => rfl
    | cons entry rest =>
      rw [DiskNode.sizes] at hdepth
      omega
  | succ depth ih =>
    rw [filesBelow, DiskNode.filesIn_eq_flatMap, List.map_flatMap]
    apply List.flatMap_congr
    intro entry hentry
    obtain ⟨-, hplain⟩ := h.of_mem hentry
    have hsize := DiskNode.size_lt_sizes hentry
    dsimp only
    rw [target?_of_isPlain hplain]
    obtain ⟨name, node⟩ := entry
    cases node with
    | file content => rfl
    | folder below =>
      dsimp only
      rw [DiskNode.filesUnder]
      split
      case isTrue => rfl
      case isFalse =>
        have hbelow : DiskNode.sizes below ≤ depth := by
          rw [DiskNode.size] at hsize
          omega
        rw [ih hplain hbelow, List.map_map]
        apply List.map_congr_left
        intro names _
        simp
    | link target => exact hplain.elim

section Paths

variable {names other : List String}

theorem isRooted_intercalate (hsome : names ≠ []) (h : ∀ name ∈ names, DiskNode.IsName name) :
    Path.isRooted ("/".intercalate names).toList = false := by
  obtain ⟨first, rest, rfl⟩ := List.exists_cons_of_ne_nil hsome
  obtain ⟨hne, hslash⟩ := h first List.mem_cons_self
  obtain ⟨c, more, hfirst⟩ := List.exists_cons_of_ne_nil
    (show first.toList ≠ [] from fun hnil => hne (String.toList_eq_nil_iff.mp hnil))
  have hc : c ≠ '/' := fun hc => hslash (by simp [hfirst, hc])
  have hstart : ("/".intercalate (first :: rest)).toList.head? = some c := by
    rw [String.toList_intercalate, List.map_cons]
    cases rest with
    | nil => simp [List.intercalate, hfirst]
    | cons next rest => rw [List.map_cons, List.intercalate_cons_cons, hfirst]; rfl
  rw [Path.isRooted, hstart]
  simpa using hc

theorem intercalate_inj (hsome : names ≠ []) (h : ∀ name ∈ names, DiskNode.IsName name)
    (hsomeOther : other ≠ []) (hother : ∀ name ∈ other, DiskNode.IsName name)
    (hsame : ("/".intercalate names).toList = ("/".intercalate other).toList) : names = other := by
  have hcut {parts : List String} (hsome : parts ≠ [])
      (hparts : ∀ name ∈ parts, DiskNode.IsName name) :
      ("/".intercalate parts).toList.splitOn '/' = parts.map String.toList := by
    rw [String.toList_intercalate]
    refine List.splitOn_intercalate '/' (fun part hpart => ?_) (by simpa using hsome)
    obtain ⟨name, hname, rfl⟩ := List.mem_map.mp hpart
    exact (hparts name hname).2
  have hlists := hcut hsome h
  rw [hsame, hcut hsomeOther hother] at hlists
  exact List.map_injective_iff.mpr (fun _ _ => String.toList_injective) hlists.symm

theorem pathBelow_inj (start : String) (hsome : names ≠ [])
    (h : ∀ name ∈ names, DiskNode.IsName name) (hsomeOther : other ≠ [])
    (hother : ∀ name ∈ other, DiskNode.IsName name)
    (hsame : pathBelow start names = pathBelow start other) : names = other := by
  have htexts := congrArg String.toList hsame
  rw [pathBelow, pathBelow, String.toList_ofList, String.toList_ofList,
    Path.join_eq_append _ (isRooted_intercalate hsome h),
    Path.join_eq_append _ (isRooted_intercalate hsomeOther hother)] at htexts
  exact intercalate_inj hsome h hsomeOther hother (List.append_cancel_left htexts)

end Paths

/-- Without links the list is made of the files that the recursion finds and the pattern matches. -/
theorem list_eq_mergeSort (scope : Scope) {pattern : String}
    (hpattern : ∃ tokens, Glob.read pattern = .ok tokens)
    (hroot : disk.node start = .ok (.folder entries))
    (hplain : (DiskNode.folder entries).IsPlain) :
    list scope disk start pattern =
      .ok ((((DiskNode.filesIn scope.ignoredFolders entries).filter fun names =>
        Glob.patternMatches pattern (Path.normalize ("/".intercalate names).toList)).map
          (pathBelow start)).mergeSort fun a b => decide (a ≤ b)) := by
  obtain ⟨tokens, hread⟩ := hpattern
  obtain ⟨here, hdestination, hhere⟩ := Disk.node_eq_ok_iff.mp hroot
  have hresolve := Disk.resolve_of_at? hdestination hhere
  have hdepth : DiskNode.sizes entries ≤ maxDepth disk := by
    have hsize := DiskNode.size_le_of_at? hhere
    rw [DiskNode.size] at hsize
    have hsquare := Nat.le_mul_self (disk.root.size + 1)
    rw [maxDepth]
    omega
  rw [list, hread, hresolve, hroot]
  dsimp only
  rw [filesBelow_eq_filesIn hplain hdepth]
  simp only [List.nil_append, List.map_id', Glob.patternMatches_of_read hread]

/-- The list of a tree without links holds the paths of exactly those files that the pattern matches
from the root on and that are below no folder with an ignored name, the root excepted; what the file
or the root is called does not count. It is ascending by the bytes of the paths. -/
theorem list_of_isPlain (scope : Scope) {pattern : String}
    (hpattern : ∃ tokens, Glob.read pattern = .ok tokens)
    (hroot : disk.node start = .ok (.folder entries))
    (hplain : (DiskNode.folder entries).IsPlain) :
    ∃ listed, list scope disk start pattern = .ok listed ∧
      listed.Pairwise (fun a b => utf8Bytes a.toList < utf8Bytes b.toList) ∧
      ∀ path, path ∈ listed ↔ ∃ names, (DiskNode.folder entries).holdsFile names = true ∧
        (∀ folder ∈ names.dropLast, folder ∉ scope.ignoredFolders) ∧
        Glob.patternMatches pattern (Path.normalize ("/".intercalate names).toList) = true ∧
        path = pathBelow start names := by
  have hnamed : ∀ names ∈ DiskNode.filesIn scope.ignoredFolders entries,
      names ≠ [] ∧ ∀ name ∈ names, DiskNode.IsName name := by
    intro names hnames
    obtain ⟨hfile, -⟩ := (DiskNode.mem_filesIn_iff entries hplain).mp hnames
    refine ⟨?_, DiskNode.isName_of_holdsFile hplain hfile⟩
    rintro rfl
    cases hfile
  refine ⟨_, list_eq_mergeSort scope hpattern hroot hplain, ?_, fun path => ?_⟩
  · refine (pairwise_lt_mergeSort ?_).imp fun hlt => utf8Bytes_lt (String.lt_iff_toList_lt.mp hlt)
    refine List.Nodup.map_on (fun names hnames other hother hsame => ?_)
      ((DiskNode.nodup_filesIn entries hplain).filter _)
    obtain ⟨hsome, hnames⟩ := hnamed names (List.mem_of_mem_filter hnames)
    obtain ⟨hsomeOther, hother⟩ := hnamed other (List.mem_of_mem_filter hother)
    exact pathBelow_inj start hsome hnames hsomeOther hother hsame
  · simp only [List.mem_mergeSort, List.mem_map, List.mem_filter,
      DiskNode.mem_filesIn_iff entries hplain, and_assoc, eq_comm (a := path)]

/-- A root and a file with ignored names are listed, a file below an ignored folder is not. -/
theorem list_of_isPlain_with_ignored_names :
    let inner : DiskNode := .folder [("y.feature", .file .empty)]
    let outer : DiskNode := .folder [("target", inner), ("x.feature", .file .empty)]
    let disk : Disk := { root := .folder [("target", .folder [("b", outer)])] }
    let scope : Scope := { ignoredFolders := ["target", "x.feature"] }
    ∃ listed, list scope disk "target" "**/*.feature" = .ok listed ∧
      "target/b/x.feature" ∈ listed ∧ "target/b/target/y.feature" ∉ listed := by
  intro inner outer disk scope
  have hroot : disk.node "target" = .ok (.folder [("b", outer)]) := by
    refine Disk.node_eq_ok_iff.mpr ⟨["target"], ?_, rfl⟩
    have hfault : Disk.pathFault? "target" = none := by decide +kernel
    have hsegments : Disk.segmentsOf "target" = ["target"] := by decide +kernel
    have hstart : Disk.startOf "target" [] = [] := by decide +kernel
    have hsize : ¬ Disk.maxNameSize < ("target" : String).utf8ByteSize := by decide +kernel
    simp [Disk.destination, hfault, hsegments, hstart, Disk.follow, disk, DiskNode.at?, hsize]
  have hinner : inner.IsPlain := ⟨by decide, by decide, trivial, trivial⟩
  have houter : outer.IsPlain :=
    ⟨by decide, by decide, hinner, by decide, by decide, trivial, trivial⟩
  have hplain : (DiskNode.folder [("b", outer)]).IsPlain := ⟨by decide, by decide, houter, trivial⟩
  have hmatch : Glob.patternMatches "**/*.feature"
      (Path.normalize ("/".intercalate ["b", "x.feature"]).toList) = true := by decide +kernel
  obtain ⟨tokens, hread, -⟩ := Glob.exists_of_patternMatches hmatch
  obtain ⟨listed, hlisted, -, hmem⟩ := list_of_isPlain scope ⟨tokens, hread⟩ hroot hplain
  refine ⟨listed, hlisted, (hmem _).mpr ⟨["b", "x.feature"], rfl, by decide, hmatch, by decide⟩, ?_⟩
  intro hbelow
  obtain ⟨names, hfile, hfolders, -, hpath⟩ := (hmem _).mp hbelow
  have hnames : names = ["b", "target", "y.feature"] := by
    refine pathBelow_inj "target" ?_ (DiskNode.isName_of_holdsFile hplain hfile) (by decide)
      (by decide) (hpath.symm.trans (by decide))
    rintro rfl
    cases hfile
  exact hfolders "target" (by simp [hnames]) (by decide)

end ScenarioAtlas.Listing
