import Mathlib.Data.List.Dedup
import Mathlib.Data.List.Sort
import ScenarioAtlas.Proofs.Listing.Cache
import ScenarioAtlas.Proofs.Listing.Notices
import ScenarioAtlas.Proofs.Path
import ScenarioAtlas.Proofs.Text.ByteOrder
import ScenarioAtlas.Workspace

/-!
# Sessions with changing files

A workspace in use: files come, change and go, the clock moves, and the workspace is notified of
files and refreshed. A file that came or went is pending until the workspace is notified of it. A
list that is kept may be wrong about pending files only, so once nothing is pending a refresh finds
the same with the cache as without it.
-/

namespace ScenarioAtlas

set_option autoImplicit false

/-- A path from the root of a workspace on. -/
structure RelativePath where
  text : String
  isBelow : Path.isBelow text.toList = true
  deriving DecidableEq

namespace RelativePath

def normalized (path : RelativePath) : List Char := Path.normalize path.text.toList

def inRoot (root : String) (path : RelativePath) : String :=
  String.ofList (Path.join root.toList path.text.toList)

/-- Whether a notice is about the path, given from the root on or with the root in front. -/
def isNamedBy (root notice : String) (path : RelativePath) : Bool :=
  let notice := Path.normalize notice.toList
  notice = path.normalized || notice = Path.normalize (path.inRoot root).toList

end RelativePath

/-- The files below the root of a workspace, each with its text if that can be read. -/
abbrev Files := List (RelativePath × Option String)

namespace Files

variable (files : Files)

def has (path : RelativePath) : Bool := path ∈ files.map Prod.fst

/-- Sets the text of a file, which is made if it is not there. -/
def write (path : RelativePath) (text : Option String) : Files :=
  (path, text) :: files.filter (·.1 ≠ path)

def delete (path : RelativePath) : Files := files.filter (·.1 ≠ path)

end Files

/-- Whether a source lists exactly the files that a pattern matches, in the order of their paths. -/
def FileSource.Lists (source : FileSource) (root pattern : String) (files : Files) : Prop :=
  ∃ listed, source.list pattern = .ok listed ∧ listed.Pairwise (· < ·) ∧
    ∀ path, path ∈ listed ↔ ∃ file : RelativePath, files.has file = true ∧
      Glob.patternMatches pattern file.normalized = true ∧ path = file.inRoot root

/-- Files in memory, as a workspace sees them below its root. -/
def FileSource.ofFiles (root : String) (files : Files) : FileSource where
  list pattern :=
    match Glob.read pattern with
    | .error error => .error (.invalidPattern error)
    | .ok tokens =>
      let matching := files.filter fun file => Glob.matchesPath tokens file.1.normalized
      .ok ((matching.map fun file => file.1.inRoot root).dedup.mergeSort fun a b => decide (a ≤ b))
  read? path := (files.find? fun file => file.1.inRoot root = path).bind Prod.snd

/-- What happens to a workspace and around it. -/
inductive WorkspaceEvent where
  /-- A file is created or its text is changed. -/
  | write (path : RelativePath) (text : Option String)
  | delete (path : RelativePath)
  | setClock (now : Nat)
  | fileChanged (path : String)
  | refresh (force : Bool)
  | setStrategy (strategy : Strategy)

/-- A workspace, what is around it, and the files that came or went without notice. -/
structure Session where
  workspace : Workspace
  now : Nat
  files : Files
  pending : List RelativePath

namespace Session

def start (settings : Settings) (now : Nat) (files : Files) : Session :=
  { workspace := { settings }, now, files, pending := [] }

variable (source : Files → FileSource)

/-- What an event leads to, where `source` is how the workspace sees the files. -/
def step (session : Session) : WorkspaceEvent → Session
  | .write path text =>
    { session with
      files := session.files.write path text
      pending := if session.files.has path then session.pending else path :: session.pending }
  | .delete path =>
    { session with
      files := session.files.delete path
      pending := if session.files.has path then path :: session.pending else session.pending }
  | .setClock now => { session with now }
  | .fileChanged path =>
    let root := session.workspace.settings.root
    { session with
      workspace := (session.workspace.fileChanged path).1
      pending := session.pending.filter (!·.isNamedBy root path) }
  | .refresh force =>
    { session with
      workspace :=
        (session.workspace.refresh (source session.files) session.now force).1 }
  | .setStrategy strategy =>
    { session with workspace := { session.workspace with strategy } }

def run (session : Session) (events : List WorkspaceEvent) : Session :=
  events.foldl (step source) session

/-- Whether a list is right about all files but the pending ones: it is the list of files that
differ from the present ones by pending ones only. -/
def ListsAllBut (session : Session) (pattern : String) (listed : List String) : Prop :=
  ∃ earlier : Files, (source earlier).list pattern = .ok listed ∧
    ∀ path : RelativePath, Glob.patternMatches pattern path.normalized = true →
      path ∉ session.pending → session.files.has path = earlier.has path

/-- Whether every list that is kept for the feature files is right about all but pending files. -/
def Current (session : Session) : Prop :=
  ∀ entry ∈ session.workspace.cache.entries,
    entry.1 = session.workspace.settings.featureGlob →
      session.ListsAllBut source entry.1 entry.2.files

end Session

namespace Files

variable (files : Files) (path other : RelativePath)

theorem has_iff : files.has path = true ↔ ∃ file ∈ files, file.1 = path := by
  rw [has, decide_eq_true_iff, List.mem_map]

theorem has_write (text : Option String) :
    (files.write path text).has other = (decide (other = path) || files.has other) := by
  rw [Bool.eq_iff_iff, Bool.or_eq_true, decide_eq_true_iff, has_iff, has_iff]
  constructor
  · rintro ⟨file, hmem, rfl⟩
    rcases List.mem_cons.mp hmem with rfl | hmem
    · exact Or.inl rfl
    · exact Or.inr ⟨file, List.mem_of_mem_filter hmem, rfl⟩
  · intro h
    by_cases heq : other = path
    · exact ⟨(path, text), List.mem_cons_self, heq.symm⟩
    · obtain ⟨file, hmem, rfl⟩ := h.resolve_left heq
      exact ⟨file, List.mem_cons_of_mem _ (List.mem_filter.mpr ⟨hmem, decide_eq_true heq⟩), rfl⟩

theorem has_delete :
    (files.delete path).has other = (!decide (other = path) && files.has other) := by
  rw [Bool.eq_iff_iff, Bool.and_eq_true, Bool.not_eq_true', decide_eq_false_iff_not, has_iff,
    has_iff]
  constructor
  · rintro ⟨file, hmem, rfl⟩
    exact ⟨of_decide_eq_true (List.mem_filter.mp hmem).2, file, List.mem_of_mem_filter hmem, rfl⟩
  · rintro ⟨hne, file, hmem, rfl⟩
    exact ⟨file, List.mem_filter.mpr ⟨hmem, decide_eq_true hne⟩, rfl⟩

end Files

theorem FileSource.lists_ofFiles (root : String) (files : Files) {pattern : String}
    (hpattern : ∃ tokens, Glob.read pattern = .ok tokens) :
    (ofFiles root files).Lists root pattern files := by
  obtain ⟨tokens, hread⟩ := hpattern
  have hlist : (ofFiles root files).list pattern =
      .ok (((files.filter fun file => Glob.matchesPath tokens file.1.normalized).map fun file =>
        file.1.inRoot root).dedup.mergeSort fun a b => decide (a ≤ b)) := by
    simp only [ofFiles, hread]
  refine ⟨_, hlist, ?_, fun path => ?_⟩
  · exact pairwise_lt_mergeSort (List.nodup_dedup _)
  · simp only [List.mem_mergeSort, List.mem_dedup, List.mem_map, List.mem_filter,
      Glob.patternMatches, hread]
    constructor
    · rintro ⟨file, ⟨hmem, hmatch⟩, rfl⟩
      exact ⟨file.1, (files.has_iff file.1).mpr ⟨file, hmem, rfl⟩, hmatch, rfl⟩
    · rintro ⟨path, hhas, hmatch, rfl⟩
      obtain ⟨file, hmem, rfl⟩ := (files.has_iff path).mp hhas
      exact ⟨file, ⟨hmem, hmatch⟩, rfl⟩

namespace Session

variable {source : Files → FileSource} {session : Session} {settings : Settings}

/-- What was right about all but pending files stays so if the only files that come or go are
pending from then on. -/
theorem ListsAllBut.of_has {next : Session} {pattern : String} {listed : List String}
    (h : session.ListsAllBut source pattern listed)
    (hnext : ∀ path, path ∉ next.pending →
      path ∉ session.pending ∧ next.files.has path = session.files.has path) :
    next.ListsAllBut source pattern listed := by
  obtain ⟨earlier, hlisted, hsame⟩ := h
  refine ⟨earlier, hlisted, fun path hmatch hpath => ?_⟩
  obtain ⟨hpending, hfiles⟩ := hnext path hpath
  exact hfiles.trans (hsame path hmatch hpending)

theorem listsAllBut_of_list {pattern : String} {listed : List String}
    (h : (source session.files).list pattern = .ok listed) :
    session.ListsAllBut source pattern listed :=
  ⟨session.files, h, fun _ _ _ => rfl⟩

theorem listsAt_of_isNamedBy {root notice pattern : String} {path : RelativePath}
    (hnamed : path.isNamedBy root notice = true)
    (hmatch : Glob.patternMatches pattern path.normalized = true) :
    Cache.ListsAt pattern (Path.normalize notice.toList) := by
  obtain ⟨hown, hbehind⟩ :=
    Cache.listsAt_of_patternMatches hmatch (Path.head?_normalize_ne path.isBelow)
  simp only [RelativePath.isNamedBy, Bool.or_eq_true, decide_eq_true_eq] at hnamed
  rcases hnamed with hnamed | hnamed
  · rw [hnamed]
    exact hown
  · rw [hnamed, RelativePath.inRoot, String.toList_ofList]
    rcases Path.join_eq_or root.toList path.text.toList with hjoin | ⟨folders, hjoin⟩
    · rw [hjoin]
      exact hown
    · rw [hjoin, Path.normalize_append_slash]
      exact hbehind _

theorem step_settings (source : Files → FileSource) (session : Session) (event : WorkspaceEvent) :
    (session.step source event).workspace.settings = session.workspace.settings := by
  cases event <;> rfl

theorem run_settings (session : Session) (events : List WorkspaceEvent) :
    (session.run source events).workspace.settings = session.workspace.settings := by
  induction events generalizing session with
  | nil => rfl
  | cons event rest ih =>
    exact (ih (session.step source event)).trans (step_settings source session event)

/-- Every event leaves the lists right about all but pending files. -/
theorem Current.step (h : session.Current source)
    (hlists : ∃ listed,
      (source session.files).list session.workspace.settings.featureGlob = .ok listed)
    (event : WorkspaceEvent) : (session.step source event).Current source := by
  cases event with
  | write path text =>
    intro entry hentry hpattern
    apply (h entry hentry hpattern).of_has
    intro other hother
    simp only [Session.step] at hother ⊢
    rw [Files.has_write]
    split at hother
    case isTrue hhas =>
      refine ⟨hother, ?_⟩
      by_cases heq : other = path
      · simp [heq, hhas]
      · simp [heq]
    case isFalse =>
      obtain ⟨hne, hpending⟩ := not_or.mp (List.mem_cons.not.mp hother)
      exact ⟨hpending, by simp [hne]⟩
  | delete path =>
    intro entry hentry hpattern
    apply (h entry hentry hpattern).of_has
    intro other hother
    simp only [Session.step] at hother ⊢
    rw [Files.has_delete]
    split at hother
    case isTrue =>
      obtain ⟨hne, hpending⟩ := not_or.mp (List.mem_cons.not.mp hother)
      exact ⟨hpending, by simp [hne]⟩
    case isFalse hhas =>
      refine ⟨hother, ?_⟩
      by_cases heq : other = path
      · simp [heq, Bool.eq_false_iff.mpr hhas]
      · simp [heq]
  | setClock now => exact h
  | setStrategy strategy => exact h
  | fileChanged path =>
    intro entry hentry hpattern
    obtain ⟨hkept, -, -, hnowhere⟩ := Cache.mem_invalidateMatching_iff.mp hentry
    obtain ⟨earlier, hlisted, hsame⟩ := h entry hkept hpattern
    refine ⟨earlier, hlisted, fun other hmatch hother => ?_⟩
    refine hsame other hmatch fun hpending => hother (List.mem_filter.mpr ⟨hpending, ?_⟩)
    rw [Bool.not_eq_true', Bool.eq_false_iff]
    intro hnamed
    rw [hpattern] at hnowhere
    exact hnowhere (listsAt_of_isNamedBy hnamed (hpattern ▸ hmatch))
  | refresh force =>
    intro entry hentry hpattern
    obtain ⟨listed, hlisted⟩ := hlists
    rcases Cache.discover_cases session.workspace.settings.cache session.workspace.cache
        session.now { pattern := session.workspace.settings.featureGlob, force } hlisted with
      ⟨-, -, -, hkept⟩ | ⟨-, hnew⟩
    · exact h entry (hkept ▸ hentry) hpattern
    · rcases hnew entry hentry with rfl | hmem
      · exact listsAllBut_of_list hlisted
      · exact h entry hmem hpattern

theorem Current.run (h : session.Current source)
    (hlists : ∀ files, ∃ listed,
      (source files).list session.workspace.settings.featureGlob = .ok listed)
    (events : List WorkspaceEvent) : (session.run source events).Current source := by
  induction events generalizing session with
  | nil => exact h
  | cons event rest ih =>
    apply ih (h.step (hlists _) event)
    rw [step_settings source session event]
    exact hlists

/-- A list that is right about all but pending files is the present list once none is pending. -/
theorem ListsAllBut.eq_of_pending {root pattern : String} {kept listed : List String}
    (hsource : ∀ files, (source files).Lists root pattern files) (hnone : session.pending = [])
    (h : session.ListsAllBut source pattern kept)
    (hlisted : (source session.files).list pattern = .ok listed) : kept = listed := by
  obtain ⟨earlier, hkept, hsame⟩ := h
  obtain ⟨old, hold, holdSorted, hmemOld⟩ := hsource earlier
  obtain ⟨new, hnew, hnewSorted, hmemNew⟩ := hsource session.files
  obtain rfl : old = kept := Except.ok.inj (hold.symm.trans hkept)
  obtain rfl : new = listed := Except.ok.inj (hnew.symm.trans hlisted)
  apply List.Pairwise.eq_of_mem_iff holdSorted hnewSorted
  intro path
  rw [hmemOld, hmemNew]
  constructor
  · rintro ⟨file, hhas, hmatch, rfl⟩
    exact ⟨file, (hsame file hmatch (by simp [hnone])).trans hhas, hmatch, rfl⟩
  · rintro ⟨file, hhas, hmatch, rfl⟩
    exact ⟨file, (hsame file hmatch (by simp [hnone])).symm.trans hhas, hmatch, rfl⟩

/-- With nothing pending a refresh goes through the present list, forced or not. -/
theorem Current.discover_eq (root : String) {listed : List String} (h : session.Current source)
    (hsource : ∀ files, (source files).Lists root session.workspace.settings.featureGlob files)
    (hnone : session.pending = [])
    (hlisted : (source session.files).list session.workspace.settings.featureGlob = .ok listed)
    (force : Bool) :
    (session.workspace.cache.discover session.workspace.settings.cache session.now
      { pattern := session.workspace.settings.featureGlob, force }
      (source session.files).list).2 = listed := by
  rcases Cache.discover_cases session.workspace.settings.cache session.workspace.cache
      session.now { pattern := session.workspace.settings.featureGlob, force } hlisted with
    ⟨kept, hmem, hfound, -⟩ | ⟨hfound, -⟩
  · rw [hfound]
    exact (h _ hmem rfl).eq_of_pending hsource hnone hlisted
  · exact hfound

theorem start_current (settings : Settings) (now : Nat) (files : Files) :
    (start settings now files).Current source := nofun

end Session

theorem Workspace.length_eq_taken_add_skipped (workspace : Workspace) (source : FileSource)
    (listed : List String) :
    listed.length = (listed.filterMap (workspace.load? source)).length +
      listed.countP fun path => (workspace.load? source path).isNone := by
  rw [List.length_filterMap_eq_countP, List.length_eq_countP_add_countP
    (fun path => (workspace.load? source path).isSome) (l := listed)]
  congr 1
  apply List.countP_congr
  intro path _
  cases workspace.load? source path <;> simp

/-- What a refresh takes up from the files that it has listed: the features of those that have one. -/
theorem Workspace.refresh_of_listed {workspace : Workspace} {source : FileSource} {now : Nat}
    {force : Bool} {listed : List String}
    (h : (workspace.cache.discover workspace.settings.cache now
      { pattern := workspace.settings.featureGlob, force } source.list).2 = listed) :
    (workspace.refresh source now force).1.features = listed.filterMap (workspace.load? source) ∧
      (workspace.refresh source now force).2 =
        { files := listed.length
          features := (listed.filterMap (workspace.load? source)).length
          scenarios :=
            ((listed.filterMap (workspace.load? source)).flatMap Feature.scenarios).length
          skipped := listed.countP fun path => (workspace.load? source path).isNone } := by
  have hskipped : listed.length - (listed.filterMap (workspace.load? source)).length =
      listed.countP fun path => (workspace.load? source path).isNone := by
    have hlength := workspace.length_eq_taken_add_skipped source listed
    omega
  have hrefresh : workspace.refresh source now force =
      ({ workspace with
        cache := (workspace.cache.discover workspace.settings.cache now
          { pattern := workspace.settings.featureGlob, force } source.list).1 } : Workspace).takeUp
        source listed := by
    rw [← h]
    rfl
  rw [hrefresh, ← hskipped]
  exact ⟨rfl, rfl⟩

namespace Session

variable {source : Files → FileSource}

/-- However a workspace came to where it is, with nothing pending a refresh that may use the cache
finds the same as one that may not: the features in the listed files, one after the other. -/
theorem refresh_eq_forced (settings : Settings)
    (hglob : ∃ tokens, Glob.read settings.featureGlob = .ok tokens)
    (hsource : ∀ files pattern, (∃ tokens, Glob.read pattern = .ok tokens) →
      (source files).Lists settings.root pattern files)
    (now : Nat) (files : Files) (events : List WorkspaceEvent)
    (hnone : ((start settings now files).run source events).pending = []) :
    let session := (start settings now files).run source events
    let kept := session.workspace.refresh (source session.files) session.now false
    let forced := session.workspace.refresh (source session.files) session.now true
    kept.1.features = forced.1.features ∧ kept.2 = forced.2 ∧
      ∃ listed, (source session.files).list settings.featureGlob = .ok listed ∧
        forced.1.features = listed.filterMap (fun path =>
          ((source session.files).read? path).bind (Feature.ofText? settings.naming path)) ∧
        forced.2.files = listed.length ∧
        forced.2.features = forced.1.features.length ∧
        forced.2.scenarios = (forced.1.features.flatMap Feature.scenarios).length ∧
        forced.2.files = forced.2.features + forced.2.skipped := by
  intro session kept forced
  have hsettings : session.workspace.settings = settings := run_settings _ _
  have hcurrent : session.Current source := (start_current settings now files).run
    (fun files => (hsource files _ hglob).imp fun _ h => h.1) events
  obtain ⟨listed, hlisted, -⟩ := hsource session.files _ hglob
  have hdiscover (force : Bool) := hcurrent.discover_eq settings.root
    (fun files => by rw [hsettings]; exact hsource files _ hglob) hnone
    (by rw [hsettings]; exact hlisted) force
  obtain ⟨hkeptFeatures, hkeptSummary⟩ := Workspace.refresh_of_listed (hdiscover false)
  obtain ⟨hforcedFeatures, hforcedSummary⟩ := Workspace.refresh_of_listed (hdiscover true)
  have hload : session.workspace.load? (source session.files) = fun path =>
      ((source session.files).read? path).bind (Feature.ofText? settings.naming path) := by
    rw [← hsettings]
    rfl
  refine ⟨hkeptFeatures.trans hforcedFeatures.symm, hkeptSummary.trans hforcedSummary.symm, listed,
    hlisted, hload ▸ hforcedFeatures, ?_, ?_, ?_, ?_⟩
  · rw [hforcedSummary]
  · rw [hforcedSummary, hforcedFeatures]
  · rw [hforcedSummary, hforcedFeatures]
  · rw [hforcedSummary]
    exact session.workspace.length_eq_taken_add_skipped _ listed

theorem refresh_eq_forced_of_new_file :
    let path : RelativePath := ⟨"a.feature", rfl⟩
    let settings : Settings := { root := "/ws" }
    let session := (start settings 0 []).run (FileSource.ofFiles "/ws")
      [.refresh true, .write path (some "Feature: F"), .fileChanged "/ws/a.feature"]
    let source := FileSource.ofFiles "/ws" session.files
    (session.workspace.refresh source session.now false).2 =
        (session.workspace.refresh source session.now true).2 ∧
      (session.workspace.refresh source session.now true).2 =
        { files := 1, features := 1, scenarios := 0, skipped := 0 } := by
  intro path settings session source
  have hmatch : Glob.patternMatches settings.featureGlob path.normalized = true := by
    decide +kernel
  obtain ⟨tokens, hglob, -⟩ := Glob.exists_of_patternMatches hmatch
  exact ⟨(refresh_eq_forced settings ⟨tokens, hglob⟩
    (fun files _ hpattern => FileSource.lists_ofFiles "/ws" files hpattern) 0 [] _
    (by decide +kernel)).2.1, by decide +kernel⟩

end Session

end ScenarioAtlas
