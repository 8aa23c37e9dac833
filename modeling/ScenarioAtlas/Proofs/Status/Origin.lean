import ScenarioAtlas.Proofs.Status.References

/-!
# Where a found result comes from

A result that is found was reported for the line that was asked for. Its file is told by name alone
where identifiers are exact: by the key that they spell, or by the path in front of the first colon.
A path may go on behind a colon, though, and a name may be a part of a longer one, so the file is
not always the one that was asked for. All that can be told of it is told here.
-/

namespace ScenarioAtlas

set_option autoImplicit false

section Keys

variable {id : String} {key : ResultKey}

theorem ResultKey.scenarioLine_of_suffix (hread : ResultKey.read id = .ok key) {line : Nat}
    (hend : Results.lineSuffix line <:+ id.toList) : key.scenarioLine = line := by
  obtain ⟨path, feature, scenario, hid, -, -, hscenario, -⟩ := ResultKey.read_eq_ok_iff.mp hread
  obtain ⟨front, hfront⟩ := hend
  have hcolon : ':' ∉ scenario :=
    Text.not_mem_of_readNumber? hscenario (by decide) (by decide)
  have hcut := Text.cutLast?_append hcolon (path ++ ':' :: feature)
  rw [← hid, ← hfront, Results.lineSuffix,
    Text.cutLast?_append (Text.colon_not_mem_writeNumber line)] at hcut
  obtain ⟨-, rfl⟩ := Prod.mk.inj (Option.some.inj hcut)
  exact Text.eq_of_readNumber?_writeNumber hscenario

/-- A key of which the text starts with a file's path and a colon has that path, or one that goes
on behind the colon. -/
theorem ResultKey.path_of_start (hread : ResultKey.read id = .ok key) {start : List Char}
    (hnormal : Path.normalize start = start) (hname : start = [] ∨ ".feature".toList <:+ start)
    (hstart : start ++ [':'] <+: id.toList) :
    key.path.toList = start ∨ start ++ [':'] <+: key.path.toList := by
  obtain ⟨path, feature, scenario, hid, hne, hfeature, hscenario, hpath⟩ :=
    ResultKey.read_eq_ok_iff.mp hread
  obtain ⟨rest, hrest⟩ := hstart
  rw [hid, List.append_assoc, List.append_assoc, List.singleton_append, List.cons_append] at hrest
  rcases List.append_eq_append_iff.mp hrest with ⟨behind, rfl, hbehind⟩ | ⟨behind, rfl, hbehind⟩
  · cases behind with
    | nil => exact Or.inl (by rw [hpath, List.append_nil, hnormal])
    | cons c behind =>
      obtain ⟨rfl, -⟩ := List.cons.inj hbehind
      refine Or.inr ⟨Path.normalize behind, ?_⟩
      rw [hpath, Path.normalize_append, hnormal, List.append_assoc]
      rfl
  · cases behind with
    | nil =>
      rw [List.append_nil] at hnormal
      exact Or.inl (by rw [hpath, List.append_nil, hnormal])
    | cons c behind =>
      obtain ⟨rfl, hlines⟩ := List.cons.inj hbehind
      have hcolon {segment : List Char} {line : Nat}
          (hsegment : Text.readNumber? segment = some line) : ':' ∉ segment :=
        Text.not_mem_of_readNumber? hsegment (by decide) (by decide)
      obtain ⟨rfl, -⟩ :=
        (List.append_cons_inj_of_notMem (hcolon hfeature) (hcolon hscenario)).mp hlines
      rcases hname with hname | hname
      · exact absurd (List.append_eq_nil_iff.mp hname).1 hne
      · rw [List.append_cons] at hname
        exact absurd hname (Text.not_suffix_of_readNumber? hfeature rfl (by decide) _)

theorem ResultKey.infix_path (hread : ResultKey.read id = .ok key) {name : List Char}
    (hcolon : ':' ∉ name) (hslash : '\\' ∉ name) (hdot : '.' ∈ name)
    (hin : name <:+: id.toList) : name <:+: key.path.toList := by
  obtain ⟨path, feature, scenario, hid, -, hfeature, hscenario, hpath⟩ :=
    ResultKey.read_eq_ok_iff.mp hread
  have hnumber {segment : List Char} {line : Nat}
      (hsegment : Text.readNumber? segment = some line) : ¬ name <:+: segment := fun h =>
    Text.not_mem_of_readNumber? hsegment (by decide) (by decide) (h.subset hdot)
  rw [hid] at hin
  rcases Text.infix_left_or_right hcolon hin with hin | hin
  · rcases Text.infix_left_or_right hcolon hin with hin | hin
    · obtain ⟨front, back, rfl⟩ := hin
      refine ⟨Path.normalize front, Path.normalize back, ?_⟩
      rw [hpath, Path.normalize_append, Path.normalize_append, Path.normalize_eq_self hslash]
    · exact absurd hin (hnumber hfeature)
  · exact absurd hin (hnumber hscenario)

end Keys

section References

variable {id path : List Char} {scenario : ScenarioRef} {file : FileRef}

theorem ScenarioRef.suffix_of_cutFileLine? {front digits : List Char}
    (h : cutFileLine? id = some (front, digits)) : ".feature".toList <:+ front := by
  rw [cutFileLine?, Option.filter_eq_some_iff] at h
  exact (NodeId.featureStem?_isSome_iff.mp h.2).1

theorem ScenarioRef.suffix_of_path? (hread : read? id = some scenario)
    (hpath : scenario.path? = some path) : ".feature".toList <:+ path := by
  unfold read? at hread
  split at hread
  case h_1 hparts =>
    simp only [keyParts?, Option.bind_eq_bind, Option.bind_eq_some_iff, Prod.exists,
      Option.pure_def, Option.some.injEq, Prod.mk.injEq] at hparts
    obtain ⟨front, _, -, _, _, hcut, rfl, rfl, -⟩ := hparts
    simp only [Option.bind_eq_bind, Option.bind_eq_some_iff, Option.pure_def,
      Option.some.injEq] at hread
    obtain ⟨_, -, _, -, rfl⟩ := hread
    cases hpath
    have hname := Path.suffix_normalize (by decide) (suffix_of_cutFileLine? hcut)
    simpa only [ResultKey.ofPath, String.toList_ofList] using hname
  case h_2 hcut =>
    obtain ⟨line, -, rfl⟩ := Option.map_eq_some_iff.mp hread
    cases hpath
    exact suffix_of_cutFileLine? hcut
  case h_3 =>
    obtain ⟨line, -, rfl⟩ := Option.map_eq_some_iff.mp hread
    cases hpath

theorem FileRef.suffix_of_read? (hread : read? id = some file) :
    ".feature".toList <:+ file.path := by
  obtain ⟨text, -, hline⟩ := List.exists_of_findSome?_eq_some hread
  obtain ⟨stem, -, rfl⟩ := Option.map_eq_some_iff.mp hline
  exact List.suffix_append stem _

theorem Results.trailingFile?_eq_some {name digits : List Char}
    (h : trailingFile? id = some (name, digits)) :
    (∃ path, NodeId.cutLine? id = some (path, digits) ∧ ".feature".toList <:+ path ∧
      name <:+ path) ∧ '.' ∈ name ∧ ∀ c ∈ name, Path.isSeparator c = false ∧ c ≠ ':' := by
  simp only [trailingFile?, Option.bind_eq_bind, Option.bind_eq_some_iff, Prod.exists,
    Text.beforeEnd?_eq_some_iff, Option.ite_none_left_eq_some, Option.some.injEq,
    Prod.mk.injEq] at h
  obtain ⟨_, _, hcut, stem, rfl, -, rfl, rfl⟩ := h
  refine ⟨⟨_, hcut, List.suffix_append stem _, ?_⟩, ?_, ?_⟩
  · exact List.suffix_append_self_iff.mpr (List.rtakeWhile_suffix _ stem)
  · simp
  · intro c hc
    rcases List.mem_append.mp hc with hc | hc
    · simpa using List.mem_rtakeWhile_imp hc
    · exact NodeId.plain_of_mem_feature hc

theorem ScenarioRef.exists_of_trailingFile? {name digits : List Char} {line : Nat}
    (hname : Results.trailingFile? id = some (name, digits))
    (hline : Text.readNumber? digits = some line) :
    ∃ scenario, read? id = some scenario ∧ scenario.line = line := by
  obtain ⟨⟨path, hcut, hends, -⟩, -⟩ := Results.trailingFile?_eq_some hname
  have hnokey : keyParts? id = none := by
    rw [keyParts?, hcut]
    simp only [Option.bind_eq_bind, Option.bind_some, cutFileLine?, NodeId.cutLine?_eq_none hends,
      Option.filter_none, Option.bind_none]
  by_cases hfile : (NodeId.featureStem? path).isSome = true
  · have hcutFile : cutFileLine? id = some (path, digits) :=
      Option.filter_eq_some_iff.mpr ⟨hcut, hfile⟩
    exact ⟨.inFile path line, by simp [read?, hnokey, hcutFile, hline], rfl⟩
  · obtain ⟨hid, hdigits⟩ := NodeId.cutLine?_eq_some_iff.mp hcut
    have hlast : Text.cutLast? ':' id = some (path, digits) :=
      Text.cutLast?_eq_some_iff.mpr ⟨hid, Text.not_mem_of_isDigitRun hdigits (by decide)⟩
    have hcutFile : cutFileLine? id = none := by
      rw [cutFileLine?, hcut, Option.filter_some, if_neg hfile]
    have htrim := Text.trim_of_readNumber? hline
    exact ⟨.onLine line, by simp [read?, hnokey, hcutFile, hlast, htrim, hline], rfl⟩

end References

namespace Results

variable {α : Type} {results : Results α} {value : α} {child parent root : String}
variable {scenario : ScenarioRef} {file : Option FileRef}

def AreKeyed (results : Results α) : Prop :=
  ∀ entry ∈ results, ∃ key, ResultKey.read entry.1 = .ok key

/-- The path that a scenario's identifier has or, where it has none, that of the node above it. -/
def namedPath? (scenario : ScenarioRef) (file : Option FileRef) : Option (List Char) :=
  scenario.path?.or (file.map FileRef.path)

inductive Answers (results : Results α) (child : String) (scenario : ScenarioRef)
    (file : Option FileRef) (root : String) (found : String × α) (key : ResultKey) : Prop where
  | sameName (path : List Char) :
    namedPath? scenario file = some path →
      Path.fileName key.path.toList = Path.fileName path →
        Answers results child scenario file root found key
  /-- It is the line in the file of the node above, whatever path the line came with. -/
  | lineOfParent (own path : List Char) (featureLine line : Nat) :
    scenario = .inFile own line → file = some ⟨path, some featureLine⟩ →
      key = .ofPath (String.ofList (Path.relativeTo path root.toList)) featureLine line →
        Answers results child scenario file root found key
  /-- The path goes on behind that of the file and a colon. -/
  | behindColon (path : List Char) :
    namedPath? scenario file = some path →
      Path.relativeTo path root.toList ++ [':'] <+: key.path.toList →
        Answers results child scenario file root found key
  /-- The name is a part of the path, and the key is the only one on the line to have it. -/
  | partOfName (name digits : List Char) :
    trailingFile? child.toList = some (name, digits) → name <:+: key.path.toList →
      (∀ other ∈ results, name <:+: other.1.toList →
        lineSuffix scenario.line <:+ other.1.toList → other = found) →
        Answers results child scenario file root found key

theorem unique?_eq_some_iff {accept : List Char → Bool} :
    results.unique? accept = some value ↔
      ∃ key, results.filter (fun entry => accept entry.1.toList) = [(key, value)] := by
  unfold unique?
  split
  case h_1 key found hfilter =>
    have hfilter : results.filter (fun entry => accept entry.1.toList) = [(key, found)] := hfilter
    simp [hfilter]
  case h_2 hother =>
    refine iff_of_false nofun ?_
    rintro ⟨key, hfilter⟩
    exact hother key value hfilter

theorem exists_of_unique? {accept : List Char → Bool} (h : results.unique? accept = some value) :
    ∃ found ∈ results, found.2 = value ∧ accept found.1.toList = true ∧
      ∀ other ∈ results, accept other.1.toList = true → other = found := by
  obtain ⟨key, hfilter⟩ := unique?_eq_some_iff.mp h
  have hmem {entry : String × α} :
      entry ∈ results.filter (fun entry => accept entry.1.toList) ↔ entry = (key, value) := by
    rw [hfilter, List.mem_singleton]
  obtain ⟨hfound, haccept⟩ := List.mem_filter.mp (hmem.mpr rfl)
  exact ⟨(key, value), hfound, rfl, haccept,
    fun other hother h => hmem.mp (List.mem_filter.mpr ⟨hother, h⟩)⟩

/-- The three ways in which a result is found. -/
theorem reconcile_cases (h : results.reconcile child parent root = some value) :
    (∃ scenario key, ScenarioRef.read? child.toList = some scenario ∧
      directKey? scenario (FileRef.read? parent.toList) root.toList = some key ∧
        results.lookup key.text = some value) ∨
    (∃ scenario, ScenarioRef.read? child.toList = some scenario ∧
      results.inFile? scenario (FileRef.read? parent.toList) root.toList = some value) ∨
    results.byFileName? child.toList = some value := by
  simp only [reconcile, Option.bind_eq_bind, Option.or_eq_some_iff, Option.bind_eq_some_iff] at h
  rcases h with ⟨scenario, hread, key, hdirect, hkey⟩ | ⟨-, ⟨scenario, hread, hscan⟩ | ⟨-, hname⟩⟩
  · exact Or.inl ⟨scenario, key, hread, hdirect, hkey⟩
  · exact Or.inr (Or.inl ⟨scenario, hread, hscan⟩)
  · exact Or.inr (Or.inr hname)

theorem suffix_of_namedPath? {path : List Char}
    (hread : ScenarioRef.read? child.toList = some scenario)
    (hpath : namedPath? scenario (FileRef.read? parent.toList) = some path) :
    ".feature".toList <:+ path := by
  rw [namedPath?, Option.or_eq_some_iff] at hpath
  rcases hpath with hpath | ⟨-, hpath⟩
  · exact ScenarioRef.suffix_of_path? hread hpath
  · obtain ⟨file, hfile, rfl⟩ := Option.map_eq_some_iff.mp hpath
    exact FileRef.suffix_of_read? hfile

theorem answers_of_directKey? (hkeys : results.AreKeyed) {own : ResultKey}
    (hdirect : directKey? scenario file root.toList = some own)
    (hlookup : results.lookup own.text = some value) :
    ∃ found ∈ results, found.2 = value ∧ ∃ key, ResultKey.read found.1 = .ok key ∧
      key.scenarioLine = scenario.line ∧ Answers results child scenario file root found key := by
  obtain ⟨before, after, rfl, -⟩ := List.lookup_eq_some_iff.mp hlookup
  have hmem : (own.text, value) ∈ before ++ (own.text, value) :: after := by simp
  obtain ⟨key, hread⟩ := hkeys _ hmem
  refine ⟨_, hmem, rfl, key, hread, ?_⟩
  have hspelled (path : List Char) (featureLine line : Nat)
      (hown : own =
        .ofPath (String.ofList (Path.relativeTo path root.toList)) featureLine line) :
      key = own ∧ key.scenarioLine = line ∧
        Path.fileName key.path.toList = Path.fileName path := by
    have hpath : own.path.toList = Path.relativeTo path root.toList := by
      simp [hown, ResultKey.ofPath, Path.normalize_relativeTo]
    have hkey : key = own :=
      ResultKey.eq_of_read_text hread (by rw [hpath, Path.normalize_relativeTo])
    have hne := ResultKey.path_ne_nil_of_read hread
    rw [hkey, hpath] at hne
    refine ⟨hkey, by rw [hkey, hown, ResultKey.ofPath], ?_⟩
    rw [hkey, hpath]
    exact Path.fileName_relativeTo hne
  cases scenario with
  | key asked =>
    obtain ⟨-, hline, hname⟩ := hspelled _ _ _ (Option.some.inj hdirect).symm
    exact ⟨hline, .sameName _ rfl hname⟩
  | inFile path line =>
    obtain ⟨⟨above, _⟩, rfl, hdirect⟩ := Option.bind_eq_some_iff.mp hdirect
    obtain ⟨featureLine, rfl, hdirect⟩ := Option.bind_eq_some_iff.mp hdirect
    have hown := (Option.some.inj hdirect).symm
    obtain ⟨hkey, hline, -⟩ := hspelled _ _ _ hown
    exact ⟨hline, .lineOfParent path above featureLine line rfl rfl (hkey.trans hown)⟩
  | onLine line =>
    obtain ⟨⟨above, _⟩, rfl, hdirect⟩ := Option.bind_eq_some_iff.mp hdirect
    obtain ⟨featureLine, rfl, hdirect⟩ := Option.bind_eq_some_iff.mp hdirect
    obtain ⟨-, hline, hname⟩ := hspelled _ _ _ (Option.some.inj hdirect).symm
    exact ⟨hline, .sameName above rfl hname⟩

/-- The only result for a line of a file is one of that name, if no path goes on behind a colon. -/
theorem answers_of_inFile? (hkeys : results.AreKeyed)
    (hread : ScenarioRef.read? child.toList = some scenario)
    (hscan : results.inFile? scenario (FileRef.read? parent.toList) root.toList = some value) :
    ∃ found ∈ results, found.2 = value ∧ ∃ key, ResultKey.read found.1 = .ok key ∧
      key.scenarioLine = scenario.line ∧
        Answers results child scenario (FileRef.read? parent.toList) root found key := by
  obtain ⟨path, hpath, hunique⟩ := Option.bind_eq_some_iff.mp hscan
  obtain ⟨found, hfound, rfl, haccept, -⟩ := exists_of_unique? hunique
  obtain ⟨key, hkey⟩ := hkeys found hfound
  rw [Bool.and_eq_true, List.isPrefixOf_iff_prefix, List.isSuffixOf_iff_suffix] at haccept
  obtain ⟨hstart, hend⟩ := haccept
  have hname := suffix_of_namedPath? hread hpath
  have hrelative : Path.relativeTo path root.toList = [] ∨
      ".feature".toList <:+ Path.relativeTo path root.toList := by
    by_cases hnil : Path.relativeTo path root.toList = []
    · exact Or.inl hnil
    · have hfile := Path.suffix_fileName (fun c hc => (NodeId.plain_of_mem_feature hc).1) hname
      rw [← Path.fileName_relativeTo hnil] at hfile
      exact Or.inr (hfile.trans (List.rtakeWhile_suffix _ _))
  refine ⟨found, hfound, rfl, key, hkey, ResultKey.scenarioLine_of_suffix hkey hend, ?_⟩
  rcases ResultKey.path_of_start hkey (Path.normalize_relativeTo path root.toList) hrelative hstart
    with hsame | hbehind
  · refine .sameName path hpath ?_
    have hne := ResultKey.path_ne_nil_of_read hkey
    rw [hsame] at hne ⊢
    exact Path.fileName_relativeTo hne
  · exact .behindColon path hpath hbehind

theorem answers_of_byFileName? (hkeys : results.AreKeyed)
    (hnamed : results.byFileName? child.toList = some value) (file : Option FileRef)
    (root : String) :
    ∃ found ∈ results, found.2 = value ∧ ∃ key scenario, ResultKey.read found.1 = .ok key ∧
      ScenarioRef.read? child.toList = some scenario ∧ key.scenarioLine = scenario.line ∧
        Answers results child scenario file root found key := by
  simp only [byFileName?, Option.bind_eq_bind, Option.bind_eq_some_iff, Prod.exists] at hnamed
  obtain ⟨name, digits, htrailing, line, hline, hunique⟩ := hnamed
  obtain ⟨found, hfound, rfl, haccept, honly⟩ := exists_of_unique? hunique
  obtain ⟨key, hkey⟩ := hkeys found hfound
  obtain ⟨scenario, hread, rfl⟩ := ScenarioRef.exists_of_trailingFile? htrailing hline
  simp only [Bool.and_eq_true, Text.contains_iff_infix, List.isSuffixOf_iff_suffix] at haccept honly
  obtain ⟨hname, hend⟩ := haccept
  obtain ⟨-, hdot, hplain⟩ := trailingFile?_eq_some htrailing
  have hcolon : ':' ∉ name := fun hmem => (hplain ':' hmem).2 rfl
  have hslash : '\\' ∉ name := fun hmem => absurd (hplain '\\' hmem).1 (by decide)
  have hpath := ResultKey.infix_path hkey hcolon hslash hdot hname
  refine ⟨found, hfound, rfl, key, scenario, hkey, hread,
    ResultKey.scenarioLine_of_suffix hkey hend, ?_⟩
  exact .partOfName name digits htrailing hpath fun other hother hin hends =>
    honly other hother ⟨hin, hends⟩

/-- A result that is found was reported for the line that the scenario's identifier names. Its file
has the name that was asked for, or it is that of the node above, or its path goes on behind a
colon, or it is the only one on the line to have the name as a part of its path. -/
theorem reconcile_answers (hkeys : results.AreKeyed)
    (h : results.reconcile child parent root = some value) :
    ∃ found ∈ results, found.2 = value ∧ ∃ key scenario, ResultKey.read found.1 = .ok key ∧
      ScenarioRef.read? child.toList = some scenario ∧ key.scenarioLine = scenario.line ∧
        Answers results child scenario (FileRef.read? parent.toList) root found key := by
  rcases reconcile_cases h with ⟨scenario, own, hread, hdirect, hlookup⟩ | ⟨scenario, hread, hscan⟩ |
    hnamed
  · obtain ⟨found, hfound, hvalue, key, hkey, hline, hanswers⟩ :=
      answers_of_directKey? hkeys hdirect hlookup
    exact ⟨found, hfound, hvalue, key, scenario, hkey, hread, hline, hanswers⟩
  · obtain ⟨found, hfound, hvalue, key, hkey, hline, hanswers⟩ :=
      answers_of_inFile? hkeys hread hscan
    exact ⟨found, hfound, hvalue, key, scenario, hkey, hread, hline, hanswers⟩
  · exact answers_of_byFileName? hkeys hnamed _ root

theorem reconcile_answers_of_line_below_other_file :
    let results : Results String :=
      [("a.feature:1:10", "passed"), ("b.feature:1:9", "failed"), ("b.feature:1:10", "failed")]
    results.AreKeyed ∧ results.reconcile "b.feature:10" "a.feature:1" "/ws" = some "passed" ∧
      ∃ found ∈ results, found.2 = "passed" ∧ ∃ key scenario, ResultKey.read found.1 = .ok key ∧
        ScenarioRef.read? "b.feature:10".toList = some scenario ∧
          key.scenarioLine = scenario.line ∧
            Answers results "b.feature:10" scenario (FileRef.read? "a.feature:1".toList) "/ws"
              found key := by
  intro results
  have hkeys : results.AreKeyed := by
    intro entry hentry
    simp only [results, List.mem_cons, List.not_mem_nil, or_false] at hentry
    rcases hentry with rfl | rfl | rfl
    · exact ⟨⟨"a.feature", 1, 10⟩, by decide +kernel⟩
    · exact ⟨⟨"b.feature", 1, 9⟩, by decide +kernel⟩
    · exact ⟨⟨"b.feature", 1, 10⟩, by decide +kernel⟩
  have hfound : results.reconcile "b.feature:10" "a.feature:1" "/ws" = some "passed" := by
    decide +kernel
  exact ⟨hkeys, hfound, reconcile_answers hkeys hfound⟩

/-- Not every result that is found is one of a file with the name that was asked for: `x.feature` is
the end of the name `max.feature`. -/
theorem not_reconcile_sameName :
    ¬ ∀ (results : Results String) (child parent root value : String), results.AreKeyed →
      results.reconcile child parent root = some value →
        ∃ found ∈ results, found.2 = value ∧ ∃ key scenario path,
          ResultKey.read found.1 = .ok key ∧ ScenarioRef.read? child.toList = some scenario ∧
            key.scenarioLine = scenario.line ∧
              namedPath? scenario (FileRef.read? parent.toList) = some path ∧
                Path.fileName key.path.toList = Path.fileName path := by
  intro h
  have hread : ResultKey.read "features/max.feature:1:10" =
      .ok ⟨"features/max.feature", 1, 10⟩ := by decide +kernel
  have hchild : ScenarioRef.read? "/elsewhere/x.feature:10".toList =
      some (.inFile "/elsewhere/x.feature".toList 10) := by decide +kernel
  have hkeys : AreKeyed [("features/max.feature:1:10", "passed")] := by
    intro entry hentry
    rw [List.mem_singleton.mp hentry]
    exact ⟨_, hread⟩
  have hfound : reconcile [("features/max.feature:1:10", "passed")] "/elsewhere/x.feature:10" ""
      "/ws" = some "passed" := by decide +kernel
  obtain ⟨found, hmem, -, key, scenario, path, hkey, hscenario, -, hpath, hname⟩ :=
    h _ _ _ _ _ hkeys hfound
  rw [List.mem_singleton.mp hmem, hread] at hkey
  rw [hchild] at hscenario
  cases hkey
  cases hscenario
  cases hpath
  exact absurd hname (by decide +kernel)

end Results

end ScenarioAtlas
