import Mathlib.Data.List.Nodup
import ScenarioAtlas.Proofs.Distinct
import ScenarioAtlas.Proofs.Status.Origin

/-!
# Which results matter

A search for the result of a scenario looks at the keys of one line only, the line that the
scenario's identifier names. Whatever else was reported, and in whatever order, the answer is the
same.
-/

namespace ScenarioAtlas

set_option autoImplicit false

/-- The line that the identifier of a scenario's node names: what follows its last colon, or all of
it where there is none, is the number with no more than blanks around it. -/
def NamesLine (id : List Char) (line : Nat) : Prop :=
  ∃ segment, (id = segment ∨ ∃ front, id = front ++ ':' :: segment) ∧ ':' ∉ segment ∧
    Text.readNumber? (Text.trim segment) = some line

section Lines

variable {id : List Char} {line : Nat}

theorem namesLine_iff :
    NamesLine id line ↔
      Text.readNumber? (Text.trim (((Text.cutLast? ':' id).map Prod.snd).getD id)) = some line := by
  constructor
  · rintro ⟨segment, rfl | ⟨front, rfl⟩, hcolon, hline⟩
    · rwa [Text.cutLast?_eq_none hcolon, Option.map_none, Option.getD_none]
    · rwa [Text.cutLast?_append hcolon, Option.map_some, Option.getD_some]
  · intro hline
    cases hcut : Text.cutLast? ':' id with
    | none =>
      rw [hcut, Option.map_none, Option.getD_none] at hline
      exact ⟨id, .inl rfl, Text.not_mem_of_cutLast?_eq_none hcut, hline⟩
    | some sides =>
      obtain ⟨hid, hcolon⟩ := Text.cutLast?_eq_some_iff.mp hcut
      rw [hcut, Option.map_some, Option.getD_some] at hline
      exact ⟨sides.2, .inr ⟨sides.1, hid⟩, hcolon, hline⟩

theorem namesLine_of_cutLine? {front digits : List Char}
    (hcut : NodeId.cutLine? id = some (front, digits))
    (hline : Text.readNumber? digits = some line) : NamesLine id line := by
  obtain ⟨hid, hdigits⟩ := NodeId.cutLine?_eq_some_iff.mp hcut
  refine ⟨digits, .inr ⟨front, hid⟩, Text.not_mem_of_isDigitRun hdigits (by decide), ?_⟩
  rwa [Text.trim_of_readNumber? hline]

/-- An identifier is read for no other line than the one it names. -/
theorem ScenarioRef.namesLine_of_read? {scenario : ScenarioRef} (hread : read? id = some scenario) :
    NamesLine id scenario.line := by
  unfold read? at hread
  split at hread
  case h_1 path featureLine digits _ hparts =>
    simp only [keyParts?, Option.bind_eq_bind, Option.bind_eq_some_iff, Prod.exists,
      Option.pure_def, Option.some.injEq, Prod.mk.injEq] at hparts hread
    obtain ⟨front, last, hcut, _, _, -, -, -, rfl⟩ := hparts
    obtain ⟨_, -, line, hline, rfl⟩ := hread
    exact namesLine_of_cutLine? hcut hline
  case h_2 path digits _ hfile =>
    obtain ⟨line, hline, rfl⟩ := Option.map_eq_some_iff.mp hread
    obtain ⟨hcut, -⟩ := Option.filter_eq_some_iff.mp hfile
    exact namesLine_of_cutLine? hcut hline
  case h_3 =>
    obtain ⟨line, hline, rfl⟩ := Option.map_eq_some_iff.mp hread
    exact namesLine_iff.mpr hline

end Lines

namespace Results

variable {α : Type} {results other : Results α} {child parent root : String}

/-- A key of the line that a scenario's identifier names. -/
def Concerns (child key : String) : Prop :=
  ∃ line, NamesLine child.toList line ∧ lineSuffix line <:+ key.toList

def HaveDistinctKeys (results : Results α) : Prop := (results.map Prod.fst).Nodup

instance (results : Results α) : Decidable results.HaveDistinctKeys :=
  inferInstanceAs (Decidable (results.map Prod.fst).Nodup)

theorem HaveDistinctKeys.nodup (h : results.HaveDistinctKeys) : results.Nodup :=
  List.Nodup.of_map Prod.fst h

theorem HaveDistinctKeys.lookup_eq_some_iff (h : results.HaveDistinctKeys) {key : String}
    {value : α} : results.lookup key = some value ↔ (key, value) ∈ results :=
  lookup_eq_some_iff_mem h

theorem unique?_congr (hresults : results.HaveDistinctKeys) (hother : other.HaveDistinctKeys)
    {accept : List Char → Bool}
    (h : ∀ entry, accept entry.1.toList = true → (entry ∈ results ↔ entry ∈ other)) :
    results.unique? accept = other.unique? accept := by
  have hperm : (results.filter fun entry => accept entry.1.toList).Perm
      (other.filter fun entry => accept entry.1.toList) := by
    apply (List.perm_ext_iff_of_nodup (hresults.nodup.filter _) (hother.nodup.filter _)).mpr
    intro entry
    rw [List.mem_filter, List.mem_filter]
    exact and_congr_left (h entry)
  ext value
  rw [unique?_eq_some_iff, unique?_eq_some_iff]
  refine exists_congr fun key => ⟨fun hfilter => ?_, fun hfilter => ?_⟩
  · rw [hfilter] at hperm
    exact (List.singleton_perm.mp hperm).symm
  · rw [hfilter] at hperm
    exact List.perm_singleton.mp hperm

theorem lookup_congr (hresults : results.HaveDistinctKeys) (hother : other.HaveDistinctKeys)
    {key : String} (h : ∀ value, (key, value) ∈ results ↔ (key, value) ∈ other) :
    results.lookup key = other.lookup key := by
  ext value
  rw [hresults.lookup_eq_some_iff, hother.lookup_eq_some_iff, h]

theorem scenarioLine_of_directKey? {scenario : ScenarioRef} {file : Option FileRef}
    {root : List Char} {key : ResultKey} (hdirect : directKey? scenario file root = some key) :
    key.scenarioLine = scenario.line := by
  cases scenario with
  | key own =>
    rw [← Option.some.inj hdirect]
    rfl
  | inFile path line | onLine line =>
    obtain ⟨above, -, hdirect⟩ := Option.bind_eq_some_iff.mp hdirect
    obtain ⟨featureLine, -, hdirect⟩ := Option.bind_eq_some_iff.mp hdirect
    rw [← Option.some.inj hdirect]
    rfl

theorem concerns_of_suffix {scenario : ScenarioRef} {key : String}
    (hread : ScenarioRef.read? child.toList = some scenario)
    (hend : lineSuffix scenario.line <:+ key.toList) : Concerns child key :=
  ⟨scenario.line, ScenarioRef.namesLine_of_read? hread, hend⟩

section Congruence

variable (hresults : results.HaveDistinctKeys) (hother : other.HaveDistinctKeys)
variable (hsame : ∀ entry, Concerns child entry.1 → (entry ∈ results ↔ entry ∈ other))
include hresults hother hsame

theorem lookup_directKey?_congr {scenario : ScenarioRef} {file : Option FileRef} {key : ResultKey}
    (hread : ScenarioRef.read? child.toList = some scenario)
    (hdirect : directKey? scenario file root.toList = some key) :
    results.lookup key.text = other.lookup key.text := by
  refine lookup_congr hresults hother fun value => hsame _ (concerns_of_suffix hread ?_)
  rw [ResultKey.toList_text, scenarioLine_of_directKey? hdirect]
  exact List.suffix_append _ _

theorem inFile?_congr {scenario : ScenarioRef} (file : Option FileRef)
    (hread : ScenarioRef.read? child.toList = some scenario) :
    results.inFile? scenario file root.toList = other.inFile? scenario file root.toList := by
  refine Option.bind_congr fun path _ => unique?_congr hresults hother fun entry haccept => ?_
  rw [Bool.and_eq_true, List.isSuffixOf_iff_suffix] at haccept
  exact hsame entry (concerns_of_suffix hread haccept.2)

theorem byFileName?_congr :
    results.byFileName? child.toList = other.byFileName? child.toList := by
  refine Option.bind_congr fun (name, digits) htrailing => Option.bind_congr fun line hline =>
    unique?_congr hresults hother fun entry haccept => ?_
  obtain ⟨scenario, hread, rfl⟩ := ScenarioRef.exists_of_trailingFile? htrailing hline
  rw [Bool.and_eq_true, List.isSuffixOf_iff_suffix] at haccept
  exact hsame entry (concerns_of_suffix hread haccept.2)

theorem reconcile_congr (parent root : String) :
    results.reconcile child parent root = other.reconcile child parent root := by
  unfold reconcile
  refine congrArg₂ Option.or ?direct (congrArg₂ Option.or ?scanned ?named)
  case direct =>
    exact Option.bind_congr fun scenario hread => Option.bind_congr fun key hdirect =>
      lookup_directKey?_congr hresults hother hsame hread hdirect
  case scanned =>
    exact Option.bind_congr fun scenario hread => inFile?_congr hresults hother hsame _ hread
  case named => exact byFileName?_congr hresults hother hsame

end Congruence

theorem reconcile_eq_none (hline : ∀ line, ¬ NamesLine child.toList line) :
    results.reconcile child parent root = none := by
  have hread (scenario : ScenarioRef) : ScenarioRef.read? child.toList ≠ some scenario :=
    fun hread => hline _ (ScenarioRef.namesLine_of_read? hread)
  refine Option.eq_none_iff_forall_ne_some.mpr fun value hfound => ?_
  rcases reconcile_cases hfound with ⟨scenario, -, hscenario, -⟩ | ⟨scenario, hscenario, -⟩ | hnamed
  · exact hread scenario hscenario
  · exact hread scenario hscenario
  · simp only [byFileName?, Option.bind_eq_bind, Option.bind_eq_some_iff, Prod.exists] at hnamed
    obtain ⟨name, digits, htrailing, line, hnumber, -⟩ := hnamed
    obtain ⟨scenario, hscenario, -⟩ := ScenarioRef.exists_of_trailingFile? htrailing hnumber
    exact hread scenario hscenario

/-- Results that agree on the keys of the line that is asked for give the same answer. So the order of
the results does not matter, and any of another line can be added or taken out. Where no line is asked
for, all of them can be, since there is no answer. -/
theorem reconcile_of_same_concerned (hresults : results.HaveDistinctKeys)
    (hother : other.HaveDistinctKeys) (child parent root : String)
    (hsame : ∀ entry, Concerns child entry.1 → (entry ∈ results ↔ entry ∈ other)) :
    results.reconcile child parent root = other.reconcile child parent root ∧
      ((∀ line, ¬ NamesLine child.toList line) → results.reconcile child parent root = none) :=
  ⟨reconcile_congr hresults hother hsame parent root, reconcile_eq_none⟩

theorem reconcile_of_same_concerned_of_other_line :
    let results : Results String := [("a.feature:1:10", "passed"), ("b.feature:1:10", "failed")]
    let other : Results String :=
      [("a.feature:1:110", "failed"), ("b.feature:1:10", "failed"), ("a.feature:1:10", "passed")]
    results.HaveDistinctKeys ∧ other.HaveDistinctKeys ∧
      (∀ entry, Concerns "outline: +10" entry.1 → (entry ∈ results ↔ entry ∈ other)) ∧
      results.reconcile "outline: +10" "a.feature:1" "/ws" = some "passed" ∧
      other.reconcile "outline: +10" "a.feature:1" "/ws" = some "passed" := by
  intro results other
  have hresults : results.HaveDistinctKeys := by decide +kernel
  have hother : other.HaveDistinctKeys := by decide +kernel
  have hnumber : Text.readNumber? (Text.trim
      (((Text.cutLast? ':' "outline: +10".toList).map Prod.snd).getD "outline: +10".toList)) =
        some 10 := by decide +kernel
  have hsame (entry : String × String) (hentry : Concerns "outline: +10" entry.1) :
      entry ∈ results ↔ entry ∈ other := by
    obtain ⟨line, hline, hend⟩ := hentry
    rw [namesLine_iff, hnumber] at hline
    obtain rfl := Option.some.inj hline
    have hapart : entry ≠ ("a.feature:1:110", "failed") := by
      rintro rfl
      exact absurd hend (by decide +kernel)
    simp only [results, other, List.mem_cons, List.not_mem_nil, or_false, hapart, false_or]
    exact or_comm
  have hfound : results.reconcile "outline: +10" "a.feature:1" "/ws" = some "passed" := by
    decide +kernel
  obtain ⟨hagree, -⟩ :=
    reconcile_of_same_concerned hresults hother "outline: +10" "a.feature:1" "/ws" hsame
  exact ⟨hresults, hother, hsame, hfound, hagree.symm.trans hfound⟩

end Results

end ScenarioAtlas
