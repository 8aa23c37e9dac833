import Mathlib.Data.List.Nodup
import ScenarioAtlas.Proofs.Distinct
import ScenarioAtlas.Proofs.Feature.Reading

/-!
# The lines that can be run

A feature file has one scenario for each line that can be run and no other: the header of a scenario,
the header of an outline without usable rows, and each usable row. The scenarios come in the order of
their lines, so a line and a result key stand for one scenario at most.
-/

namespace ScenarioAtlas

set_option autoImplicit false

open Line

namespace Layout

/-- The lines that can be run, among those below the header of a feature. -/
inductive Runnable (below : List Line) : Nat → Prop where
  | scenario {before after : List Line} {header : Line} {name : String} :
    below = before ++ header :: after → header.kind = .scenario name → Runnable below header.number
  | outline {before after : List Line} {header : Line} {name : String} :
    below = before ++ header :: after → header.kind = .outline name →
      usableRows (body after) = [] → Runnable below header.number
  | row {before after : List Line} {header : Line} {name : String} {row : UsableRow} :
    below = before ++ header :: after → header.kind = .outline name →
      row ∈ usableRows (body after) → Runnable below row.line

variable {naming : Naming} {path : String} {featureLine : Nat}
variable {above below : List Line} {header : Line} {scenario : Scenario}

theorem runnable_of_mem_scenariosOf
    (h : scenario ∈ scenariosOf naming path featureLine above below) :
    Runnable below scenario.line := by
  obtain ⟨before, header, after, hsplit, h⟩ := mem_scenariosOf_iff.mp h
  unfold ofHeader at h
  cases hkind : header.kind with
  | scenario name =>
    rw [hkind] at h
    rw [List.mem_singleton.mp h]
    exact .scenario hsplit hkind
  | outline name =>
    rw [hkind] at h
    dsimp only at h
    by_cases hrows : usableRows (body after) = []
    · rw [ofOutline_of_rowless hrows] at h
      rw [List.mem_singleton.mp h]
      exact .outline hsplit hkind hrows
    · rw [ofOutline_of_rows hrows] at h
      have hline := List.mem_map_of_mem (f := Scenario.line) h
      rw [map_line_ofRow] at hline
      obtain ⟨row, hrow, hline⟩ := List.mem_map.mp hline
      exact hline ▸ .row hsplit hkind hrow
  | _ => simp [hkind] at h

theorem mem_lines_of_runnable {line : Nat} (h : Runnable below line) :
    line ∈ (scenariosOf naming path featureLine above below).map Scenario.line := by
  have hheader {before after : List Line} {header : Line} (hsplit : below = before ++ header :: after)
      (h : line ∈ (ofHeader naming path featureLine (above ++ before) header after).map
        Scenario.line) :
      line ∈ (scenariosOf naming path featureLine above below).map Scenario.line := by
    obtain ⟨scenario, hmem, rfl⟩ := List.mem_map.mp h
    exact List.mem_map_of_mem (mem_scenariosOf_iff.mpr ⟨before, header, after, hsplit, hmem⟩)
  cases h with
  | scenario hsplit hkind => exact hheader hsplit (by simp [ofHeader, hkind, ofScenario])
  | outline hsplit hkind hrows =>
    exact hheader hsplit (by simp [ofHeader, hkind, ofOutline_of_rowless hrows, ofRowless])
  | row hsplit hkind hrow =>
    apply hheader hsplit
    have hrows := List.ne_nil_of_mem hrow
    simp only [ofHeader, hkind, ofOutline_of_rows hrows, map_line_ofRow]
    exact List.mem_map_of_mem hrow

theorem origin_of_mem_scenariosOf
    (h : scenario ∈ scenariosOf naming path featureLine above below) :
    scenario.path = path ∧ scenario.featureLine = some featureLine ∧
      scenario.editorLine = scenario.line - 1 := by
  obtain ⟨before, header, after, -, h⟩ := mem_scenariosOf_iff.mp h
  exact ofHeader_induction (motive := fun scenario => scenario.path = path ∧
      scenario.featureLine = some featureLine ∧ scenario.editorLine = scenario.line - 1)
    (fun _ _ _ _ => ⟨rfl, rfl, rfl⟩) (fun _ _ _ _ _ _ => ⟨rfl, rfl, rfl⟩)
    (fun _ _ _ _ => ⟨rfl, rfl, rfl⟩) h

section Header

variable {text name : String}

theorem IsHeader.ascending (h : IsHeader name (counted text) above header below) :
    (header :: below).Pairwise (·.number < ·.number) :=
  (counted_split h.split).2

theorem IsHeader.scenarios_ascending (naming : Naming) (path : String)
    (h : IsHeader name (counted text) above header below) :
    ((featureOf naming path name above header below).scenarios.map Scenario.line).Pairwise
      (· < ·) := by
  have hbelow := List.pairwise_map.mpr (List.pairwise_cons.mp h.ascending).2
  exact hbelow.sublist scenariosOf_lines_sublist

theorem IsHeader.lt_line (h : IsHeader name (counted text) above header below)
    (hmem : scenario ∈ (featureOf naming path name above header below).scenarios) :
    header.number < scenario.line := by
  have hline := scenariosOf_lines_sublist.subset (List.mem_map_of_mem (f := Scenario.line) hmem)
  obtain ⟨line, hbelow, hline⟩ := List.mem_map.mp hline
  exact hline ▸ (List.pairwise_cons.mp h.ascending).1 line hbelow

end Header

end Layout

theorem Feature.scenarios_ascending {naming : Naming} {path text : String} {feature : Feature}
    (hread : ofText? naming path text = some feature) :
    (feature.scenarios.map Scenario.line).Pairwise (· < ·) := by
  obtain ⟨name, above, header, below, hheader, rfl⟩ := Layout.exists_of_ofText? hread
  exact hheader.scenarios_ascending naming path

theorem Feature.scenarioAt?_eq {feature : Feature} {scenario : Scenario}
    (hlines : (feature.scenarios.map Scenario.line).Nodup) (h : scenario ∈ feature.scenarios) :
    feature.scenarioAt? scenario.line = some scenario := by
  refine find?_eq_some_of_unique h (beq_self_eq_true _) fun found hfound hline => ?_
  exact List.inj_on_of_nodup_map hlines hfound h (eq_of_beq hline)

namespace Layout

/-- A text is read into a feature if some counted line can be its header, and then the scenarios are
exactly the lines below the first such line that can be run, in order and each once. -/
theorem ofText?_runnable (naming : Naming) (path text : String) :
    (Feature.ofText? naming path text = none ↔
      ∀ line ∈ counted text, line.kind.isFeature = false) ∧
    ∀ feature, Feature.ofText? naming path text = some feature →
      ∃ above header below, IsHeader feature.name (counted text) above header below ∧
        feature.line = some header.number ∧
        (feature.scenarios.map Scenario.line).Pairwise (· < ·) ∧
        (∀ line, line ∈ feature.scenarios.map Scenario.line ↔ Runnable below line) ∧
        (feature.scenarios.map Scenario.resultKey?).Nodup ∧
        ∀ scenario ∈ feature.scenarios,
          header.number < scenario.line ∧
          scenario.editorLine = scenario.line - 1 ∧
          scenario.path = path ∧
          scenario.featureLine = some header.number ∧
          scenario.resultKey? = some (.ofPath path header.number scenario.line) ∧
          feature.scenarioAt? scenario.line = some scenario := by
  refine ⟨ofText?_eq_none_iff, fun feature hread => ?_⟩
  obtain ⟨name, above, header, below, hheader, rfl⟩ := exists_of_ofText? hread
  have hascending := hheader.scenarios_ascending naming path
  have hnodup := hascending.imp Nat.ne_of_lt
  have hkey : ∀ scenario ∈ scenariosOf naming path header.number (above ++ [header]) below,
      scenario.resultKey? = some (.ofPath path header.number scenario.line) := by
    intro scenario hmem
    obtain ⟨hpath, hline, -⟩ := origin_of_mem_scenariosOf hmem
    simp [Scenario.resultKey?, hpath, hline]
  refine ⟨above, header, below, hheader, rfl, hascending, fun line => ?_, ?_, ?_⟩
  · constructor
    · intro hmem
      obtain ⟨scenario, hscenario, rfl⟩ := List.mem_map.mp hmem
      exact runnable_of_mem_scenariosOf hscenario
    · exact mem_lines_of_runnable
  · have hkeys : (featureOf naming path name above header below).scenarios.map Scenario.resultKey? =
        ((featureOf naming path name above header below).scenarios.map Scenario.line).map
          fun line => some (ResultKey.ofPath path header.number line) := by
      rw [List.map_map]
      exact List.map_congr_left hkey
    rw [hkeys]
    have hinjective : Function.Injective fun line =>
        some (ResultKey.ofPath path header.number line) := by
      intro a b hab
      simpa [ResultKey.ofPath] using hab
    exact List.Nodup.map hinjective hnodup
  · intro scenario hmem
    obtain ⟨hpath, hline, heditor⟩ := origin_of_mem_scenariosOf hmem
    exact ⟨hheader.lt_line hmem, heditor, hpath, hline, hkey scenario hmem,
      Feature.scenarioAt?_eq hnodup hmem⟩

theorem ofText?_runnable_of_two_rows :
    let text := "Feature: F\nScenario Outline: O\nExamples:\n|x|\n|1|\n|2|"
    ∃ feature, Feature.ofText? {} "a.feature" text = some feature ∧
      feature.scenarios.map Scenario.line = [5, 6] ∧
      ∃ above header below, IsHeader feature.name (counted text) above header below ∧
        ∀ line, line ∈ feature.scenarios.map Scenario.line ↔ Runnable below line := by
  intro text
  have hsome : (Feature.ofText? {} "a.feature" text).map
      (fun feature => feature.scenarios.map Scenario.line) = some [5, 6] := by
    decide +kernel
  obtain ⟨feature, hread, hfound⟩ := Option.map_eq_some_iff.mp hsome
  obtain ⟨above, header, below, hheader, -, -, hlines, -⟩ :=
    (ofText?_runnable {} "a.feature" text).2 feature hread
  exact ⟨feature, hread, hfound, above, header, below, hheader, hlines⟩

end Layout

end ScenarioAtlas
