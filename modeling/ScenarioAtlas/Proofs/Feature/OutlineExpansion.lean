import ScenarioAtlas.Proofs.Example.Name
import ScenarioAtlas.Proofs.Feature.RunnableLines

/-!
# Outlines and their examples

An outline has one example for each usable row of its tables, in the order of the rows and with
nothing between them, or one stand-in if there is no such row. The examples go by the number of the
outline's line, which no other header has.
-/

namespace ScenarioAtlas

set_option autoImplicit false

open Line

namespace Layout

variable {naming : Naming} {path text name : String} {featureLine : Nat}
variable {above below before rest : List Line} {header head : Line} {feature : Feature}

theorem filter_outlineLine_of_ne {number : Nat} (hne : header.number ≠ number) :
    (ofHeader naming path featureLine above header below).filter
      (·.outlineLine = some number) = [] := by
  apply List.filter_eq_nil_iff.mpr
  intro scenario hmem
  refine ofHeader_induction (motive := fun scenario =>
    ¬ decide (scenario.outlineLine = some number) = true) ?_ ?_ ?_ hmem
  · simp [ofScenario]
  · simp [ofRow, hne]
  · simp [ofRowless, hne]

theorem filter_outlineLine (hkind : header.kind = .outline name) :
    (ofHeader naming path featureLine above header below).filter
      (·.outlineLine = some header.number) =
        ofOutline naming path featureLine name header.number (tagsAbove above) (body below) := by
  have hall : ofHeader naming path featureLine above header below =
      ofOutline naming path featureLine name header.number (tagsAbove above) (body below) := by
    simp [ofHeader, hkind]
  rw [hall]
  apply List.filter_eq_self.mpr
  intro scenario hmem
  rw [← hall] at hmem
  refine ofHeader_induction (motive := fun scenario =>
    decide (scenario.outlineLine = some header.number) = true) ?_ ?_ ?_ hmem
  · simp [hkind]
  · simp [ofRow]
  · simp [ofRowless]

theorem exists_outline_below (hread : Feature.ofText? naming path text = some feature)
    (hlines : counted text = before ++ head :: rest)
    (hbelow : ∃ line ∈ before, line.kind.isFeature = true) :
    ∃ featureLine above between,
      before = above ++ between ∧
      feature.scenarios = scenariosOf naming path featureLine above (between ++ head :: rest) := by
  obtain ⟨name, above, header, below, hheader, rfl⟩ := exists_of_ofText? hread
  have hsplit := hheader.split
  rw [hlines] at hsplit
  rcases List.append_eq_append_iff.mp hsplit with ⟨middle, habove, -⟩ | ⟨middle, hbefore, hrest⟩
  · obtain ⟨line, hmem, hfeature⟩ := hbelow
    have hnone := hheader.first line (by rw [habove]; exact List.mem_append_left _ hmem)
    rw [hfeature] at hnone
    cases hnone
  · cases middle with
    | nil =>
      obtain ⟨line, hmem, hfeature⟩ := hbelow
      rw [List.append_nil] at hbefore
      have hnone := hheader.first line (hbefore ▸ hmem)
      rw [hfeature] at hnone
      cases hnone
    | cons first between =>
      obtain ⟨rfl, hbelow⟩ := List.cons.inj hrest
      exact ⟨header.number, above ++ [header], between, by simp [hbefore], by
        simp [featureOf, hbelow]⟩

/-- The scenarios of an outline are found by its line, and nothing stands between them. -/
theorem filter_outlineLine_of_read (hread : Feature.ofText? naming path text = some feature)
    (hlines : counted text = before ++ head :: rest) (hkind : head.kind = .outline name)
    (hbelow : ∃ line ∈ before, line.kind.isFeature = true) :
    ∃ featureLine,
      feature.scenarios.filter (·.outlineLine = some head.number) =
        ofOutline naming path featureLine name head.number (tagsAbove before) (body rest) ∧
      ofOutline naming path featureLine name head.number (tagsAbove before) (body rest) <:+:
        feature.scenarios := by
  obtain ⟨featureLine, above, between, rfl, hscenarios⟩ := exists_outline_below hread hlines hbelow
  obtain ⟨hbefore, htail⟩ := counted_split hlines
  have hother : ∀ other ∈ between ++ rest, other.number ≠ head.number := by
    intro other hmem
    rcases List.mem_append.mp hmem with hmem | hmem
    · exact Nat.ne_of_lt (hbefore other (List.mem_append_right _ hmem))
    · exact (Nat.ne_of_lt ((List.pairwise_cons.mp htail).1 other hmem)).symm
  refine ⟨featureLine, ?_, ?_⟩
  · rw [hscenarios, scenariosOf, filter_collect fun other hmem _ _ =>
      filter_outlineLine_of_ne (hother other hmem)]
    exact filter_outlineLine hkind
  · have hinfix := infix_collect (ofHeader naming path featureLine) above between head rest
    rw [hscenarios, scenariosOf]
    simpa [ofHeader, hkind] using hinfix

theorem usableRows_ascending (hlines : counted text = before ++ head :: rest) :
    ((usableRows (body rest)).map UsableRow.line).Pairwise (· < ·) := by
  have hrest := (List.pairwise_cons.mp (counted_split hlines).2).2
  have hblock : ((body rest).map Line.number).Pairwise (· < ·) :=
    List.pairwise_map.mpr (hrest.sublist (List.takeWhile_sublist _))
  exact hblock.sublist (usableRows_lines_sublist (body rest))

/-- An outline below the header of the feature has as many examples as it has usable rows, one after
the other and with names of their own, or one stand-in where there is no such row. -/
theorem ofText?_outline (hread : Feature.ofText? naming path text = some feature)
    (hlines : counted text = before ++ head :: rest) (hkind : head.kind = .outline name)
    (hbelow : ∃ line ∈ before, line.kind.isFeature = true) :
    let rows := usableRows (body rest)
    let found := feature.scenarios.filter (·.outlineLine = some head.number)
    (rows.map UsableRow.line).Pairwise (· < ·) ∧
      found <:+: feature.scenarios ∧
      found.length = max 1 rows.length ∧
      (found.map Scenario.name).Nodup ∧
      (∀ k row, rows[k]? = some row → ∃ scenario, found[k]? = some scenario ∧
        scenario.outlineName = some name ∧
        scenario.standsForOutline = false ∧
        scenario.line = row.line ∧
        scenario.name = naming.exampleName (k + 1) name row.header row.cells ∧
        scenario.steps = (outlineSteps (body rest)).map
          (fun step => Placeholder.substitute step row.header row.cells) ∧
        scenario.tags = tagsAbove before ++ row.tags) ∧
      (rows = [] → ∃ scenario, found = [scenario] ∧
        scenario.name = name ∧
        scenario.line = head.number ∧
        scenario.standsForOutline = true) := by
  intro rows found
  obtain ⟨featureLine, hfound, hinfix⟩ := filter_outlineLine_of_read hread hlines hkind hbelow
  have hfound : found = _ := hfound
  rw [← hfound] at hinfix
  refine ⟨usableRows_ascending hlines, hinfix, ?_⟩
  by_cases hrows : rows = []
  · rw [ofOutline_of_rowless hrows] at hfound
    refine ⟨by simp [hfound, hrows], by simp [hfound], by simp [hrows], fun _ => ?_⟩
    exact ⟨_, hfound, rfl, rfl, rfl⟩
  · rw [ofOutline_of_rows hrows] at hfound
    refine ⟨?_, ?_, fun k row hrow => ?_, fun hnone => absurd hnone hrows⟩
    · have hlength : found.length = rows.length := by rw [hfound, List.length_mapIdx]
      rw [hlength, Nat.max_eq_right (List.length_pos_iff.mpr hrows)]
    · rw [hfound]
      apply List.nodup_iff_injective_getElem.mpr
      intro i j hname
      simp only [List.getElem_map, List.getElem_mapIdx, ofRow] at hname
      exact Fin.ext (Nat.succ.inj (Naming.index_eq_of_exampleName_eq naming hname))
    · refine ⟨ofRow naming path featureLine name head.number (tagsAbove before)
        (outlineSteps (body rest)) (k + 1) row, ?_, rfl, rfl, rfl, rfl, rfl, rfl⟩
      rw [hfound, List.getElem?_mapIdx, hrow, Option.map_some]

theorem ofText?_outline_of_two_tables :
    let text := "Feature: F\n@o\nScenario Outline: O\nGiven <x> and <y>\n@a\nExamples:\n" ++
      "|x|\n|1|\n@b\nExamples:\n|y|\n|2|"
    ∃ feature, Feature.ofText? {} "a.feature" text = some feature ∧
      let found := feature.scenarios.filter (·.outlineLine = some 3)
      (found.map Scenario.name).Nodup ∧
      found.length = 2 ∧
      (∃ first, found[0]? = some first ∧
        first.line = 8 ∧ first.steps = ["Given 1 and <y>"] ∧ first.tags = ["@o", "@a"]) ∧
      ∃ second, found[1]? = some second ∧
        second.line = 12 ∧ second.steps = ["Given <x> and 2"] ∧ second.tags = ["@o", "@b"] := by
  intro text
  have hsome : (Feature.ofText? {} "a.feature" text).isSome := by decide +kernel
  obtain ⟨feature, hread⟩ := Option.isSome_iff_exists.mp hsome
  have hlines : counted text = (counted text).take 2 ++
      ⟨3, "Scenario Outline: O".toList⟩ :: (counted text).drop 3 := by
    decide +kernel
  have hkind : (⟨3, "Scenario Outline: O".toList⟩ : Line).kind = .outline "O" := by decide +kernel
  obtain ⟨-, -, hlength, hnames, hexamples, -⟩ :=
    ofText?_outline hread hlines hkind (by decide +kernel)
  have hrows : usableRows (body ((counted text).drop 3)) =
      [⟨8, ["x"], ["1"], ["@a"]⟩, ⟨12, ["y"], ["2"], ["@b"]⟩] := by
    decide +kernel
  rw [hrows] at hlength hexamples
  obtain ⟨first, hfirst, -, -, hline, -, hsteps, htags⟩ := hexamples 0 _ rfl
  obtain ⟨second, hsecond, -, -, hline', -, hsteps', htags'⟩ := hexamples 1 _ rfl
  refine ⟨feature, hread, hnames, hlength, ⟨first, hfirst, hline, ?_, ?_⟩,
    second, hsecond, hline', ?_, ?_⟩
  · exact hsteps.trans (by decide +kernel)
  · exact htags.trans (by decide +kernel)
  · exact hsteps'.trans (by decide +kernel)
  · exact htags'.trans (by decide +kernel)

end Layout

end ScenarioAtlas
