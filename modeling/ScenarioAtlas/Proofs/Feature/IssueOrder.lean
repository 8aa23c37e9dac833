import ScenarioAtlas.Proofs.Feature.Reading

/-!
# The order of issues

Each line of a file is the place of at most one issue or one scenario, never of both. Lines are read
in their order and an issue is kept at once, apart from a doc string that the file ends in, whose
line is the last one that is not inside it. So the issues come in the order of their lines.
-/

namespace ScenarioAtlas

set_option autoImplicit false

open Line

/-- The line of the header of an open block that scenarios come from. -/
def Block.line? : Block → Option Nat
  | .none | .background => Option.none
  | .scenario own => some own.line
  | .outline own => some own.line

namespace Draft

/-- The lines of the issues, and that of an open doc string, which is one if the file ends in it. -/
def issueLines (draft : Draft) : List Nat :=
  draft.issues.map Issue.line ++ (draft.docString.map Prod.snd).toList

/-- The lines of the scenarios, and that of an open block, which may be one of a scenario. -/
def scenarioLines (draft : Draft) : List Nat :=
  draft.scenarios.map Scenario.line ++ draft.block.line?.toList

/-- What reading lines with the given numbers does to a draft: what it has is kept, what is added is
on those lines, and no added line is both that of an issue and that of a scenario. -/
structure Extends (numbers : List Nat) (draft next : Draft) : Prop where
  issues : draft.issues <+: next.issues
  scenarios : draft.scenarios <+: next.scenarios
  issueLines : next.issueLines.Sublist (draft.issueLines ++ numbers)
  scenarioLines : next.scenarioLines ⊆ draft.scenarioLines ++ numbers
  apart : ∀ n ∈ next.issueLines, n ∈ next.scenarioLines →
    n ∈ draft.issueLines ∨ n ∈ draft.scenarioLines

namespace Extends

variable {draft mid next : Draft} {numbers others : List Nat}

theorem refl (draft : Draft) : Extends [] draft draft where
  issues := List.prefix_rfl
  scenarios := List.prefix_rfl
  issueLines := by simp
  scenarioLines := by simp
  apart := fun _ hissue _ => Or.inl hissue

theorem trans (h : Extends numbers draft mid) (h' : Extends others mid next)
    (hdisjoint : ∀ n ∈ numbers, n ∉ others) : Extends (numbers ++ others) draft next where
  issues := h.issues.trans h'.issues
  scenarios := h.scenarios.trans h'.scenarios
  issueLines := by
    rw [← List.append_assoc]
    exact h'.issueLines.trans (h.issueLines.append_right others)
  scenarioLines := by
    rw [← List.append_assoc]
    intro n hn
    rcases List.mem_append.mp (h'.scenarioLines hn) with hn | hn
    · exact List.mem_append_left others (h.scenarioLines hn)
    · exact List.mem_append_right _ hn
  apart := by
    intro n hissue hscenario
    have hsecond (hn : n ∈ numbers) : n ∈ mid.issueLines ∧ n ∈ mid.scenarioLines := by
      have hother := hdisjoint n hn
      exact ⟨(List.mem_append.mp (h'.issueLines.subset hissue)).resolve_right hother,
        (List.mem_append.mp (h'.scenarioLines hscenario)).resolve_right hother⟩
    have hfirst (hn : n ∈ numbers) : n ∈ draft.issueLines ∨ n ∈ draft.scenarioLines :=
      h.apart n (hsecond hn).1 (hsecond hn).2
    rcases h'.apart n hissue hscenario with hmid | hmid
    · exact (List.mem_append.mp (h.issueLines.subset hmid)).elim Or.inl hfirst
    · exact (List.mem_append.mp (h.scenarioLines hmid)).elim Or.inr hfirst

end Extends

variable (naming : Naming) (path : String) {draft next : Draft} {n : Nat}

section Steps

theorem Extends.of_silent (hissues : next.issues = draft.issues)
    (hdoc : next.docString = draft.docString) (hscenarios : draft.scenarios <+: next.scenarios)
    (hlines : next.scenarioLines ⊆ draft.scenarioLines ++ [n]) : Extends [n] draft next := by
  have hsame : next.issueLines = draft.issueLines := by
    rw [Draft.issueLines, hissues, hdoc, Draft.issueLines]
  refine ⟨hissues ▸ List.prefix_rfl, hscenarios, ?_, hlines, ?_⟩
  · rw [hsame]
    exact List.sublist_append_left _ _
  · intro m hissue _
    exact Or.inl (hsame ▸ hissue)

theorem Extends.of_report {kind : IssueKind} (hissues : next.issues = draft.issues ++ [⟨n, kind⟩])
    (hopen : draft.docString = none) (hdoc : next.docString = none)
    (hscenarios : draft.scenarios <+: next.scenarios)
    (hlines : next.scenarioLines ⊆ draft.scenarioLines) : Extends [n] draft next := by
  refine ⟨hissues ▸ List.prefix_append _ _, hscenarios, ?_, ?_, ?_⟩
  · simp [Draft.issueLines, hissues, hopen, hdoc]
  · exact List.Subset.trans hlines (List.subset_append_left _ _)
  · intro m _ hscenario
    exact Or.inr (hlines hscenario)

theorem endBlock_keeps (draft : Draft) :
    draft.scenarios <+: (draft.endBlock path).scenarios := by
  rw [endBlock_eq {} path draft []]
  exact List.prefix_append _ _

@[simp]
theorem endBlock_block (draft : Draft) : (draft.endBlock path).block = .none := by
  rw [endBlock_eq {} path draft []]

theorem endBlock_lines (draft : Draft) :
    (draft.endBlock path).scenarios.map Scenario.line ⊆ draft.scenarioLines := by
  unfold endBlock scenarioLines
  cases draft.block with
  | none | background => simp [Block.line?]
  | scenario own => simp [Block.line?, addScenario]
  | outline own =>
    by_cases hused : own.usedRows = 0
    · simp [Block.line?, addScenario, hused, standIn, Scenario.asOutline, Scenario.new]
    · simp [hused]

theorem Extends.of_endBlock (hissues : next.issues = draft.issues)
    (hdoc : next.docString = draft.docString)
    (hscenarios : next.scenarios = (draft.endBlock path).scenarios)
    (hblock : next.block.line?.toList ⊆ [n]) : Extends [n] draft next := by
  apply Extends.of_silent hissues hdoc
  · rw [hscenarios]
    exact endBlock_keeps path draft
  · rw [Draft.scenarioLines, hscenarios]
    apply List.append_subset.mpr
    exact ⟨List.Subset.trans (endBlock_lines path draft) (List.subset_append_left _ _),
      List.Subset.trans hblock (List.subset_append_right _ _)⟩

end Steps

section Rows

inductive RowStep (draft : Draft) (own : Outline) (examples : Examples) (row : Line) : Draft → Prop
  | ignored : examples.rejected = true → RowStep draft own examples row draft
  | malformed : examples.rejected = false → row.cells? = none →
    RowStep draft own examples row (draft.report row.number .malformedRow)
  | nameless {cells : List String} : examples.rejected = false → row.cells? = some cells →
    examples.header = none → "" ∈ cells →
    RowStep draft own examples row
      { draft.report row.number .emptyHeaderCell with
        block := .outline { own with examples := some { examples with rejected := true } } }
  | header {cells : List String} : examples.rejected = false → row.cells? = some cells →
    examples.header = none → "" ∉ cells →
    RowStep draft own examples row
      { draft with
        block := .outline { own with examples := some { examples with header := some cells } } }
  | mismatch {cells header : List String} : examples.rejected = false → row.cells? = some cells →
    examples.header = some header → cells.length ≠ header.length →
    RowStep draft own examples row
      (draft.report row.number (.cellCountMismatch header.length cells.length))
  | used {cells header : List String} : examples.rejected = false → row.cells? = some cells →
    examples.header = some header → cells.length = header.length →
    RowStep draft own examples row
      { draft.addScenario
          (exampleOf naming path own examples draft.featureLine header cells row.number) with
        block := .outline { own with usedRows := own.usedRows + 1 } }

theorem addRow_step {own : Outline} {examples : Examples} {row : Line} (hkind : row.kind = .row)
    (hblock : draft.block = .outline own) (hexamples : own.examples = some examples) :
    RowStep naming path draft own examples row
      (draft.addRow naming path row.trimmed row.number) := by
  have hcells : (Row.split? row.trimmed).map (·.map String.ofList) = row.cells? := by
    simp [cells?, hkind]
  simp only [addRow, hblock, hexamples]
  split
  case isTrue hrejected => exact .ignored hrejected
  case isFalse hopen =>
    have hopen : examples.rejected = false := by simpa using hopen
    unfold readRow
    rw [hcells]
    split
    case h_1 hnone => exact .malformed hopen hnone
    case h_2 cells hown hheader =>
      split
      case isTrue hnameless => exact .nameless hopen hown hheader hnameless
      case isFalse hnamed => exact .header hopen hown hheader hnamed
    case h_3 cells header hown hheader =>
      split
      case isTrue hcount => exact .mismatch hopen hown hheader hcount
      case isFalse hcount => exact .used hopen hown hheader (Decidable.not_not.mp hcount)

theorem addRow_of_no_table {row : List Char} {line : Nat}
    (h : ∀ own examples, draft.block = .outline own → own.examples ≠ some examples) :
    draft.addRow naming path row line = draft := by
  unfold addRow
  split
  case h_1 own hblock =>
    split
    case h_1 examples hexamples => exact absurd hexamples (h own examples hblock)
    case h_2 => rfl
  case h_2 => rfl

theorem RowStep.extends {own : Outline} {examples : Examples} {row : Line}
    (hblock : draft.block = .outline own) (hopen : draft.docString = none)
    (h : RowStep naming path draft own examples row next) : Extends [row.number] draft next := by
  have hlines : draft.scenarioLines = draft.scenarios.map Scenario.line ++ [own.line] := by
    simp [scenarioLines, hblock, Block.line?]
  cases h with
  | ignored hrejected => exact .of_silent rfl rfl List.prefix_rfl (List.subset_append_left _ _)
  | malformed | mismatch =>
    exact .of_report rfl hopen hopen List.prefix_rfl (List.Subset.refl _)
  | nameless =>
    exact .of_report rfl hopen hopen List.prefix_rfl (hlines ▸ List.Subset.refl _)
  | header =>
    exact .of_silent rfl rfl List.prefix_rfl (hlines ▸ List.subset_append_left _ _)
  | used =>
    refine .of_silent rfl rfl (List.prefix_append _ _) ?_
    rw [hlines]
    simp [scenarioLines, Block.line?, addScenario, exampleOf, Scenario.exampleOf, Scenario.new]

end Rows

theorem addStep_frame (draft : Draft) (step : String) :
    ∃ block, draft.addStep step = { draft with block } ∧ block.line? = draft.block.line? := by
  unfold addStep
  repeat' split
  case h_1 own hblock => exact ⟨_, rfl, by rw [hblock]; rfl⟩
  case h_2.isTrue own hblock hexamples => exact ⟨_, rfl, by rw [hblock]; rfl⟩
  all_goals exact ⟨draft.block, rfl, rfl⟩

/-- A line outside of doc strings extends a draft; one that opens a doc string is kept as the line of
an issue up to the line that closes it. -/
theorem feedOpen_extends (hopen : draft.docString = none) (line : Line) :
    Extends [line.number] draft (draft.feedOpen naming path line) := by
  have hended : (draft.endBlock path).docString = none := by rw [endBlock_docString, hopen]
  have hissues := endBlock_issues path draft
  have hdoc := endBlock_docString path draft
  unfold feedOpen
  cases hkind : line.kind with
  | blank | other | comment | tags _ =>
    exact .of_silent rfl rfl List.prefix_rfl (List.subset_append_left _ _)
  | feature name =>
    simp only [startFeature]
    split
    · exact .of_report rfl hopen hopen List.prefix_rfl (List.Subset.refl _)
    · exact .of_endBlock path hissues hdoc rfl (by simp [Block.line?])
  | rule name => exact .of_endBlock path hissues hdoc rfl (by simp [dropTags, Block.line?])
  | background => exact .of_endBlock path hissues hdoc rfl (by simp [Block.line?])
  | scenario name | outline name =>
    simp only [startBlock]
    split
    · exact .of_report (congrArg (· ++ [_]) hissues) hopen hended (endBlock_keeps path draft)
        (by simpa [scenarioLines, report, dropTags, Block.line?] using endBlock_lines path draft)
    · exact .of_endBlock path hissues hdoc rfl
        (by simp [scenarioBlock, outlineBlock, Block.line?, Scenario.new])
  | examples name =>
    simp only [startExamples]
    split
    case h_1 own hblock =>
      exact .of_silent rfl rfl List.prefix_rfl
        (by simp [scenarioLines, hblock, Block.line?, dropTags])
    case h_2 => exact .of_report rfl hopen hopen List.prefix_rfl (List.Subset.refl _)
  | row =>
    dsimp only
    by_cases htable : ∃ own examples, draft.block = .outline own ∧ own.examples = some examples
    · obtain ⟨own, examples, hblock, hexamples⟩ := htable
      exact (addRow_step naming path hkind hblock hexamples).extends naming path hblock hopen
    · have hnone : draft.addRow naming path line.trimmed line.number = draft := by
        apply addRow_of_no_table
        intro own examples hblock hexamples
        exact htable ⟨own, examples, hblock, hexamples⟩
      rw [hnone]
      exact .of_silent rfl rfl List.prefix_rfl (List.subset_append_left _ _)
  | fence fence =>
    refine ⟨List.prefix_rfl, List.prefix_rfl, ?_, List.subset_append_left _ _, ?_⟩
    · simp [issueLines, hopen]
    · intro n _ hscenario
      exact Or.inr hscenario
  | step =>
    obtain ⟨block, heq, hline⟩ := addStep_frame draft.dropTags (String.ofList line.trimmed)
    dsimp only
    rw [heq]
    refine .of_silent rfl rfl List.prefix_rfl ?_
    rw [scenarioLines, hline]
    exact List.subset_append_left _ _

theorem feed_extends (draft : Draft) (line : Line) :
    Extends [line.number] draft (draft.feed naming path line) := by
  unfold feed
  cases hdoc : draft.docString with
  | none => exact feedOpen_extends naming path hdoc line
  | some opened =>
    dsimp only
    split
    · refine ⟨List.prefix_rfl, List.prefix_rfl, ?_, List.subset_append_left _ _, ?_⟩
      · simp [issueLines, List.append_assoc]
      · intro n _ hscenario
        exact Or.inr hscenario
    · exact .of_silent rfl rfl List.prefix_rfl (List.subset_append_left _ _)

theorem foldl_feed_extends (draft : Draft) (lines : List Line)
    (hnumbers : (lines.map number).Nodup) :
    Extends (lines.map number) draft (lines.foldl (feed naming path) draft) := by
  induction lines generalizing draft with
  | nil => exact .refl draft
  | cons line rest ih =>
    obtain ⟨hline, hrest⟩ := List.nodup_cons.mp hnumbers
    apply (feed_extends naming path draft line).trans (ih _ hrest)
    intro n hn
    rwa [List.mem_singleton.mp hn]

theorem finish_issueLines (draft : Draft) :
    (draft.finish path).issues.map Issue.line = draft.issueLines := by
  unfold finish issueLines
  cases hdoc : draft.docString with
  | none => simp [hdoc]
  | some opened => simp [hdoc, report]

theorem finish_scenarioLines (draft : Draft) :
    (draft.finish path).scenarios.map Scenario.line ⊆ draft.scenarioLines := by
  rw [finish_scenarios]
  exact endBlock_lines path draft

theorem finish_keeps (draft : Draft) :
    draft.issues <+: (draft.finish path).issues ∧
      draft.scenarios <+: (draft.finish path).scenarios := by
  refine ⟨?_, by rw [finish_scenarios]; exact endBlock_keeps path draft⟩
  unfold finish
  dsimp only
  split
  · simp [report]
  · simp

end Draft

theorem Line.scan_ascending (text : String) : ((scan text).map number).Pairwise (· < ·) :=
  List.pairwise_map.mpr (numberFrom_ascending 1 (rawLines text.toList))

namespace Feature

variable (naming : Naming) (path text : String)

theorem scan_extends :
    Draft.Extends ((scan text).map number) {} ((scan text).foldl (Draft.feed naming path) {}) :=
  Draft.foldl_feed_extends naming path {} (scan text) ((scan_ascending text).imp Nat.ne_of_lt)

theorem issues_ascending : ((read naming path text).issues.map Issue.line).Pairwise (· < ·) := by
  rw [read, readLines, Draft.finish_issueLines]
  exact (scan_ascending text).sublist (scan_extends naming path text).issueLines

theorem issue_apart {issue : Issue} (hissue : issue ∈ (read naming path text).issues)
    {feature : Feature} (hread : ofText? naming path text = some feature) {scenario : Scenario}
    (hscenario : scenario ∈ feature.scenarios) : issue.line ≠ scenario.line := by
  obtain ⟨header, -, rfl⟩ := Option.map_eq_some_iff.mp hread
  have hissue := List.mem_map_of_mem (f := Issue.line) hissue
  rw [read, readLines, Draft.finish_issueLines] at hissue
  have hscenario := Draft.finish_scenarioLines path _
    (List.mem_map_of_mem (f := Scenario.line) hscenario)
  intro heq
  rw [heq] at hissue
  rcases (scan_extends naming path text).apart _ hissue hscenario with hbegin | hbegin
  · simp [Draft.issueLines] at hbegin
  · simp [Draft.scenarioLines, Block.line?] at hbegin

end Feature

end ScenarioAtlas
