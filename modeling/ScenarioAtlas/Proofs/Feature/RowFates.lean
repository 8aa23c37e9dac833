import ScenarioAtlas.Proofs.Distinct
import ScenarioAtlas.Proofs.Feature.DocStrings
import ScenarioAtlas.Proofs.Feature.OpenTables
import ScenarioAtlas.Proofs.Feature.RunnableLines

/-!
# What becomes of the rows of examples

No row of an outline's table is lost without a trace: it is the header of its table, it yields a
scenario, it is an issue, or it stands below a header that was refused, and only one of these. The
drafts above and below a row show which, and the reading of the whole text shows the same.
-/

namespace ScenarioAtlas

set_option autoImplicit false

open Line Layout

def Draft.tableHeader? (draft : Draft) : Option (List String) :=
  match draft.block with
  | .outline own => own.examples.bind Examples.header
  | _ => none

/-- Whether an issue of this kind is that of a row in a table of examples. -/
def IssueKind.isOfRow : IssueKind → Bool
  | malformedRow | cellCountMismatch _ _ | emptyHeaderCell => true
  | _ => false

/-- What can become of a row in a table of examples. -/
inductive RowFate where
  | header
  | used
  | reported
  | ignored
  deriving DecidableEq, Repr

/-- How a draft shows the fate of a row: the draft above the row, the one below it, and the lines of
the table above the row. -/
def RowFate.Left (table : List Line) (row : Line) (before after : Draft) : RowFate → Prop
  | header => before.tableHeader? = none ∧
    ∃ cells, row.cells? = some cells ∧ after.tableHeader? = some cells
  | used => ∃ scenario ∈ after.scenarios, scenario.line = row.number
  | reported => ∃ kind : IssueKind, kind.isOfRow = true ∧ ⟨row.number, kind⟩ ∈ after.issues
  | ignored => after = before ∧ ∃ line ∈ table, ⟨line.number, .emptyHeaderCell⟩ ∈ after.issues

namespace Draft

variable {naming : Naming} {path : String} {draft next : Draft}

theorem InTable.exists_of_rejected {table : List Line} {tags : List String}
    (h : InTable table draft) (hrejected : (Examples.below tags table).rejected = true) :
    ∃ line ∈ table, ⟨line.number, .emptyHeaderCell⟩ ∈ draft.issues := by
  unfold Examples.below at hrejected
  cases hhead : headRow? table with
  | none => simp [hhead] at hrejected
  | some first =>
    obtain ⟨number, header⟩ := first
    rw [hhead] at hrejected
    by_cases hnameless : "" ∈ header
    · obtain ⟨line, hline, hcells⟩ := List.exists_of_findSome?_eq_some hhead
      obtain ⟨cells, -, heq⟩ := Option.map_eq_some_iff.mp hcells
      cases heq
      exact ⟨line, hline, h.reported _ _ hhead hnameless⟩
    · simp [hnameless] at hrejected

theorem eq_of_left {table : List Line} {row : Line} {fate other : RowFate}
    (hheader : next.tableHeader? ≠ draft.tableHeader? → fate = .header)
    (hscenario : (∃ scenario ∈ next.scenarios, scenario.line = row.number) → fate = .used)
    (hissue : (∃ issue ∈ next.issues, issue.line = row.number) → fate = .reported)
    (hkept : next = draft → fate = .ignored) (h : other.Left table row draft next) :
    other = fate := by
  cases other with
  | header =>
    obtain ⟨hnone, cells, -, hsome⟩ := h
    exact (hheader (by simp [hnone, hsome])).symm
  | used => exact (hscenario h).symm
  | reported =>
    obtain ⟨kind, -, hmem⟩ := h
    exact (hissue ⟨_, hmem, rfl⟩).symm
  | ignored => exact (hkept h.1).symm

theorem RowStep.line? {own : Outline} {examples : Examples} {row : Line}
    (hblock : draft.block = .outline own)
    (hstep : RowStep naming path draft own examples row next) :
    next.block.line? = draft.block.line? := by
  cases hstep with
  | ignored | malformed | mismatch => rfl
  | nameless | header | used => rw [hblock]; rfl

/-- A row of a table has one fate, and no draft shows two of them. -/
theorem RowStep.existsUnique_left {table : List Line} {own : Outline} {tags : List String}
    {row : Line} (h : InTable table draft) (hblock : draft.block = .outline own)
    (hexamples : own.examples = some (Examples.below tags table))
    (hissue : ¬ ∃ issue ∈ draft.issues, issue.line = row.number)
    (hscenario : ¬ ∃ scenario ∈ draft.scenarios, scenario.line = row.number)
    (hstep : RowStep naming path draft own (Examples.below tags table) row next) :
    ∃! fate : RowFate, fate.Left table row draft next := by
  have hheader : draft.tableHeader? = (Examples.below tags table).header := by
    simp [tableHeader?, hblock, hexamples]
  cases hstep with
  | ignored hrejected =>
    refine ⟨.ignored, ⟨rfl, h.exists_of_rejected hrejected⟩, fun other => ?_⟩
    exact eq_of_left (absurd rfl) (absurd · hscenario) (absurd · hissue) fun _ => rfl
  | malformed | mismatch =>
    refine ⟨.reported, ⟨_, rfl, List.mem_append_right _ List.mem_cons_self⟩, fun other => ?_⟩
    refine eq_of_left (absurd rfl) (absurd · hscenario) (fun _ => rfl) ?_
    intro hkept
    simpa [report] using congrArg Draft.issues hkept
  | nameless _ _ hnone =>
    refine ⟨.reported, ⟨_, rfl, List.mem_append_right _ List.mem_cons_self⟩, fun other => ?_⟩
    refine eq_of_left (absurd hheader.symm) (absurd · hscenario) (fun _ => rfl) ?_
    intro hkept
    simpa [report] using congrArg Draft.issues hkept
  | header hopen hcells hnone hnamed =>
    refine ⟨.header, ⟨by rw [hheader, hnone], _, hcells, rfl⟩, fun other => ?_⟩
    refine eq_of_left (fun _ => rfl) (absurd · hscenario) (absurd · hissue) ?_
    intro hkept
    have hsame := congrArg Draft.tableHeader? hkept
    rw [hheader, hnone] at hsame
    cases hsame
  | used hopen hcells hsome hcount =>
    refine ⟨.used, ⟨_, List.mem_append_right _ List.mem_cons_self, rfl⟩, fun other => ?_⟩
    have hkeeps : own.examples.bind Examples.header = draft.tableHeader? := by
      rw [hheader, hexamples, Option.bind_some]
    refine eq_of_left (absurd hkeeps) (fun _ => rfl) (absurd · hissue) ?_
    intro hkept
    simpa [addScenario] using congrArg Draft.scenarios hkept

end Draft

def Draft.ofLines (naming : Naming) (path : String) (lines : List Line) : Draft :=
  lines.foldl (feed naming path) {}

namespace Draft

variable (naming : Naming) (path : String) {lines above between table : List Line}
variable {head opener : Line}

theorem ofLines_docString (houtside : openFence lines = none) :
    (ofLines naming path lines).docString = none := by
  have hfence : (ofLines naming path lines).docString.map Prod.fst = openFence lines :=
    (List.foldl_hom (fun draft : Draft => draft.docString.map Prod.fst)
      fun draft line => (feed_docString naming path draft line).symm).symm
  rwa [houtside, Option.map_eq_none_iff] at hfence

theorem ofLines_inTable (h : IsTable (unfenced none lines) above head between opener table)
    (hfeature : ∃ line ∈ above, line.kind.isFeature = true) :
    InTable table (ofLines naming path lines) := by
  obtain ⟨docString, heq⟩ := foldl_feed_eq naming path {} lines
  have hin : InTable table ((unfenced none lines).foldl (Draft.feedOpen naming path) {}) :=
    foldl_feedOpen_inTable naming path h hfeature
  rw [ofLines, heq]
  exact ⟨hin.header, hin.block, hin.reported⟩

end Draft

namespace Feature

variable {naming : Naming} {path text : String} {upper lower : List Line}

theorem nodup_split (hlines : scan text = upper ++ lower) :
    (upper.map number).Nodup ∧ (lower.map number).Nodup ∧
      (upper.map number).Disjoint (lower.map number) := by
  have hnumbers := (scan_ascending text).imp Nat.ne_of_lt
  rw [hlines, List.map_append] at hnumbers
  exact List.nodup_append'.mp hnumbers

/-- What a draft keeps to the end of the text whose lines it has read down to some place. -/
theorem ofLines_extends (naming : Naming) (path : String) (hlines : scan text = upper ++ lower) :
    Draft.Extends (lower.map number) (Draft.ofLines naming path upper)
      ((scan text).foldl (Draft.feed naming path) {}) := by
  obtain ⟨-, hlower, -⟩ := nodup_split hlines
  rw [hlines, List.foldl_append]
  exact Draft.foldl_feed_extends naming path _ lower hlower

theorem number_notMem_lower (hlines : scan text = upper ++ lower) {line : Line}
    (hline : line ∈ upper) : line.number ∉ lower.map number := by
  obtain ⟨-, -, hdisjoint⟩ := nodup_split hlines
  exact hdisjoint (List.mem_map_of_mem hline)

theorem number_notMem_ofLines (naming : Naming) (path : String)
    (hlines : scan text = upper ++ lower) {line : Line} (hline : line ∈ lower) :
    line.number ∉ (Draft.ofLines naming path upper).issueLines ∧
      line.number ∉ (Draft.ofLines naming path upper).scenarioLines := by
  obtain ⟨hupper, -, hdisjoint⟩ := nodup_split hlines
  have hextends := Draft.foldl_feed_extends naming path {} upper hupper
  have hbelow := List.mem_map_of_mem (f := number) hline
  exact ⟨fun hmem => hdisjoint (hextends.issueLines.subset hmem) hbelow,
    fun hmem => hdisjoint (hextends.scenarioLines hmem) hbelow⟩

/-- Below a line that is in no doc string, no issue is added any more on it or above it. -/
theorem mem_issues_iff (hlines : scan text = upper ++ lower)
    (hopen : (Draft.ofLines naming path upper).docString = none) {issue : Issue} {line : Line}
    (hline : line ∈ upper) (hissue : issue.line = line.number) :
    issue ∈ (read naming path text).issues ↔
      issue ∈ (Draft.ofLines naming path upper).issues := by
  have hextends := ofLines_extends naming path hlines
  have hkept := hextends.issues.trans (Draft.finish_keeps path _).1
  refine ⟨fun hmem => ?_, fun hmem => hkept.subset hmem⟩
  have hplace := List.mem_map_of_mem (f := Issue.line) hmem
  rw [read, readLines, Draft.finish_issueLines] at hplace
  have habove := (List.mem_append.mp (hextends.issueLines.subset hplace)).resolve_right
    (hissue ▸ number_notMem_lower hlines hline)
  rw [Draft.issueLines, hopen, Option.map_none, Option.toList_none, List.append_nil] at habove
  obtain ⟨other, hother, hsame⟩ := List.mem_map.mp habove
  have hdistinct := (issues_ascending naming path text).imp Nat.ne_of_lt
  rwa [← List.inj_on_of_nodup_map hdistinct (hkept.subset hother) hmem hsame]

theorem mem_scenarios_iff (hlines : scan text = upper ++ lower) {feature : Feature}
    (hread : ofText? naming path text = some feature) {scenario : Scenario} {line : Line}
    (hline : line ∈ upper) (hscenario : scenario.line = line.number)
    (hblock : (Draft.ofLines naming path upper).block.line? ≠ some line.number) :
    scenario ∈ feature.scenarios ↔
      scenario ∈ (Draft.ofLines naming path upper).scenarios := by
  have hextends := ofLines_extends naming path hlines
  have hkept := hextends.scenarios.trans (Draft.finish_keeps path _).2
  have hascending := scenarios_ascending hread
  obtain ⟨header, -, rfl⟩ := Option.map_eq_some_iff.mp hread
  refine ⟨fun hmem => ?_, fun hmem => hkept.subset hmem⟩
  have hplace := Draft.finish_scenarioLines path _ (List.mem_map_of_mem (f := Scenario.line) hmem)
  have habove := (List.mem_append.mp (hextends.scenarioLines hplace)).resolve_right
    (hscenario ▸ number_notMem_lower hlines hline)
  have habove := (List.mem_append.mp habove).resolve_right (by simpa [hscenario] using hblock)
  obtain ⟨other, hother, hsame⟩ := List.mem_map.mp habove
  have hdistinct := hascending.imp Nat.ne_of_lt
  rwa [← List.inj_on_of_nodup_map hdistinct (hkept.subset hother) hmem hsame]

end Feature

/-- What has become of a row, as seen in the whole reading of its text: the row is the header of its
table, it is the line of one scenario, it is that of one issue, or nothing was done with it and a row
above it in its table is reported as a header with an empty cell. -/
def RowFate.Met (naming : Naming) (path text : String) (upper table : List Line) (row : Line) :
    RowFate → Prop
  | header => (Draft.ofLines naming path upper).tableHeader? = none ∧
    ∃ cells, row.cells? = some cells ∧
      (Draft.ofLines naming path (upper ++ [row])).tableHeader? = some cells
  | used => ∃ feature scenario, Feature.ofText? naming path text = some feature ∧
    feature.scenarios.filter (·.line = row.number) = [scenario]
  | reported => ∃ kind : IssueKind, kind.isOfRow = true ∧
    (Feature.read naming path text).issues.filter (·.line = row.number) = [⟨row.number, kind⟩]
  | ignored => Draft.ofLines naming path (upper ++ [row]) = Draft.ofLines naming path upper ∧
    ∃ line ∈ table, ⟨line.number, .emptyHeaderCell⟩ ∈ (Feature.read naming path text).issues

namespace Feature

variable {naming : Naming} {path text : String} {upper lower table : List Line} {row : Line}

/-- The reading of the whole text shows the fate of a row as the drafts around it do. -/
theorem met_iff_left (hlines : scan text = upper ++ row :: lower)
    (hopen : (Draft.ofLines naming path (upper ++ [row])).docString = none)
    (hblock : (Draft.ofLines naming path (upper ++ [row])).block.line? ≠ some row.number)
    (htable : table ⊆ upper) (hread : ∃ feature, ofText? naming path text = some feature)
    (fate : RowFate) :
    fate.Met naming path text upper table row ↔
      fate.Left table row (Draft.ofLines naming path upper)
        (Draft.ofLines naming path (upper ++ [row])) := by
  have hsplit : scan text = (upper ++ [row]) ++ lower := by simpa using hlines
  have hrow : row ∈ upper ++ [row] := List.mem_append_right _ List.mem_cons_self
  cases fate with
  | header => exact Iff.rfl
  | used =>
    obtain ⟨feature, hread⟩ := hread
    have hdistinct := (scenarios_ascending hread).imp Nat.ne_of_lt
    constructor
    · rintro ⟨found, scenario, hfound, hfilter⟩
      obtain rfl : feature = found := Option.some.inj (hread.symm.trans hfound)
      obtain ⟨hmem, hline⟩ := List.mem_filter.mp (hfilter ▸ List.mem_cons_self)
      have hline : scenario.line = row.number := of_decide_eq_true hline
      exact ⟨scenario, (mem_scenarios_iff hsplit hread hrow hline hblock).mp hmem, hline⟩
    · rintro ⟨scenario, hmem, hline⟩
      have hmem := (mem_scenarios_iff hsplit hread hrow hline hblock).mpr hmem
      exact ⟨feature, scenario, hread, hline ▸ filter_eq_singleton hdistinct hmem⟩
  | reported =>
    have hdistinct := (issues_ascending naming path text).imp Nat.ne_of_lt
    constructor
    · rintro ⟨kind, hkind, hfilter⟩
      obtain ⟨hmem, -⟩ := List.mem_filter.mp (hfilter ▸ List.mem_cons_self)
      exact ⟨kind, hkind, (mem_issues_iff hsplit hopen hrow rfl).mp hmem⟩
    · rintro ⟨kind, hkind, hmem⟩
      have hmem := (mem_issues_iff hsplit hopen hrow rfl).mpr hmem
      exact ⟨kind, hkind, filter_eq_singleton hdistinct hmem⟩
  | ignored =>
    refine and_congr_right fun _ => exists_congr fun line => and_congr_right fun hline => ?_
    exact mem_issues_iff hsplit hopen (List.mem_append_left _ (htable hline)) rfl

theorem exists_of_header (hlines : scan text = upper ++ lower)
    (h : (Draft.ofLines naming path upper).header.isSome) :
    ∃ feature, ofText? naming path text = some feature := by
  obtain ⟨header, hheader⟩ := Option.isSome_iff_exists.mp h
  have hfinal : ((scan text).foldl (Draft.feed naming path) {}).header = some header := by
    rw [hlines, List.foldl_append]
    exact Draft.foldl_feed_header naming path hheader lower
  refine Option.isSome_iff_exists.mp ?_
  simp [ofText?, read, readLines, Draft.feature?, Draft.finish_header, hfinal]

theorem existsUnique_met (hlines : scan text = upper ++ row :: lower)
    (houtside : openFence upper = none) (hrow : row.kind = .row) {above between : List Line}
    {head opener : Line} (hplace : IsTable (unfenced none upper) above head between opener table)
    (hfeature : ∃ line ∈ above, line.kind.isFeature = true) :
    ∃! fate : RowFate, fate.Met naming path text upper table row := by
  have hin := Draft.ofLines_inTable naming path hplace hfeature
  obtain ⟨own, tags, hblock, hexamples⟩ := hin.block
  have hafter : Draft.ofLines naming path (upper ++ [row]) =
      (Draft.ofLines naming path upper).addRow naming path row.trimmed row.number := by
    rw [Draft.ofLines, List.foldl_append]
    simp only [List.foldl_cons, List.foldl_nil]
    rw [← Draft.ofLines, Draft.feed, Draft.ofLines_docString naming path houtside]
    simp only [Draft.feedOpen, hrow]
  have hstep := Draft.addRow_step naming path hrow hblock hexamples
  rw [← hafter] at hstep
  obtain ⟨hissue, hscenario⟩ :=
    number_notMem_ofLines naming path hlines List.mem_cons_self
  have hunique : ∃! fate : RowFate, fate.Left table row (Draft.ofLines naming path upper)
      (Draft.ofLines naming path (upper ++ [row])) := by
    apply hstep.existsUnique_left hin hblock hexamples
    · rintro ⟨issue, hmem, hline⟩
      exact hissue (hline ▸ List.mem_append_left _ (List.mem_map_of_mem hmem))
    · rintro ⟨scenario, hmem, hline⟩
      exact hscenario (hline ▸ List.mem_append_left _ (List.mem_map_of_mem hmem))
  refine (existsUnique_congr fun fate => ?_).mpr hunique
  apply met_iff_left hlines
  · apply Draft.ofLines_docString
    rw [openFence_concat, houtside, fenceAfter, hrow]
    rfl
  · rw [hstep.line? hblock]
    intro hline
    exact hscenario (List.mem_append_right _ (by simp [hline]))
  · intro line hline
    apply (unfenced_sublist none upper).subset
    simp [hplace.split, hline]
  · exact exists_of_header hlines hin.header

/-- Issues come in the order of their lines, at most one on each, and no scenario is on the line of
one. Each row of a table of an outline has one fate: it is the header of the table, or the line of
one scenario, or that of one issue, or it is ignored below a header that was refused. An outline
above the header of the feature has no tables, and each line that would open one is an issue. -/
theorem read_accounts_for_rows (naming : Naming) (path text : String) :
    ((read naming path text).issues.map Issue.line).Pairwise (· < ·) ∧
    (∀ issue ∈ (read naming path text).issues, ∀ feature,
      ofText? naming path text = some feature →
        ∀ scenario ∈ feature.scenarios, issue.line ≠ scenario.line) ∧
    ∀ upper row lower, scan text = upper ++ row :: lower → openFence upper = none →
      row.kind = .row → ∀ above head between opener table,
        IsTable (unfenced none upper) above head between opener table →
          ((∃ line ∈ above, line.kind.isFeature = true) →
            ∃! fate : RowFate, fate.Met naming path text upper table row) ∧
          ((∀ line ∈ above, line.kind.isFeature = false) →
            ⟨opener.number, .examplesWithoutOutline⟩ ∈ (read naming path text).issues) := by
  refine ⟨issues_ascending naming path text, ?_, ?_⟩
  · intro issue hissue feature hread scenario hscenario
    exact issue_apart naming path text hissue hread hscenario
  · intro upper row lower hlines houtside hrow above head between opener table hplace
    refine ⟨existsUnique_met hlines houtside hrow hplace, fun hfeature => ?_⟩
    have hkept := (ofLines_extends naming path hlines).issues.trans
      (Draft.finish_keeps path _).1
    apply hkept.subset
    obtain ⟨docString, heq⟩ := Draft.foldl_feed_eq naming path {} upper
    rw [Draft.ofLines, heq]
    exact Draft.foldl_feedOpen_unopened naming path hplace hfeature

theorem read_accounts_for_rows_of_short_row :
    let text := "Feature: F\nScenario Outline: O\nExamples:\n|a|b|\n|1|2|\n|3|"
    let table := [⟨4, "|a|b|".toList⟩, ⟨5, "|1|2|".toList⟩]
    (∃! fate : RowFate,
      fate.Met {} "a.feature" text ((scan text).take 5) table ⟨6, "|3|".toList⟩) ∧
      (read {} "a.feature" text).issues = [⟨6, .cellCountMismatch 2 1⟩] := by
  intro text table
  have hlines : scan text = (scan text).take 5 ++ ⟨6, "|3|".toList⟩ :: [] := by decide +kernel
  have hkind : (⟨6, "|3|".toList⟩ : Line).kind = .row := by decide +kernel
  have houtline : (⟨2, "Scenario Outline: O".toList⟩ : Line).kind = .outline "O" := by
    decide +kernel
  have hplace : IsTable (unfenced none ((scan text).take 5)) [⟨1, "Feature: F".toList⟩]
      ⟨2, "Scenario Outline: O".toList⟩ [] ⟨3, "Examples:".toList⟩ table :=
    ⟨by decide +kernel, ⟨"O", houtline⟩, by decide +kernel, by decide +kernel, by decide +kernel⟩
  obtain ⟨-, -, hrows⟩ := read_accounts_for_rows {} "a.feature" text
  obtain ⟨hfate, -⟩ := hrows _ _ _ hlines (by decide +kernel) hkind _ _ _ _ _ hplace
  exact ⟨hfate (by decide +kernel), by decide +kernel⟩

end Feature

end ScenarioAtlas
