import ScenarioAtlas.Proofs.Feature.Renumbering
import ScenarioAtlas.Proofs.Source.Joined

/-!
# Feature files put below each other

The header of a scenario starts anew: what stands below it is read as it would be below a header of
a feature alone, only further down. A draft that has got to such a header is what has been read above
it, with the draft of the lower text placed below; each line keeps that so.
-/

namespace ScenarioAtlas

set_option autoImplicit false

open Line

/-- The scenario with all of its lines moved down, in a feature on the given line. -/
def Scenario.moved (n : Nat) (featureLine : Option Nat) (scenario : Scenario) : Scenario :=
  { scenario with
    editorLine := scenario.editorLine + n
    line := scenario.line + n
    outlineLine := scenario.outlineLine.map (· + n)
    featureLine }

def Issue.moved (n : Nat) (issue : Issue) : Issue := { issue with line := issue.line + n }

def Outline.moved (n : Nat) (outline : Outline) : Outline := { outline with line := outline.line + n }

def Block.moved (n : Nat) (featureLine : Option Nat) : Block → Block
  | .none => .none
  | .background => .background
  | .scenario own => .scenario (own.moved n featureLine)
  | .outline own => .outline (own.moved n)

/-- What has been read of a text before another one is put below it, and by how many lines that one
moves down. -/
structure Upper where
  header : FeatureHeader
  scenarios : List Scenario
  issues : List Issue
  shift : Nat

namespace Draft

/-- A draft as it is when its text stands below another one. -/
def below (upper : Upper) (draft : Draft) : Draft where
  header := some upper.header
  scenarios := upper.scenarios ++ draft.scenarios.map (Scenario.moved upper.shift upper.header.line)
  pendingTags := draft.pendingTags
  block := draft.block.moved upper.shift upper.header.line
  docString := draft.docString.map fun (fence, line) => (fence, line + upper.shift)
  issues := upper.issues ++ draft.issues.map (Issue.moved upper.shift)

/-- A draft that has its header, and in which the line of an open outline is counted from one. -/
structure Headed (draft : Draft) : Prop where
  header : draft.header.isSome = true
  outline : ∀ outline, draft.block = .outline outline → 0 < outline.line

variable (naming : Naming) (path : String) (upper : Upper) {draft : Draft}

theorem below_report (line : Nat) (kind : IssueKind) :
    (draft.below upper).report (line + upper.shift) kind = (draft.report line kind).below upper := by
  simp [below, report, Issue.moved]

theorem standIn_moved {outline : Outline} (h : 0 < outline.line) (n featureLine above : Nat) :
    standIn path (outline.moved n) above =
      (standIn path outline featureLine).moved n (some above) := by
  have heditor : outline.line + n - 1 = outline.line - 1 + n := by omega
  simp [standIn, Scenario.moved, Outline.moved, Scenario.asOutline, Scenario.new, heditor]

theorem below_endBlock (h : draft.Headed) :
    (draft.below upper).endBlock path = (draft.endBlock path).below upper := by
  unfold endBlock
  cases hblock : draft.block with
  | none | background => simp [below, hblock, Block.moved]
  | scenario own => simp [below, hblock, Block.moved, addScenario]
  | outline own =>
    have hused : (own.moved upper.shift).usedRows = own.usedRows := rfl
    by_cases hnone : own.usedRows = 0
    · simp only [below, hblock, Block.moved, hused, hnone, if_true, addScenario, List.map_append,
        List.map_cons, List.map_nil, List.append_assoc,
        ← standIn_moved path (h.outline own hblock) upper.shift draft.featureLine]
      rfl
    · simp [below, hblock, Block.moved, hused, hnone]

theorem below_startBlock (h : draft.Headed) (line : Nat)
    {opened openedBelow : Nat → List String → Block}
    (hopened : ∀ featureLine tags, openedBelow upper.header.line tags =
      (opened featureLine tags).moved upper.shift upper.header.line) :
    (draft.below upper).startBlock path (line + upper.shift) openedBelow =
      (draft.startBlock path line opened).below upper := by
  obtain ⟨header, hheader⟩ := Option.isSome_iff_exists.mp h.header
  have hbelow : (draft.below upper).header = some upper.header := rfl
  rw [startBlock_eq path hbelow, startBlock_eq path hheader, below_endBlock path upper h,
    hopened header.line]
  rfl

theorem scenarioBlock_moved (name : String) {line : Nat} (hline : 0 < line) (n above : Nat)
    (featureLine : Nat) (tags : List String) :
    scenarioBlock path name (line + n) above tags =
      (scenarioBlock path name line featureLine tags).moved n above := by
  have heditor : line + n - 1 = line - 1 + n := by omega
  simp [scenarioBlock, Block.moved, Scenario.moved, Scenario.new, heditor]

theorem exampleOf_moved (own : Outline) (examples : Examples) {line : Nat} (hline : 0 < line)
    (n above featureLine : Nat) (header cells : List String) :
    exampleOf naming path (own.moved n) examples above header cells (line + n) =
      (exampleOf naming path own examples featureLine header cells line).moved n (some above) := by
  have heditor : line + n - 1 = line - 1 + n := by omega
  simp [exampleOf, Scenario.moved, Outline.moved, Scenario.exampleOf, Scenario.new, heditor]

theorem below_startExamples (line : Nat) :
    (draft.below upper).startExamples (line + upper.shift) =
      (draft.startExamples line).below upper := by
  unfold startExamples
  cases hblock : draft.block with
  | none | background | scenario _ =>
    simp [below, hblock, Block.moved, report, dropTags, Issue.moved]
  | outline own => simp [below, hblock, Block.moved, dropTags, Outline.moved]

theorem below_addStep (step : String) :
    (draft.below upper).addStep step = (draft.addStep step).below upper := by
  unfold addStep
  cases hblock : draft.block with
  | none | background | scenario _ => simp [below, hblock, Block.moved, Scenario.moved]
  | outline own =>
    cases hexamples : own.examples <;>
      simp [below, hblock, Block.moved, Outline.moved, hexamples]

theorem below_readRow {own : Outline} {examples : Examples} (row : List Char) {line : Nat}
    (hline : 0 < line) :
    (draft.below upper).readRow naming path (own.moved upper.shift) examples row
        (line + upper.shift) =
      (draft.readRow naming path own examples row line).below upper := by
  unfold readRow
  cases (Row.split? row).map (·.map String.ofList) with
  | none => exact below_report upper line .malformedRow
  | some cells =>
    cases examples.header with
    | none =>
      dsimp only
      split
      · simp [below, report, Block.moved, Outline.moved, Issue.moved]
      · simp [below, Block.moved, Outline.moved]
    | some header =>
      dsimp only
      split
      · exact below_report upper line _
      · have hfound := exampleOf_moved naming path own examples hline upper.shift
          upper.header.line draft.featureLine header cells
        simp only [below, addScenario, List.map_append, List.map_cons, List.map_nil,
          List.append_assoc, ← hfound]
        rfl

theorem below_addRow (row : List Char) {line : Nat} (hline : 0 < line) :
    (draft.below upper).addRow naming path row (line + upper.shift) =
      (draft.addRow naming path row line).below upper := by
  have hblockBelow : (draft.below upper).block =
      draft.block.moved upper.shift upper.header.line := rfl
  unfold addRow
  rw [hblockBelow]
  cases draft.block with
  | none | background | scenario _ => rfl
  | outline own =>
    have hexamples : (own.moved upper.shift).examples = own.examples := rfl
    simp only [Block.moved, hexamples]
    cases own.examples with
    | none => rfl
    | some examples =>
      dsimp only
      split
      · rfl
      · exact below_readRow naming path upper row hline

/-- Below another text a line outside of doc strings is read as it is on its own. -/
theorem below_feedOpen (h : draft.Headed) {line : Line} (hline : 0 < line.number) :
    (draft.below upper).feedOpen naming path (line.moved upper.shift) =
      (draft.feedOpen naming path line).below upper := by
  have hended := below_endBlock path upper h
  unfold feedOpen
  rw [kind_moved, trimmed_moved, number_moved]
  cases line.kind with
  | blank | other | comment | tags _ => rfl
  | fence mark => rfl
  | feature name =>
    have hreported : (draft.below upper).startFeature path name (line.number + upper.shift) =
        ((draft.below upper).report (line.number + upper.shift) .duplicateFeature).dropTags := rfl
    dsimp only
    rw [hreported, below_report, startFeature, if_pos h.header]
    rfl
  | rule _ | background =>
    dsimp only
    rw [hended]
    rfl
  | scenario name =>
    exact below_startBlock path upper h line.number
      (scenarioBlock_moved path name hline upper.shift upper.header.line)
  | outline name =>
    exact below_startBlock path upper h line.number fun _ _ => rfl
  | examples _ => exact below_startExamples upper line.number
  | row => exact below_addRow naming path upper line.trimmed hline
  | step =>
    have hstep : (draft.dropTags.below upper).addStep (String.ofList line.trimmed) =
        (draft.dropTags.addStep (String.ofList line.trimmed)).below upper := below_addStep upper _
    exact hstep

theorem Headed.feedOpen (h : draft.Headed) {line : Line} (hline : 0 < line.number) :
    (draft.feedOpen naming path line).Headed := by
  obtain ⟨header, hheader⟩ := Option.isSome_iff_exists.mp h.header
  have hcounted : draft.OutlineCounted := h.outline
  constructor
  · rw [feedOpen_header naming path hheader]
    rfl
  · exact hcounted.feedOpen naming path hline

theorem below_feed (h : draft.Headed) {line : Line} (hline : 0 < line.number) :
    (draft.below upper).feed naming path (line.moved upper.shift) =
      (draft.feed naming path line).below upper := by
  have hdocBelow : (draft.below upper).docString =
      draft.docString.map fun (fence, line) => (fence, line + upper.shift) := rfl
  unfold feed
  rw [hdocBelow]
  cases hdoc : draft.docString with
  | none => exact below_feedOpen naming path upper h hline
  | some opened =>
    by_cases hcloses : opened.1.text.isPrefixOf line.trimmed = true
    · simp [hcloses, below]
    · simp [hcloses]

theorem Headed.feed (h : draft.Headed) {line : Line} (hline : 0 < line.number) :
    (draft.feed naming path line).Headed := by
  unfold Draft.feed
  split
  · split
    · exact ⟨h.header, h.outline⟩
    · exact h
  · exact h.feedOpen naming path hline

theorem below_foldl_feed (h : draft.Headed) {lines : List Line}
    (hlines : ∀ line ∈ lines, 0 < line.number) :
    (lines.map (Line.moved upper.shift)).foldl (feed naming path) (draft.below upper) =
      (lines.foldl (feed naming path) draft).below upper ∧
      (lines.foldl (feed naming path) draft).Headed := by
  induction lines generalizing draft with
  | nil => exact ⟨rfl, h⟩
  | cons line rest ih =>
    have hline := hlines line List.mem_cons_self
    rw [List.map_cons, List.foldl_cons, List.foldl_cons, below_feed naming path upper h hline]
    exact ih (h.feed naming path hline) fun other hother => hlines other (List.mem_cons_of_mem _ hother)

theorem below_finish (h : draft.Headed) :
    (draft.below upper).finish path = (draft.finish path).below upper := by
  have hdocBelow : ((draft.endBlock path).below upper).docString =
      (draft.endBlock path).docString.map fun (fence, line) => (fence, line + upper.shift) := rfl
  unfold finish
  dsimp only
  rw [below_endBlock path upper h, hdocBelow]
  cases (draft.endBlock path).docString with
  | none => rfl
  | some opened => exact below_report upper opened.2 .unterminatedDocString

theorem feedOpen_eq_below {header : FeatureHeader} (hheader : draft.header = some header)
    (htags : draft.pendingTags = []) (hdoc : draft.docString = none) {line : Line}
    (hline : 0 < line.number)
    (hkind : ∃ name, line.kind = .scenario name ∨ line.kind = .outline name) (n : Nat)
    (alone : FeatureHeader) :
    draft.feedOpen naming path (line.moved n) =
      (({ header := some alone } : Draft).feedOpen naming path line).below
        ⟨header, (draft.endBlock path).scenarios, draft.issues, n⟩ := by
  have halone : ({ header := some alone } : Draft).endBlock path = { header := some alone } := rfl
  unfold feedOpen
  rw [kind_moved, number_moved]
  obtain ⟨name, hkind | hkind⟩ := hkind
  · rw [hkind]
    dsimp only
    rw [startBlock_eq path hheader, startBlock_eq path rfl, htags,
      scenarioBlock_moved path name hline n header.line alone.line]
    simp [below, dropTags, halone, hheader, hdoc]
  · rw [hkind]
    dsimp only
    rw [startBlock_eq path hheader, startBlock_eq path rfl, htags]
    simp [below, dropTags, halone, hheader, hdoc, outlineBlock, Block.moved, Outline.moved]

theorem exists_feature?_below (h : draft.header.isSome = true) :
    ∃ other, draft.feature? path = some other ∧
      (draft.below upper).feature? path = some
        { name := upper.header.name
          scenarios := upper.scenarios ++
            other.scenarios.map (Scenario.moved upper.shift upper.header.line)
          path
          line := some upper.header.line
          tags := upper.header.tags } := by
  obtain ⟨header, hheader⟩ := Option.isSome_iff_exists.mp h
  exact ⟨⟨header.name, draft.scenarios, path, some header.line, header.tags⟩,
    by rw [feature?, hheader]; rfl, rfl⟩

theorem docString_eq_none {draft : Draft}
    (h : ∀ line, ⟨line, .unterminatedDocString⟩ ∉ (draft.finish path).issues) :
    draft.docString = none := by
  cases hdoc : draft.docString with
  | none => rfl
  | some opened =>
    have hissue : ⟨opened.2, .unterminatedDocString⟩ ∈ (draft.finish path).issues := by
      simp [finish, hdoc, report]
    exact absurd hissue (h opened.2)

theorem pendingTags_eq_nil {draft : Draft} {line : Line} (hkind : line.kind = .blank)
    (hdoc : (draft.feed naming path line).docString = none) :
    (draft.feed naming path line).pendingTags = [] := by
  unfold feed at hdoc ⊢
  split at hdoc
  case h_1 mark opened heq =>
    split at hdoc
    case isTrue hcloses =>
      rw [kind_of_isPrefixOf hcloses] at hkind
      cases hkind
    case isFalse => cases heq.symm.trans hdoc
  case h_2 =>
    simp [feedOpen, hkind, dropTags]

/-- The lines of a text that starts with the header of a scenario or outline are read below others
as they are below the header of a feature alone. -/
theorem foldl_feed_eq_below {header : FeatureHeader} (hheader : draft.header = some header)
    (htags : draft.pendingTags = []) (hdoc : draft.docString = none) {line : Line}
    {rest : List Line} (hlines : ∀ other ∈ line :: rest, 0 < other.number)
    (hkind : ∃ name, line.kind = .scenario name ∨ line.kind = .outline name) (n : Nat)
    (alone : FeatureHeader) :
    ((line :: rest).map (Line.moved n)).foldl (feed naming path) draft =
        ((line :: rest).foldl (feed naming path) { header := some alone }).below
          ⟨header, (draft.endBlock path).scenarios, draft.issues, n⟩ ∧
      ((line :: rest).foldl (feed naming path) { header := some alone }).Headed := by
  have hline := hlines line List.mem_cons_self
  have halone : ({ header := some alone } : Draft).Headed := ⟨rfl, nofun⟩
  have hfeed : draft.feed naming path (line.moved n) = draft.feedOpen naming path (line.moved n) := by
    rw [feed, hdoc]
  rw [List.map_cons, List.foldl_cons, List.foldl_cons, hfeed,
    feedOpen_eq_below naming path hheader htags hdoc hline hkind n alone]
  exact below_foldl_feed naming path ⟨header, (draft.endBlock path).scenarios, draft.issues, n⟩
    (halone.feed naming path hline)
    fun other hother => hlines other (List.mem_cons_of_mem line hother)

end Draft

namespace Feature

variable (naming : Naming) (path : String)

theorem foldl_feed_alone (lower : String) :
    (Line.scan ("Feature: x\n" ++ lower)).foldl (Draft.feed naming path) {} =
      (Line.numberFrom 2 (Line.rawLinesBelow lower.toList)).foldl (Draft.feed naming path)
        { header := some ⟨"x", 1, []⟩ } := by
  have hbreak : "Feature: x\n" = "Feature: x" ++ "\n" := by decide +kernel
  have hreturn : "Feature: x".toList.getLast? ≠ some '\r' := by decide +kernel
  have hscan : Line.scan "Feature: x" = [⟨1, "Feature: x".toList⟩] := by decide +kernel
  have hkind : (Line.mk 1 "Feature: x".toList).kind = .feature "x" := by decide +kernel
  have hheader : Draft.feed naming path {} ⟨1, "Feature: x".toList⟩ =
      { header := some ⟨"x", 1, []⟩ } := by
    unfold Draft.feed Draft.feedOpen
    rw [hkind]
    rfl
  rw [hbreak, Line.scan_append hreturn, hscan, List.singleton_append, List.foldl_cons, hheader]
  rfl

/-- Reading goes on at the header of a scenario or outline as it would below a feature alone: what
stands above it, up to a blank line, leaves nothing behind but its header, its scenarios and its
issues. The lower text has to start with that header as written, since a byte order mark in front of
it would stay in the joined text. -/
theorem read_joined (upper lower : String) {feature : Feature}
    (hfeature : (read naming path upper).feature = some feature)
    (hclosed : ∀ line, ⟨line, .unterminatedDocString⟩ ∉ (read naming path upper).issues)
    (hreturn : upper.toList.getLast? ≠ some '\r')
    (hblank : ∃ last, (Line.scan upper).getLast? = some last ∧ last.kind = .blank)
    (hstart : ∃ name, (Line.first lower).kind = .scenario name ∨
      (Line.first lower).kind = .outline name) :
    ∃ other, (read naming path ("Feature: x\n" ++ lower)).feature = some other ∧
      read naming path (upper ++ "\n" ++ lower) =
        { feature := some { feature with
            scenarios := feature.scenarios ++
              other.scenarios.map (Scenario.moved ((Line.scan upper).length - 1) feature.line) }
          issues := (read naming path upper).issues ++
            (read naming path ("Feature: x\n" ++ lower)).issues.map
              (Issue.moved ((Line.scan upper).length - 1)) } := by
  obtain ⟨last, hlast, hlastKind⟩ := hblank
  obtain ⟨init, hinit⟩ := List.getLast?_eq_some_iff.mp hlast
  obtain ⟨header, hended, rfl⟩ := Option.map_eq_some_iff.mp hfeature
  have hheader := (Draft.finish_header path _).symm.trans hended
  have hdoc := Draft.docString_eq_none path hclosed
  have htags : ((Line.scan upper).foldl (Draft.feed naming path) {}).pendingTags = [] := by
    rw [hinit, List.foldl_append] at hdoc ⊢
    exact Draft.pendingTags_eq_nil naming path hlastKind hdoc
  obtain ⟨raws, hraws⟩ := Line.exists_rawLinesBelow_eq lower.toList
  have hmoved : Line.numberFrom ((Line.scan upper).length + 1) (Line.rawLinesBelow lower.toList) =
      (Line.numberFrom 2 (Line.rawLinesBelow lower.toList)).map
        (Line.moved ((Line.scan upper).length - 1)) := by
    have hcount : (Line.scan upper).length = init.length + 1 := by simp [hinit]
    rw [← Line.numberFrom_add]
    congr 1
    omega
  have hlines : ∀ line ∈ Line.numberFrom 2 (Line.rawLinesBelow lower.toList), 0 < line.number := by
    intro line hline
    have hnumber := (Line.number_of_mem_numberFrom hline).1
    omega
  have hjoined : Line.scan (upper ++ "\n" ++ lower) = _ := Line.scan_append hreturn
  have halone := foldl_feed_alone naming path lower
  rw [hmoved] at hjoined
  rw [hraws, Line.numberFrom] at hjoined halone hlines
  obtain ⟨hbelow, hheaded⟩ := Draft.foldl_feed_eq_below naming path hheader htags hdoc hlines hstart
    ((Line.scan upper).length - 1) ⟨"x", 1, []⟩
  obtain ⟨other, hother, hfeatureBelow⟩ := Draft.exists_feature?_below path
    ⟨header, (((Line.scan upper).foldl (Draft.feed naming path) {}).endBlock path).scenarios,
      ((Line.scan upper).foldl (Draft.feed naming path) {}).issues, (Line.scan upper).length - 1⟩
    ((congrArg Option.isSome (Draft.finish_header path _)).trans hheaded.header)
  have hupper : (((Line.scan upper).foldl (Draft.feed naming path) {}).finish path).issues =
      ((Line.scan upper).foldl (Draft.feed naming path) {}).issues := by
    rw [Draft.finish_eq_endBlock path hdoc, Draft.endBlock_issues]
  simp only [read, readLines]
  rw [hjoined, List.foldl_append, hbelow, Draft.below_finish path _ hheaded, halone, hupper,
    Draft.finish_eq_endBlock path hdoc]
  exact ⟨other, hother, congrArg (Reading.mk · _) hfeatureBelow⟩

theorem read_joined_outline_below_scenario :
    ∃ other,
      (read {} "a.feature" ("Feature: x\n" ++ "Scenario Outline: O\nExamples:\n|k|\n|v|")).feature =
        some other ∧
      read {} "a.feature" ("Feature: F\n@t\nScenario: A\n" ++ "\n" ++
          "Scenario Outline: O\nExamples:\n|k|\n|v|") =
        { feature := some
            { name := "F"
              scenarios :=
                { Scenario.new "A" "a.feature" 3 with featureLine := some 1, tags := ["@t"] } ::
                  other.scenarios.map (Scenario.moved 3 (some 1))
              path := "a.feature"
              line := some 1 }
          issues := [] } := by
  have hupper : read {} "a.feature" "Feature: F\n@t\nScenario: A\n" =
      { feature := some
          { name := "F"
            scenarios :=
              [{ Scenario.new "A" "a.feature" 3 with featureLine := some 1, tags := ["@t"] }]
            path := "a.feature"
            line := some 1 }
        issues := [] } := by decide +kernel
  have hlower : (read {} "a.feature"
      ("Feature: x\n" ++ "Scenario Outline: O\nExamples:\n|k|\n|v|")).issues = [] := by
    decide +kernel
  have hcount : (Line.scan "Feature: F\n@t\nScenario: A\n").length = 4 := by decide +kernel
  obtain ⟨other, hother, hread⟩ := read_joined {} "a.feature" "Feature: F\n@t\nScenario: A\n"
    "Scenario Outline: O\nExamples:\n|k|\n|v|" (congrArg Reading.feature hupper) (by simp [hupper])
    (by decide +kernel) ⟨⟨4, []⟩, by decide +kernel, by decide +kernel⟩
    ⟨"O", Or.inr (by decide +kernel)⟩
  rw [hupper, hlower, hcount] at hread
  exact ⟨other, hother, hread⟩

end Feature

end ScenarioAtlas
