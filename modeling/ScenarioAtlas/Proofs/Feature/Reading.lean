import ScenarioAtlas.Proofs.Feature.Layout

/-!
# Reading gives what the lines stand for

Lines are fed to a draft one after the other. What a draft has and what its open block is due to add
together stay the same over a line inside of the block, and grow by what a line stands for where one
opens a block. So a whole file is read into the feature that its counted lines stand for.
-/

namespace ScenarioAtlas

set_option autoImplicit false

open Line Layout

def Examples.rowsToCome (examples : Examples) (lines : List Line) : List UsableRow :=
  if examples.rejected then []
  else
    match examples.header with
    | none => tableRows examples.tags lines
    | some header => rowsUnder examples.tags header (closedRows lines)

theorem Examples.rowsToCome_nil (examples : Examples) : examples.rowsToCome [] = [] := by
  unfold rowsToCome
  repeat' split
  all_goals rfl

namespace Outline

def rowsToCome (outline : Outline) (above below : List Line) : List UsableRow :=
  match outline.examples with
  | none => collect rowsOf above below
  | some examples => examples.rowsToCome (upToTable below) ++ collect rowsOf above below

def finalSteps (outline : Outline) (below : List Line) : List String :=
  if outline.examples.isNone then outline.steps ++ outlineSteps below else outline.steps

end Outline

/-- The scenarios that a block will have added once it ends, given the lines above it and the rest
of its own lines. -/
def Block.toCome (naming : Naming) (path : String) (featureLine : Nat) (above below : List Line) :
    Block → List Scenario
  | .none | .background => []
  | .scenario own => [{ own with steps := own.steps ++ stepTexts below }]
  | .outline own =>
    let steps := own.finalSteps below
    let rows := own.rowsToCome above below
    if own.usedRows = 0 ∧ rows = [] then
      [ofRowless path featureLine own.name own.line own.tags steps]
    else
      rows.mapIdx fun k row =>
        ofRow naming path featureLine own.name own.line own.tags steps (own.usedRows + k + 1) row

section Passing

variable {line : Line} (above below : List Line)

theorem Outline.rowsToCome_cons (outline : Outline) (h : line.kind.isExamples = false)
    (hcells : line.cells? = none) :
    outline.rowsToCome above (line :: below) = outline.rowsToCome (above ++ [line]) below := by
  unfold rowsToCome Examples.rowsToCome tableRows
  simp only [upToTable_cons h below, collect_rowsOf_cons h above below, closedRows_cons, hcells,
    Option.map_none, Option.toList_none, List.nil_append]

theorem Outline.finalSteps_cons (outline : Outline) (h : line.kind.isExamples = false)
    (hstep : line.kind ≠ .step) : outline.finalSteps (line :: below) = outline.finalSteps below := by
  simp [finalSteps, outlineSteps, upToTable_cons h below, stepTexts_cons hstep]

section ClosedRow

variable {cells : List String} (hcells : line.cells? = some cells)
include hcells

theorem Examples.rowsToCome_header (examples : Examples) (hrejected : examples.rejected = false)
    (hheader : examples.header = none) (lines : List Line) :
    examples.rowsToCome (line :: lines) =
      if "" ∈ cells then [] else rowsUnder examples.tags cells (closedRows lines) := by
  simp [rowsToCome, hrejected, hheader, tableRows, closedRows_cons, hcells]

theorem Examples.rowsToCome_row (examples : Examples) {header : List String}
    (hrejected : examples.rejected = false) (hheader : examples.header = some header)
    (lines : List Line) :
    examples.rowsToCome (line :: lines) =
      (if cells.length = header.length then [⟨line.number, header, cells, examples.tags⟩] else []) ++
        examples.rowsToCome lines := by
  simp only [rowsToCome, hrejected, hheader, rowsUnder, closedRows_cons, hcells]
  by_cases hcount : cells.length = header.length <;> simp [hcount]

end ClosedRow

theorem Outline.rowsToCome_row (outline next : Outline) {examples later : Examples}
    (rows : List UsableRow) (h : line.kind.isExamples = false)
    (hexamples : outline.examples = some examples) (hlater : next.examples = some later)
    (hrows : examples.rowsToCome (line :: upToTable below) =
      rows ++ later.rowsToCome (upToTable below)) :
    outline.rowsToCome above (line :: below) = rows ++ next.rowsToCome (above ++ [line]) below := by
  simp [rowsToCome, hexamples, hlater, upToTable_cons h below, collect_rowsOf_cons h above below,
    hrows]

theorem Block.toCome_cons (naming : Naming) (path : String) (featureLine : Nat) (block : Block)
    (h : line.kind.isExamples = false) (hstep : line.kind ≠ .step) (hrow : line.kind ≠ .row) :
    block.toCome naming path featureLine above (line :: below) =
      block.toCome naming path featureLine (above ++ [line]) below := by
  cases block with
  | none | background => rfl
  | scenario own => simp [toCome, stepTexts_cons hstep]
  | outline own =>
    simp only [toCome, own.rowsToCome_cons above below h (cells?_eq_none hrow),
      own.finalSteps_cons below h hstep]

end Passing

namespace Draft

variable (naming : Naming) (path : String)

theorem endBlock_eq (draft : Draft) (above : List Line) :
    draft.endBlock path =
      { draft with
        scenarios :=
          draft.scenarios ++ draft.block.toCome naming path draft.featureLine above []
        block := .none } := by
  unfold endBlock Block.toCome
  cases draft.block with
  | none | background => simp
  | scenario scenario => simp [addScenario, stepTexts]
  | outline outline =>
    have hrows : outline.rowsToCome above [] = [] := by
      unfold Outline.rowsToCome
      split
      · rfl
      · exact List.append_eq_nil_iff.mpr ⟨Examples.rowsToCome_nil _, rfl⟩
    have hsteps : outline.finalSteps [] = outline.steps := by
      simp [Outline.finalSteps, outlineSteps, upToTable, stepTexts]
    by_cases hused : outline.usedRows = 0
    · simp [hused, hrows, hsteps, addScenario, standIn, ofRowless, Scenario.new, Scenario.asOutline]
    · simp [hused, hrows]

@[simp]
theorem endBlock_header (draft : Draft) : (draft.endBlock path).header = draft.header := by
  rw [endBlock_eq {} path draft []]

@[simp]
theorem endBlock_pendingTags (draft : Draft) :
    (draft.endBlock path).pendingTags = draft.pendingTags := by
  rw [endBlock_eq {} path draft []]

@[simp]
theorem endBlock_docString (draft : Draft) :
    (draft.endBlock path).docString = draft.docString := by
  rw [endBlock_eq {} path draft []]

@[simp]
theorem endBlock_issues (draft : Draft) : (draft.endBlock path).issues = draft.issues := by
  rw [endBlock_eq {} path draft []]

theorem startBlock_eq {draft : Draft} {header : FeatureHeader} (h : draft.header = some header)
    (line : Nat) (opened : Nat → List String → Block) :
    draft.startBlock path line opened =
      { (draft.endBlock path).dropTags with block := opened header.line draft.pendingTags } := by
  simp only [startBlock, endBlock_header, h, endBlock_pendingTags]

theorem addRow_frame (draft : Draft) (row : List Char) (line : Nat) :
    ∃ scenarios block issues,
      draft.addRow naming path row line = { draft with scenarios, block, issues } := by
  unfold addRow readRow
  repeat' split
  all_goals exact ⟨_, _, _, rfl⟩

theorem feedOpen_pendingTags (draft : Draft) (line : Line) :
    (draft.feedOpen naming path line).pendingTags =
      if line.kind.partsTags then [] else draft.pendingTags ++ line.kind.ownTags := by
  unfold feedOpen
  cases line.kind with
  | row =>
    obtain ⟨_, _, _, heq⟩ := addRow_frame naming path draft line.trimmed line.number
    simp [heq, LineKind.partsTags, LineKind.ownTags]
  | feature name =>
    simp only [startFeature, LineKind.partsTags]
    split <;> rfl
  | scenario name | outline name =>
    simp only [startBlock, LineKind.partsTags]
    split <;> rfl
  | examples name =>
    simp only [startExamples, LineKind.partsTags]
    split <;> rfl
  | step =>
    simp only [addStep, LineKind.partsTags]
    repeat' split
    all_goals first | rfl | contradiction
  | comment | fence _ => simp [LineKind.partsTags, LineKind.ownTags]
  | _ => rfl

theorem feedOpen_docString (draft : Draft) (line : Line) :
    (draft.feedOpen naming path line).docString =
      (line.kind.opening?.map fun fence => (fence, line.number)).or draft.docString := by
  unfold feedOpen
  cases line.kind with
  | row =>
    obtain ⟨_, _, _, heq⟩ := addRow_frame naming path draft line.trimmed line.number
    simp [heq, LineKind.opening?]
  | feature name =>
    simp only [startFeature, endBlock_eq naming path _ []]
    split <;> rfl
  | rule _ | background =>
    simp only [endBlock_eq naming path _ []]
    rfl
  | scenario name | outline name =>
    simp only [startBlock, endBlock_eq naming path _ []]
    split <;> rfl
  | examples name =>
    simp only [startExamples]
    split <;> rfl
  | step =>
    simp only [addStep]
    repeat' split
    all_goals rfl
  | _ => rfl

theorem feedOpen_header {draft : Draft} {header : FeatureHeader} (h : draft.header = some header)
    (line : Line) : (draft.feedOpen naming path line).header = some header := by
  unfold feedOpen
  cases line.kind with
  | row =>
    obtain ⟨_, _, _, heq⟩ := addRow_frame naming path draft line.trimmed line.number
    simp [heq, h]
  | feature name =>
    simp [startFeature, h, report, dropTags]
  | rule _ | background =>
    simp [endBlock_eq naming path _ [], h, dropTags]
  | scenario name | outline name =>
    simp [startBlock, endBlock_eq naming path _ [], h, dropTags]
  | examples name =>
    simp only [startExamples]
    split <;> simp [dropTags, report, h]
  | step =>
    simp only [addStep]
    repeat' split
    all_goals simp [dropTags, h]
  | _ => exact h

/-- The scenarios of a draft and those that its block will have added. -/
def due (draft : Draft) (featureLine : Nat) (above below : List Line) : List Scenario :=
  draft.scenarios ++ draft.block.toCome naming path featureLine above below

variable {draft : Draft} {featureLine : Nat} {line : Line} (above below : List Line)

theorem addStep_due (hkind : line.kind = .step) :
    (draft.addStep (String.ofList line.trimmed)).due naming path featureLine (above ++ [line]) below =
      draft.due naming path featureLine above (line :: below) := by
  have hex : line.kind.isExamples = false := by rw [hkind]; rfl
  have hcells : line.cells? = none := cells?_eq_none (by simp [hkind])
  unfold due addStep
  cases hblock : draft.block with
  | none | background => simp [hblock, Block.toCome]
  | scenario own => simp [Block.toCome, stepTexts, hkind]
  | outline own =>
    simp only [Block.toCome, own.rowsToCome_cons above below hex hcells]
    cases hexamples : own.examples with
    | none =>
      simp [Outline.rowsToCome, Outline.finalSteps, hexamples, outlineSteps, stepTexts,
        upToTable_cons hex below, hkind]
    | some examples =>
      simp [hblock, Outline.rowsToCome, Outline.finalSteps, hexamples]

theorem startExamples_due (hkind : line.kind.isExamples = true)
    (htags : draft.pendingTags = tagsAbove above) :
    (draft.startExamples line.number).due naming path featureLine (above ++ [line]) below =
      draft.due naming path featureLine above (line :: below) := by
  have hstep : line.kind ≠ .step := by
    intro h
    simp [h, LineKind.isExamples] at hkind
  unfold due startExamples
  cases hblock : draft.block with
  | none | background => simp [hblock, Block.toCome, report, dropTags]
  | scenario own => simp [hblock, Block.toCome, report, dropTags, stepTexts_cons hstep]
  | outline own =>
    have hrows : ({ own with examples := some { tags := draft.pendingTags } } : Outline).rowsToCome
        (above ++ [line]) below = own.rowsToCome above (line :: below) := by
      have hopened : collect rowsOf above (line :: below) =
          tableRows (tagsAbove above) (upToTable below) ++
            collect rowsOf (above ++ [line]) below := by
        simp [collect, rowsOf, hkind]
      have hnew : ({ tags := draft.pendingTags } : Examples).rowsToCome (upToTable below) =
          tableRows (tagsAbove above) (upToTable below) := by
        simp [Examples.rowsToCome, htags]
      cases hexamples : own.examples <;>
        simp [Outline.rowsToCome, hexamples, hopened, hnew,
          upToTable_cons_of_isExamples hkind below, Examples.rowsToCome_nil]
    have hsteps : ({ own with examples := some { tags := draft.pendingTags } } : Outline).finalSteps
        below = own.finalSteps (line :: below) := by
      simp [Outline.finalSteps, outlineSteps, upToTable_cons_of_isExamples hkind below, stepTexts]
    simp only [Block.toCome, dropTags, hrows, hsteps]

/-- A used row is added at once, and the rows to come are those behind it. -/
theorem readRow_due {own : Outline} {examples : Examples} (hkind : line.kind = .row)
    (hline : draft.featureLine = featureLine) (hblock : draft.block = .outline own)
    (hexamples : own.examples = some examples) (hrejected : examples.rejected = false) :
    (draft.readRow naming path own examples line.trimmed line.number).due naming path featureLine
        (above ++ [line]) below =
      draft.due naming path featureLine above (line :: below) := by
  have hex : line.kind.isExamples = false := by rw [hkind]; rfl
  have hcells : (Row.split? line.trimmed).map (·.map String.ofList) = line.cells? := by
    simp [cells?, hkind]
  have hsteps (lines : List Line) : own.finalSteps lines = own.steps := by
    simp [Outline.finalSteps, hexamples]
  have hlater (later : Examples) :
      ({ own with examples := some later } : Outline).finalSteps below = own.steps := by
    simp [Outline.finalSteps]
  obtain ⟨tags, header, rejected⟩ := examples
  subst hrejected
  unfold due readRow
  rw [hcells]
  cases hown : line.cells? with
  | none =>
    have hrows := own.rowsToCome_cons above below hex hown
    simp only [report, hblock, Block.toCome, hsteps, hrows]
  | some cells =>
    cases header with
    | none =>
      have hhead := Examples.rowsToCome_header hown { tags } rfl rfl (upToTable below)
      dsimp only
      split
      case isTrue hnameless =>
        rw [if_pos hnameless] at hhead
        have hrows := Outline.rowsToCome_row above below own
          { own with examples := some { tags, rejected := true } } [] hex hexamples rfl hhead
        simp only [report, hblock, Block.toCome, hsteps, hlater, hrows, List.nil_append]
      case isFalse hnamed =>
        rw [if_neg hnamed] at hhead
        have hrows := Outline.rowsToCome_row above below own
          { own with examples := some { tags, header := some cells } } [] hex hexamples rfl hhead
        simp only [hblock, Block.toCome, hsteps, hlater, hrows, List.nil_append]
    | some header =>
      have hrow := Examples.rowsToCome_row hown { tags, header := some header } rfl rfl
        (upToTable below)
      dsimp only
      split
      case isTrue hcount =>
        rw [if_neg hcount] at hrow
        have hrows := Outline.rowsToCome_row above below own own [] hex hexamples hexamples hrow
        simp only [report, hblock, Block.toCome, hsteps, hrows, List.nil_append]
      case isFalse hcount =>
        rw [if_pos (Decidable.not_not.mp hcount)] at hrow
        have hrows := Outline.rowsToCome_row above below own
          { own with usedRows := own.usedRows + 1 } _ hex hexamples hexamples hrow
        have hused : ({ own with usedRows := own.usedRows + 1 } : Outline).finalSteps below =
            own.steps := by
          simp [Outline.finalSteps, hexamples]
        have hindex (k : Nat) : own.usedRows + (k + 1) + 1 = own.usedRows + 1 + k + 1 := by omega
        simp [hblock, Block.toCome, hsteps, hrows, hused, addScenario, exampleOf, ofRow,
          Scenario.exampleOf, Scenario.new, hline, List.mapIdx_cons, hindex]

theorem addRow_due (hkind : line.kind = .row) (hline : draft.featureLine = featureLine) :
    (draft.addRow naming path line.trimmed line.number).due naming path featureLine
        (above ++ [line]) below =
      draft.due naming path featureLine above (line :: below) := by
  have hstep : line.kind ≠ .step := by simp [hkind]
  have hex : line.kind.isExamples = false := by rw [hkind]; rfl
  cases hblock : draft.block with
  | none | background => simp [due, addRow, hblock, Block.toCome]
  | scenario own => simp [due, addRow, hblock, Block.toCome, stepTexts_cons hstep]
  | outline own =>
    have hsteps : own.finalSteps (line :: below) = own.finalSteps below :=
      own.finalSteps_cons below hex hstep
    have hlater := collect_rowsOf_cons hex above below
    cases hexamples : own.examples with
    | none => simp [due, addRow, hblock, Block.toCome, hsteps, Outline.rowsToCome, hexamples, hlater]
    | some examples =>
      cases hrejected : examples.rejected with
      | true =>
        simp [due, addRow, hblock, Block.toCome, hsteps, Outline.rowsToCome, hexamples, hlater,
          Examples.rowsToCome, hrejected]
      | false =>
        have hread : draft.addRow naming path line.trimmed line.number =
            draft.readRow naming path own examples line.trimmed line.number := by
          simp [addRow, hblock, hexamples, hrejected]
        rw [hread]
        exact readRow_due naming path above below hkind hline hblock hexamples hrejected

theorem collect_rowsOf_block (hparts : line.kind.partsTags = true) (lines : List Line) :
    collect rowsOf (above ++ line :: lines) below = collect rowsOf lines below := by
  induction below generalizing lines with
  | nil => rfl
  | cons next below ih =>
    have htail := ih (lines ++ [next])
    have hnext : rowsOf (above ++ line :: lines) next below = rowsOf lines next below := by
      simp only [rowsOf, tagsAbove_append_cons hparts]
    simp only [collect, hnext, List.append_assoc, List.cons_append, htail]

/-- The block that a header opens will have added the scenarios that the header stands for. -/
theorem feedOpen_due_of_startsBlock {header : FeatureHeader} (hheader : draft.header = some header)
    (hstarts : line.kind.startsBlock = true) (htags : draft.pendingTags = tagsAbove above) :
    (draft.feedOpen naming path line).due naming path header.line (above ++ [line]) (body below) =
      draft.due naming path header.line above [] ++
        ofHeader naming path header.line above line below := by
  have hparts := LineKind.partsTags_of_startsBlock hstarts
  have hline : draft.featureLine = header.line := by simp [featureLine, hheader]
  unfold feedOpen due ofHeader
  cases hkind : line.kind with
  | rule _ | background =>
    simp [endBlock_eq naming path draft above, dropTags, Block.toCome, hline]
  | scenario name =>
    simp [startBlock, endBlock_eq naming path draft above, dropTags, Block.toCome, hline, hheader,
      scenarioBlock, ofScenario, Scenario.new, htags]
  | outline name =>
    have hrows : collect rowsOf (above ++ [line]) (body below) = usableRows (body below) :=
      collect_rowsOf_block above (body below) hparts []
    cases husable : usableRows (body below) <;>
      simp [startBlock, endBlock_eq naming path draft above, dropTags, Block.toCome, hline, hheader,
        outlineBlock, htags, Outline.rowsToCome, Outline.finalSteps, hrows, ofOutline, husable]
  | blank | other | comment | tags _ | feature _ | examples _ | row | fence _ | step =>
    simp [hkind, LineKind.startsBlock] at hstarts

/-- A line inside of a block moves scenarios from those to come to those that are there. -/
theorem feedOpen_due {header : FeatureHeader} (hheader : draft.header = some header)
    (hinside : line.kind.startsBlock = false) (htags : draft.pendingTags = tagsAbove above) :
    (draft.feedOpen naming path line).due naming path header.line (above ++ [line]) below =
      draft.due naming path header.line above (line :: below) := by
  have hline : draft.featureLine = header.line := by simp [featureLine, hheader]
  have hkept {later : Draft} (hscenarios : later.scenarios = draft.scenarios)
      (hblock : later.block = draft.block) (hex : line.kind.isExamples = false)
      (hstep : line.kind ≠ .step) (hrow : line.kind ≠ .row) :
      later.due naming path header.line (above ++ [line]) below =
        draft.due naming path header.line above (line :: below) := by
    simp only [due, hscenarios, hblock,
      draft.block.toCome_cons above below naming path header.line hex hstep hrow]
  unfold feedOpen
  cases hkind : line.kind with
  | rule _ | background | scenario _ | outline _ => simp [hkind, LineKind.startsBlock] at hinside
  | blank | other | comment | tags _ | fence _ =>
    exact hkept rfl rfl (by rw [hkind]; rfl) (by simp [hkind]) (by simp [hkind])
  | feature name =>
    have hreported : draft.startFeature path name line.number =
        (draft.report line.number .duplicateFeature).dropTags := by
      simp [startFeature, hheader]
    dsimp only
    rw [hreported]
    exact hkept rfl rfl (by rw [hkind]; rfl) (by simp [hkind]) (by simp [hkind])
  | examples _ =>
    exact startExamples_due naming path above below (by rw [hkind]; rfl) htags
  | row => exact addRow_due naming path above below hkind hline
  | step => exact addStep_due naming path above below hkind

/-- The counted ones of the lines that a draft is still to be fed. -/
def counting (draft : Draft) (lines : List Line) : List Line :=
  unfenced (draft.docString.map Prod.fst) lines

/-- A line either is not counted and changes nothing but the doc string, or it is taken in. -/
theorem feed_cases (draft : Draft) (line : Line) (rest : List Line) :
    (∃ docString, draft.feed naming path line = { draft with docString } ∧
      draft.counting (line :: rest) = { draft with docString }.counting rest) ∨
    (draft.feed naming path line = draft.feedOpen naming path line ∧
      draft.counting (line :: rest) =
        line :: (draft.feedOpen naming path line).counting rest) := by
  unfold feed counting
  cases hdoc : draft.docString with
  | some opened =>
    left
    simp only [Option.map_some, unfenced]
    split
    · exact ⟨none, rfl, rfl⟩
    · exact ⟨some opened, by rw [← hdoc], rfl⟩
  | none =>
    right
    refine ⟨rfl, ?_⟩
    rw [feedOpen_docString, hdoc, Option.map_none, unfenced]
    cases line.kind.opening? <;> rfl

theorem pendingTags_feedOpen_eq (htags : draft.pendingTags = tagsAbove above) :
    (draft.feedOpen naming path line).pendingTags = tagsAbove (above ++ [line]) := by
  rw [feedOpen_pendingTags, htags, tagsAbove_concat]

/-- Reading on below the header of the feature adds the scenarios of the open block, and then those
of the counted lines that follow. -/
theorem foldl_feed_scenarios {header : FeatureHeader} (hheader : draft.header = some header)
    (htags : draft.pendingTags = tagsAbove above) (lines : List Line) :
    ((lines.foldl (feed naming path) draft).endBlock path).scenarios =
      draft.due naming path header.line above (body (draft.counting lines)) ++
        scenariosOf naming path header.line above (draft.counting lines) := by
  induction lines generalizing draft above with
  | nil =>
    have hline : draft.featureLine = header.line := by simp [featureLine, hheader]
    rw [List.foldl_nil, endBlock_eq naming path draft above, hline]
    simp [counting, unfenced, body, scenariosOf, collect, due]
  | cons line rest ih =>
    rw [List.foldl_cons]
    rcases feed_cases naming path draft line rest with ⟨docString, hfeed, hcount⟩ | ⟨hfeed, hcount⟩
    · rw [hfeed, hcount]
      exact ih above hheader htags
    · rw [hfeed, hcount, ih _ (feedOpen_header naming path hheader line)
        (pendingTags_feedOpen_eq naming path above htags)]
      cases hstarts : line.kind.startsBlock with
      | true =>
        rw [feedOpen_due_of_startsBlock naming path above _ hheader hstarts htags,
          body_cons_of_startsBlock hstarts]
        simp only [scenariosOf, collect, List.append_assoc]
      | false =>
        rw [feedOpen_due naming path above _ hheader hstarts htags, body_cons hstarts]
        simp only [scenariosOf, collect, ofHeader_eq_nil hstarts,
          List.nil_append]

theorem foldl_feed_header {header : FeatureHeader} (hheader : draft.header = some header)
    (lines : List Line) : (lines.foldl (feed naming path) draft).header = some header := by
  induction lines generalizing draft with
  | nil => exact hheader
  | cons line rest ih =>
    rw [List.foldl_cons]
    rcases feed_cases naming path draft line rest with ⟨docString, hfeed, _⟩ | ⟨hfeed, _⟩
    · exact ih (by rw [hfeed]; exact hheader)
    · exact ih (by rw [hfeed]; exact feedOpen_header naming path hheader line)

structure Headless (draft : Draft) : Prop where
  header : draft.header = none
  scenarios : draft.scenarios = []
  block : draft.block = .none ∨ draft.block = .background

theorem Headless.endBlock (h : draft.Headless) : (draft.endBlock path).Headless := by
  obtain ⟨hheader, hscenarios, hblock⟩ := h
  rw [endBlock_eq {} path draft []]
  refine ⟨hheader, ?_, Or.inl rfl⟩
  rcases hblock with hblock | hblock <;> simp [hscenarios, hblock, Block.toCome]

theorem Headless.feedOpen (h : draft.Headless) (hkind : line.kind.isFeature = false) :
    (draft.feedOpen naming path line).Headless := by
  have hended := h.endBlock path
  unfold Draft.feedOpen
  cases hline : line.kind with
  | feature name => simp [hline, LineKind.isFeature] at hkind
  | blank | other | comment | tags _ | fence _ => exact ⟨h.header, h.scenarios, h.block⟩
  | rule _ => exact ⟨hended.header, hended.scenarios, hended.block⟩
  | background => exact ⟨hended.header, hended.scenarios, Or.inr rfl⟩
  | scenario _ | outline _ =>
    simp only [startBlock, hended.header]
    exact ⟨hended.header, hended.scenarios, hended.block⟩
  | examples _ =>
    rcases h.block with hblock | hblock <;>
      exact ⟨by simp [startExamples, hblock, report, dropTags, h.header],
        by simp [startExamples, hblock, report, dropTags, h.scenarios],
        by simp [startExamples, hblock, report, dropTags]⟩
  | row => rcases h.block with hblock | hblock <;> simpa [addRow, hblock] using h
  | step =>
    rcases h.block with hblock | hblock <;>
      exact ⟨by simp [addStep, hblock, dropTags, h.header],
        by simp [addStep, hblock, dropTags, h.scenarios],
        by simp [addStep, hblock, dropTags]⟩

theorem Headless.feedOpen_feature (h : draft.Headless) {name : String}
    (hkind : line.kind = .feature name) :
    (draft.feedOpen naming path line).header = some ⟨name, line.number, draft.pendingTags⟩ ∧
      (draft.feedOpen naming path line).scenarios = [] ∧
      (draft.feedOpen naming path line).block = .none := by
  have hended := h.endBlock path
  have hstarted : draft.feedOpen naming path line =
      { draft.endBlock path with
        header := some ⟨name, line.number, (draft.endBlock path).pendingTags⟩
        pendingTags := [] } := by
    simp [Draft.feedOpen, hkind, startFeature, h.header]
  rw [hstarted]
  exact ⟨by rw [endBlock_eq naming path draft []], hended.scenarios,
    by rw [endBlock_eq naming path draft []]⟩

theorem foldl_feed_headless (h : draft.Headless) (lines : List Line)
    (hnone : ∀ line ∈ draft.counting lines, line.kind.isFeature = false) :
    (lines.foldl (feed naming path) draft).Headless := by
  induction lines generalizing draft with
  | nil => exact h
  | cons line rest ih =>
    rw [List.foldl_cons]
    rcases feed_cases naming path draft line rest with ⟨docString, hfeed, hcount⟩ | ⟨hfeed, hcount⟩
    · rw [hfeed]
      exact ih ⟨h.header, h.scenarios, h.block⟩ (hcount ▸ hnone)
    · rw [hcount] at hnone
      rw [hfeed]
      exact ih (h.feedOpen naming path (hnone line List.mem_cons_self))
        fun other hother => hnone other (List.mem_cons_of_mem line hother)

/-- What has been read once the header of the feature and all lines below it have been fed. -/
theorem Headless.foldl_feed_isHeader (h : draft.Headless)
    (htags : draft.pendingTags = tagsAbove above) {name : String} {before after : List Line}
    {header : Line} (lines : List Line)
    (hheader : IsHeader name (draft.counting lines) before header after) :
    (lines.foldl (feed naming path) draft).header =
        some ⟨name, header.number, tagsAbove (above ++ before)⟩ ∧
      ((lines.foldl (feed naming path) draft).endBlock path).scenarios =
        scenariosOf naming path header.number (above ++ before ++ [header]) after := by
  induction lines generalizing draft above before with
  | nil => simpa [counting, unfenced] using hheader.split
  | cons line rest ih =>
    rw [List.foldl_cons]
    rcases feed_cases naming path draft line rest with ⟨docString, hfeed, hcount⟩ | ⟨hfeed, hcount⟩
    · rw [hfeed]
      have hheadless : Headless { draft with docString } := ⟨h.header, h.scenarios, h.block⟩
      exact ih above hheadless htags (hcount ▸ hheader)
    · obtain ⟨hsplit, hkind, hfirst⟩ := hheader
      rw [hcount] at hsplit
      rw [hfeed]
      cases before with
      | nil =>
        obtain ⟨rfl, rfl⟩ := List.cons.inj hsplit
        obtain ⟨hstarted, hscenarios, hblock⟩ := h.feedOpen_feature naming path hkind
        have hbelow : (draft.feedOpen naming path line).pendingTags = tagsAbove (above ++ [line]) :=
          pendingTags_feedOpen_eq naming path above htags
        rw [foldl_feed_header naming path hstarted,
          foldl_feed_scenarios naming path _ hstarted hbelow, due, hscenarios, hblock, htags]
        simp [Block.toCome]
      | cons first before =>
        obtain ⟨rfl, hrest⟩ := List.cons.inj hsplit
        have hthis := ih (above ++ [line]) (h.feedOpen naming path (hfirst line List.mem_cons_self))
          (pendingTags_feedOpen_eq naming path above htags)
          ⟨hrest, hkind, fun other hother => hfirst other (List.mem_cons_of_mem line hother)⟩
        simpa using hthis

theorem finish_eq_endBlock {draft : Draft} (h : draft.docString = none) :
    draft.finish path = draft.endBlock path := by
  simp only [finish, endBlock_docString, h]

theorem finish_header (draft : Draft) : (draft.finish path).header = draft.header := by
  unfold finish
  dsimp only
  split <;> exact endBlock_header path draft

theorem finish_scenarios (draft : Draft) :
    (draft.finish path).scenarios = (draft.endBlock path).scenarios := by
  unfold finish
  dsimp only
  split <;> rfl

end Draft

namespace Layout

variable {naming : Naming} {path text name : String} {above below : List Line} {header : Line}

theorem exists_isHeader {lines : List Line} (h : ∃ line ∈ lines, line.kind.isFeature = true) :
    ∃ name above header below, IsHeader name lines above header below := by
  obtain ⟨found, hfound⟩ := Option.isSome_iff_exists.mp (List.find?_isSome.mpr h)
  obtain ⟨hkind, above, below, hsplit, hfirst⟩ := List.find?_eq_some_iff_append.mp hfound
  cases hname : found.kind with
  | feature name => exact ⟨name, above, found, below, hsplit, hname, by simpa using hfirst⟩
  | _ => simp [hname, LineKind.isFeature] at hkind

/-- The feature that is read from a text is the one that its counted lines stand for. -/
theorem ofText?_of_isHeader (h : IsHeader name (counted text) above header below) :
    Feature.ofText? naming path text =
      some (featureOf naming path name above header below) := by
  have hempty : Draft.Headless {} := ⟨rfl, rfl, Or.inl rfl⟩
  obtain ⟨hheader, hscenarios⟩ :=
    hempty.foldl_feed_isHeader naming path [] tagsAbove_nil.symm (scan text) h
  simp [Feature.ofText?, Feature.read, Feature.readLines, Draft.feature?, Draft.finish_header,
    Draft.finish_scenarios, hheader, hscenarios, featureOf]

theorem ofText?_eq_none_iff :
    Feature.ofText? naming path text = none ↔
      ∀ line ∈ counted text, line.kind.isFeature = false := by
  constructor
  · intro hnone
    by_contra hsome
    obtain ⟨name, above, header, below, h⟩ := exists_isHeader (by simpa using hsome)
    rw [ofText?_of_isHeader h] at hnone
    cases hnone
  · intro h
    have hempty : Draft.Headless {} := ⟨rfl, rfl, Or.inl rfl⟩
    have hread := Draft.foldl_feed_headless naming path hempty (scan text) h
    simp [Feature.ofText?, Feature.read, Feature.readLines, Draft.feature?, Draft.finish_header,
      hread.header]

theorem exists_of_ofText? {feature : Feature}
    (h : Feature.ofText? naming path text = some feature) :
    ∃ name above header below, IsHeader name (counted text) above header below ∧
      feature = featureOf naming path name above header below := by
  have hsome : ∃ line ∈ counted text, line.kind.isFeature = true := by
    by_contra hnone
    have hread : Feature.ofText? naming path text = none :=
      ofText?_eq_none_iff.mpr (by simpa using hnone)
    rw [hread] at h
    cases h
  obtain ⟨name, above, header, below, hheader⟩ := exists_isHeader hsome
  rw [ofText?_of_isHeader hheader] at h
  exact ⟨name, above, header, below, hheader, (Option.some.inj h).symm⟩

end Layout

end ScenarioAtlas
