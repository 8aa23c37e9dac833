import ScenarioAtlas.Proofs.Feature.Reading

/-!
# Line numbers are only carried along

Reading a feature file compares no two line numbers. With every line numbered anew, each step of
reading does as before with the new numbers in place of the old ones, and so does the whole reading.
Two things are asked for: a feature that is not there stays on line zero, and lines are counted from
one, since an editor's count of a line is one less.
-/

namespace ScenarioAtlas

set_option autoImplicit false

def Line.renumbered (f : Nat → Nat) (line : Line) : Line := { line with number := f line.number }

/-- The scenario with its lines numbered anew. An editor counts the same lines from zero. -/
def Scenario.renumbered (f : Nat → Nat) (scenario : Scenario) : Scenario :=
  { scenario with
    editorLine := f (scenario.editorLine + 1) - 1
    line := f scenario.line
    outlineLine := scenario.outlineLine.map f
    featureLine := scenario.featureLine.map f }

def Issue.renumbered (f : Nat → Nat) (issue : Issue) : Issue := { issue with line := f issue.line }

def Feature.renumbered (f : Nat → Nat) (feature : Feature) : Feature :=
  { feature with
    scenarios := feature.scenarios.map (Scenario.renumbered f)
    line := feature.line.map f }

def Reading.renumbered (f : Nat → Nat) (reading : Reading) : Reading where
  feature := reading.feature.map (Feature.renumbered f)
  issues := reading.issues.map (Issue.renumbered f)

def FeatureHeader.renumbered (f : Nat → Nat) (header : FeatureHeader) : FeatureHeader :=
  { header with line := f header.line }

def Outline.renumbered (f : Nat → Nat) (outline : Outline) : Outline :=
  { outline with line := f outline.line }

def Block.renumbered (f : Nat → Nat) : Block → Block
  | .none => .none
  | .background => .background
  | .scenario own => .scenario (own.renumbered f)
  | .outline own => .outline (own.renumbered f)

namespace Draft

def renumbered (f : Nat → Nat) (draft : Draft) : Draft where
  header := draft.header.map (FeatureHeader.renumbered f)
  scenarios := draft.scenarios.map (Scenario.renumbered f)
  pendingTags := draft.pendingTags
  block := draft.block.renumbered f
  docString := draft.docString.map fun (fence, line) => (fence, f line)
  issues := draft.issues.map (Issue.renumbered f)

/-- The header of an open outline is on a line that is counted from one. -/
def OutlineCounted (draft : Draft) : Prop :=
  ∀ outline, draft.block = .outline outline → 0 < outline.line

/-- Whether an outline that is open after a step of reading was open before, on the same line. -/
def KeepsOutline (draft next : Draft) : Prop :=
  ∀ outline, next.block = .outline outline →
    ∃ own, draft.block = .outline own ∧ outline.line = own.line

variable (naming : Naming) (path : String) {draft : Draft}

section Outlines

theorem keepsOutline_startExamples (line : Nat) :
    draft.KeepsOutline (draft.startExamples line) := by
  intro outline h
  unfold startExamples at h
  split at h
  case h_1 own hblock =>
    cases h
    exact ⟨own, hblock, rfl⟩
  case h_2 => exact ⟨outline, h, rfl⟩

theorem keepsOutline_addStep (step : String) : draft.KeepsOutline (draft.addStep step) := by
  intro outline h
  unfold addStep at h
  split at h
  case h_1 => cases h
  case h_2 own hblock =>
    split at h
    · cases h
      exact ⟨own, hblock, rfl⟩
    · exact ⟨outline, h, rfl⟩
  case h_3 => exact ⟨outline, h, rfl⟩

theorem keepsOutline_readRow {own : Outline} (hblock : draft.block = .outline own)
    (examples : Examples) (row : List Char) (line : Nat) :
    draft.KeepsOutline (draft.readRow naming path own examples row line) := by
  intro outline h
  refine ⟨own, hblock, ?_⟩
  unfold readRow at h
  split at h
  case h_1 =>
    rw [report, hblock] at h
    cases h
    rfl
  case h_2 =>
    split at h <;> cases h <;> rfl
  case h_3 =>
    split at h
    · rw [report, hblock] at h
      cases h
      rfl
    · cases h
      rfl

theorem keepsOutline_addRow (row : List Char) (line : Nat) :
    draft.KeepsOutline (draft.addRow naming path row line) := by
  intro outline h
  unfold addRow at h
  split at h
  case h_1 own hblock =>
    split at h
    · split at h
      · exact ⟨outline, h, rfl⟩
      · exact keepsOutline_readRow naming path hblock _ row line outline h
    · exact ⟨outline, h, rfl⟩
  case h_2 => exact ⟨outline, h, rfl⟩

theorem OutlineCounted.of_keepsOutline {next : Draft} (h : draft.OutlineCounted)
    (hkeeps : draft.KeepsOutline next) : next.OutlineCounted := by
  intro outline houtline
  obtain ⟨own, hown, hsame⟩ := hkeeps outline houtline
  exact hsame ▸ h own hown

theorem OutlineCounted.startBlock {line : Nat} {opened : Nat → List String → Block}
    (hopened : ∀ featureLine tags outline, opened featureLine tags = .outline outline →
      0 < outline.line) :
    (draft.startBlock path line opened).OutlineCounted := by
  intro outline houtline
  simp only [Draft.startBlock, endBlock_header] at houtline
  split at houtline
  case h_1 =>
    rw [endBlock_eq {} path draft []] at houtline
    cases houtline
  case h_2 header hheader => exact hopened _ _ outline houtline

theorem OutlineCounted.feedOpen (h : draft.OutlineCounted) {line : Line}
    (hline : 0 < line.number) : (draft.feedOpen naming path line).OutlineCounted := by
  unfold Draft.feedOpen
  cases hkind : line.kind with
  | blank | other | comment | tags _ | fence _ => exact h
  | feature name =>
    simp only [startFeature, endBlock_eq naming path draft []]
    split
    · exact h
    · intro outline houtline
      cases houtline
  | rule _ | background =>
    simp only [endBlock_eq naming path draft []]
    intro outline houtline
    cases houtline
  | scenario name =>
    apply OutlineCounted.startBlock path
    intro _ _ outline houtline
    cases houtline
  | outline name =>
    apply OutlineCounted.startBlock path
    intro _ _ outline houtline
    cases houtline
    exact hline
  | examples _ => exact h.of_keepsOutline (keepsOutline_startExamples line.number)
  | row => exact h.of_keepsOutline (keepsOutline_addRow naming path line.trimmed line.number)
  | step =>
    have hdropped : draft.dropTags.OutlineCounted := h
    exact hdropped.of_keepsOutline (keepsOutline_addStep (String.ofList line.trimmed))

theorem OutlineCounted.feed (h : draft.OutlineCounted) {line : Line} (hline : 0 < line.number) :
    (draft.feed naming path line).OutlineCounted := by
  unfold Draft.feed
  split
  · split <;> exact h
  · exact h.feedOpen naming path hline

end Outlines

section Steps

variable {f : Nat → Nat}

theorem report_renumbered (draft : Draft) (line : Nat) (kind : IssueKind) :
    (draft.renumbered f).report (f line) kind = (draft.report line kind).renumbered f := by
  simp [renumbered, report, Issue.renumbered]

theorem featureLine_renumbered (draft : Draft) (hzero : f 0 = 0) :
    (draft.renumbered f).featureLine = f draft.featureLine := by
  unfold featureLine
  cases hheader : draft.header with
  | none => simp [renumbered, hheader, hzero]
  | some header => simp [renumbered, hheader, FeatureHeader.renumbered]

theorem new_renumbered {line : Nat} (hline : 0 < line) (name : String) :
    Scenario.new name path (f line) = (Scenario.new name path line).renumbered f := by
  have hline : line - 1 + 1 = line := by omega
  simp [Scenario.new, Scenario.renumbered, hline]

theorem endBlock_renumbered (hzero : f 0 = 0) (h : draft.OutlineCounted) :
    (draft.renumbered f).endBlock path = (draft.endBlock path).renumbered f := by
  have hfeature := featureLine_renumbered draft hzero
  unfold endBlock
  cases hblock : draft.block with
  | none | background => simp [renumbered, hblock, Block.renumbered]
  | scenario own => simp [renumbered, hblock, Block.renumbered, addScenario]
  | outline own =>
    have hstandIn : standIn path (own.renumbered f) (f draft.featureLine) =
        (standIn path own draft.featureLine).renumbered f := by
      simp only [standIn, Outline.renumbered, new_renumbered path (h own hblock)]
      rfl
    have hbelow : (draft.renumbered f).block = .outline (own.renumbered f) := by
      simp [renumbered, hblock, Block.renumbered]
    have hused : (own.renumbered f).usedRows = own.usedRows := rfl
    simp only [hbelow, hused, hfeature, hstandIn]
    by_cases hnone : own.usedRows = 0
    · simp [hnone, renumbered, addScenario, Block.renumbered]
    · simp [hnone, renumbered, Block.renumbered]

theorem startFeature_renumbered (hzero : f 0 = 0) (h : draft.OutlineCounted) (name : String)
    (line : Nat) :
    (draft.renumbered f).startFeature path name (f line) =
      (draft.startFeature path name line).renumbered f := by
  have hheader : (draft.renumbered f).header.isSome = draft.header.isSome := by simp [renumbered]
  unfold startFeature
  rw [hheader]
  split
  · rw [report_renumbered]
    rfl
  · rw [endBlock_renumbered path hzero h]
    rfl

theorem startBlock_renumbered (hzero : f 0 = 0) (h : draft.OutlineCounted) (line : Nat)
    {opened openedAnew : Nat → List String → Block}
    (hopened : ∀ featureLine tags,
      openedAnew (f featureLine) tags = (opened featureLine tags).renumbered f) :
    (draft.renumbered f).startBlock path (f line) openedAnew =
      (draft.startBlock path line opened).renumbered f := by
  unfold startBlock
  dsimp only
  rw [endBlock_renumbered path hzero h]
  generalize draft.endBlock path = ended
  have hheader : (ended.renumbered f).header = ended.header.map (FeatureHeader.renumbered f) := rfl
  rw [hheader]
  cases ended.header with
  | none => exact report_renumbered ended.dropTags line .scenarioBeforeFeature
  | some header =>
    dsimp only [Option.map_some, FeatureHeader.renumbered]
    rw [hopened]
    rfl

theorem startExamples_renumbered (line : Nat) :
    (draft.renumbered f).startExamples (f line) = (draft.startExamples line).renumbered f := by
  unfold startExamples
  cases hblock : draft.block with
  | none | background | scenario _ =>
    simp [renumbered, hblock, Block.renumbered, report, dropTags, Issue.renumbered]
  | outline own => simp [renumbered, hblock, Block.renumbered, dropTags, Outline.renumbered]

theorem addStep_renumbered (draft : Draft) (step : String) :
    (draft.renumbered f).addStep step = (draft.addStep step).renumbered f := by
  unfold addStep
  cases hblock : draft.block with
  | none | background | scenario _ =>
    simp [renumbered, hblock, Block.renumbered, Scenario.renumbered]
  | outline own =>
    cases hexamples : own.examples <;>
      simp [renumbered, hblock, Block.renumbered, Outline.renumbered, hexamples]

theorem exampleOf_renumbered (own : Outline) (examples : Examples) {line : Nat} (hline : 0 < line)
    (featureLine : Nat) (header cells : List String) :
    exampleOf naming path (own.renumbered f) examples (f featureLine) header cells (f line) =
      (exampleOf naming path own examples featureLine header cells line).renumbered f := by
  simp only [exampleOf, new_renumbered path hline]
  rfl

theorem readRow_renumbered (hzero : f 0 = 0) (own : Outline) (examples : Examples)
    (row : List Char) {line : Nat} (hline : 0 < line) :
    (draft.renumbered f).readRow naming path (own.renumbered f) examples row (f line) =
      (draft.readRow naming path own examples row line).renumbered f := by
  unfold readRow
  cases (Row.split? row).map (·.map String.ofList) with
  | none => exact report_renumbered draft line .malformedRow
  | some cells =>
    cases examples.header with
    | none =>
      dsimp only
      split
      · simp [renumbered, report, Block.renumbered, Outline.renumbered, Issue.renumbered]
      · simp [renumbered, Block.renumbered, Outline.renumbered]
    | some header =>
      dsimp only
      split
      · exact report_renumbered draft line _
      · rw [featureLine_renumbered draft hzero, exampleOf_renumbered naming path own examples hline]
        simp [renumbered, addScenario, Block.renumbered, Outline.renumbered]

theorem addRow_renumbered (hzero : f 0 = 0) (row : List Char) {line : Nat} (hline : 0 < line) :
    (draft.renumbered f).addRow naming path row (f line) =
      (draft.addRow naming path row line).renumbered f := by
  have hblock : (draft.renumbered f).block = draft.block.renumbered f := rfl
  unfold addRow
  rw [hblock]
  cases draft.block with
  | none | background | scenario _ => rfl
  | outline own =>
    have hexamples : (own.renumbered f).examples = own.examples := rfl
    simp only [Block.renumbered, hexamples]
    cases own.examples with
    | none => rfl
    | some examples =>
      dsimp only
      split
      · rfl
      · exact readRow_renumbered naming path hzero own examples row hline

theorem feedOpen_renumbered (hzero : f 0 = 0) (h : draft.OutlineCounted) {line : Line}
    (hline : 0 < line.number) :
    (draft.renumbered f).feedOpen naming path (line.renumbered f) =
      (draft.feedOpen naming path line).renumbered f := by
  have hkind : (line.renumbered f).kind = line.kind := rfl
  have htrimmed : (line.renumbered f).trimmed = line.trimmed := rfl
  have hnumber : (line.renumbered f).number = f line.number := rfl
  have hended := endBlock_renumbered path hzero h
  unfold feedOpen
  rw [hkind, htrimmed, hnumber]
  cases line.kind with
  | blank | other | comment | tags _ | fence _ => rfl
  | feature name => exact startFeature_renumbered path hzero h name line.number
  | rule _ | background =>
    dsimp only
    rw [hended]
    rfl
  | scenario name =>
    apply startBlock_renumbered path hzero h
    intro featureLine tags
    simp only [scenarioBlock, new_renumbered path hline]
    rfl
  | outline name =>
    apply startBlock_renumbered path hzero h
    intro featureLine tags
    rfl
  | examples _ => exact startExamples_renumbered line.number
  | row => exact addRow_renumbered naming path hzero line.trimmed hline
  | step => exact addStep_renumbered draft.dropTags (String.ofList line.trimmed)

theorem feed_renumbered (hzero : f 0 = 0) (h : draft.OutlineCounted) {line : Line}
    (hline : 0 < line.number) :
    (draft.renumbered f).feed naming path (line.renumbered f) =
      (draft.feed naming path line).renumbered f := by
  have hdoc : (draft.renumbered f).docString =
      draft.docString.map fun (fence, line) => (fence, f line) := rfl
  have htrimmed : (line.renumbered f).trimmed = line.trimmed := rfl
  unfold feed
  rw [hdoc, htrimmed]
  cases draft.docString with
  | none => exact feedOpen_renumbered naming path hzero h hline
  | some opened =>
    dsimp only [Option.map_some]
    split <;> rfl

theorem foldl_feed_renumbered (hzero : f 0 = 0) (h : draft.OutlineCounted) {lines : List Line}
    (hlines : ∀ line ∈ lines, 0 < line.number) :
    (lines.map (Line.renumbered f)).foldl (feed naming path) (draft.renumbered f) =
        (lines.foldl (feed naming path) draft).renumbered f ∧
      (lines.foldl (feed naming path) draft).OutlineCounted := by
  induction lines generalizing draft with
  | nil => exact ⟨rfl, h⟩
  | cons line rest ih =>
    have hline := hlines line List.mem_cons_self
    rw [List.map_cons, List.foldl_cons, List.foldl_cons,
      feed_renumbered naming path hzero h hline]
    apply ih (h.feed naming path hline)
    intro other hother
    exact hlines other (List.mem_cons_of_mem line hother)

theorem finish_renumbered (hzero : f 0 = 0) (h : draft.OutlineCounted) :
    (draft.renumbered f).finish path = (draft.finish path).renumbered f := by
  have hdoc : ((draft.endBlock path).renumbered f).docString =
      (draft.endBlock path).docString.map fun (fence, line) => (fence, f line) := rfl
  unfold finish
  dsimp only
  rw [endBlock_renumbered path hzero h, hdoc]
  cases (draft.endBlock path).docString with
  | none => rfl
  | some opened => exact report_renumbered (draft.endBlock path) opened.2 .unterminatedDocString

theorem feature?_renumbered :
    (draft.renumbered f).feature? path = (draft.feature? path).map (Feature.renumbered f) := by
  unfold feature?
  cases hheader : draft.header with
  | none => simp [renumbered, hheader]
  | some header =>
    simp [renumbered, hheader, FeatureHeader.renumbered, Feature.renumbered]

end Steps

end Draft

theorem Feature.readLines_renumbered (naming : Naming) (path : String) {f : Nat → Nat}
    (hzero : f 0 = 0) {lines : List Line} (hlines : ∀ line ∈ lines, 0 < line.number) :
    readLines naming path (lines.map (Line.renumbered f)) =
      (readLines naming path lines).renumbered f := by
  have hempty : Draft.OutlineCounted {} := nofun
  obtain ⟨hfold, hcounted⟩ := Draft.foldl_feed_renumbered naming path hzero hempty hlines
  have hstart : (({} : Draft).renumbered f) = {} := rfl
  rw [hstart] at hfold
  simp only [readLines, hfold, Draft.finish_renumbered path hzero hcounted,
    Draft.feature?_renumbered]
  rfl

end ScenarioAtlas
