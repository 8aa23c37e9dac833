import ScenarioAtlas.Feature.Draft
import ScenarioAtlas.Proofs.Source.Unfenced

/-!
# What the lines of a feature file stand for

The scenarios of a feature file told from its counted lines, each header with the lines of its own
block, and not by reading line after line. A scenario stands for its header; an outline stands for
the usable rows of its tables, or for its header if there is none. The scenarios come in the order
of their lines, and a line gives at most one.
-/

namespace ScenarioAtlas

set_option autoImplicit false

open Line

/-- A row of examples that yields a scenario. -/
structure UsableRow where
  line : Nat
  /-- The names of the columns of its table. -/
  header : List String
  cells : List String
  tags : List String
  deriving DecidableEq, Repr

namespace Layout

/-- The closed rows among the given lines, each with the number of its line. -/
def closedRows (lines : List Line) : List (Nat × List String) :=
  lines.filterMap fun line => line.cells?.map (line.number, ·)

/-- The usable ones of the closed rows that follow the header of their table. -/
def rowsUnder (tags header : List String) (rows : List (Nat × List String)) : List UsableRow :=
  (rows.filter (·.2.length = header.length)).map fun (line, cells) => { line, header, cells, tags }

/-- The usable rows of a table, given the lines below the one that opens it. The first closed row is
the header, and nothing below a header with a nameless column is usable. -/
def tableRows (tags : List String) (lines : List Line) : List UsableRow :=
  match closedRows lines with
  | [] => []
  | (_, header) :: rows => if "" ∈ header then [] else rowsUnder tags header rows

/-- The usable rows of the table that a line opens, given the lines above it and those below. -/
def rowsOf (above : List Line) (line : Line) (below : List Line) : List UsableRow :=
  if line.kind.isExamples then tableRows (tagsAbove above) (upToTable below) else []

/-- The usable rows of all tables in the block of an outline. -/
def usableRows (block : List Line) : List UsableRow := collect rowsOf [] block

def outlineSteps (block : List Line) : List String := stepTexts (upToTable block)

variable (naming : Naming) (path : String) (featureLine : Nat)

def ofScenario (name : String) (line : Nat) (tags : List String) (block : List Line) : Scenario where
  name := name
  editorLine := line - 1
  line := line
  featureLine := some featureLine
  steps := stepTexts block
  tags := tags
  path := path

/-- The example in a usable row of an outline, the one with the given index. -/
def ofRow (name : String) (line : Nat) (tags steps : List String) (index : Nat) (row : UsableRow) :
    Scenario where
  name := naming.exampleName index name row.header row.cells
  editorLine := row.line - 1
  line := row.line
  outlineLine := some line
  outlineName := some name
  featureLine := some featureLine
  steps := steps.map fun step => Placeholder.substitute step row.header row.cells
  tags := tags ++ row.tags
  path := path

def ofRowless (name : String) (line : Nat) (tags steps : List String) : Scenario where
  name := name
  editorLine := line - 1
  line := line
  outlineLine := some line
  outlineName := some name
  featureLine := some featureLine
  steps := steps
  tags := tags
  path := path
  standsForOutline := true

def ofOutline (name : String) (line : Nat) (tags : List String) (block : List Line) :
    List Scenario :=
  let steps := outlineSteps block
  match usableRows block with
  | [] => [ofRowless path featureLine name line tags steps]
  | rows => rows.mapIdx fun k row => ofRow naming path featureLine name line tags steps (k + 1) row

/-- The scenarios that a line stands for, given the lines above it and those below. -/
def ofHeader (above : List Line) (header : Line) (below : List Line) : List Scenario :=
  let tags := tagsAbove above
  match header.kind with
  | .scenario name => [ofScenario path featureLine name header.number tags (body below)]
  | .outline name => ofOutline naming path featureLine name header.number tags (body below)
  | _ => []

def scenariosOf (above below : List Line) : List Scenario :=
  collect (ofHeader naming path featureLine) above below

/-- The feature whose header stands on a line, given the lines above it and those below. -/
def featureOf (name : String) (above : List Line) (header : Line) (below : List Line) : Feature where
  name := name
  scenarios := scenariosOf naming path header.number (above ++ [header]) below
  path := path
  line := some header.number
  tags := tagsAbove above

/-- Where the header of a feature stands among its counted lines: the first line that can be one. -/
structure IsHeader (name : String) (lines above : List Line) (header : Line) (below : List Line) :
    Prop where
  split : lines = above ++ header :: below
  kind : header.kind = .feature name
  first : ∀ line ∈ above, line.kind.isFeature = false

section Rows

theorem closedRows_cons (line : Line) (lines : List Line) :
    closedRows (line :: lines) = (line.cells?.map (line.number, ·)).toList ++ closedRows lines := by
  unfold closedRows
  cases h : line.cells? <;> simp [h]

theorem collect_rowsOf_cons {line : Line} (h : line.kind.isExamples = false)
    (above below : List Line) :
    collect rowsOf above (line :: below) = collect rowsOf (above ++ [line]) below := by
  simp [collect, rowsOf, h]

variable {tags : List String} {lines : List Line} {row : UsableRow}

theorem mem_rowsUnder_iff {header : List String} {rows : List (Nat × List String)} :
    row ∈ rowsUnder tags header rows ↔
      (row.line, row.cells) ∈ rows ∧ row.cells.length = header.length ∧
        row.header = header ∧ row.tags = tags := by
  simp only [rowsUnder, List.mem_map, List.mem_filter, decide_eq_true_eq]
  constructor
  · rintro ⟨⟨line, cells⟩, ⟨hmem, hcount⟩, rfl⟩
    exact ⟨hmem, hcount, rfl, rfl⟩
  · rintro ⟨hmem, hcount, rfl, rfl⟩
    exact ⟨(row.line, row.cells), ⟨hmem, hcount⟩, rfl⟩

theorem mem_closedRows_iff {number : Nat} {cells : List String} :
    (number, cells) ∈ closedRows lines ↔
      ∃ line ∈ lines, line.number = number ∧ line.cells? = some cells := by
  simp only [closedRows, List.mem_filterMap, Option.map_eq_some_iff, Prod.mk.injEq]
  constructor
  · rintro ⟨line, hline, own, hown, rfl, rfl⟩
    exact ⟨line, hline, rfl, hown⟩
  · rintro ⟨line, hline, rfl, hown⟩
    exact ⟨line, hline, cells, hown, rfl, rfl⟩

/-- A usable row is a closed row below the first one of its table, which names every column and has
as many cells. -/
theorem mem_tableRows_iff :
    row ∈ tableRows tags lines ↔
      ∃ before header after, lines = before ++ header :: after ∧
        (∀ line ∈ before, line.cells? = none) ∧ header.cells? = some row.header ∧
        "" ∉ row.header ∧ row.cells.length = row.header.length ∧ row.tags = tags ∧
        ∃ line ∈ after, line.number = row.line ∧ line.cells? = some row.cells := by
  unfold tableRows
  constructor
  · intro h
    split at h
    case h_1 => simp at h
    case h_2 number header rows heq =>
      split at h
      case isTrue => simp at h
      case isFalse hnamed =>
        obtain ⟨hrow, hcount, rfl, htags⟩ := mem_rowsUnder_iff.mp h
        obtain ⟨before, first, after, hsplit, hbefore, hfirst, rfl⟩ :=
          List.filterMap_eq_cons_iff.mp heq
        refine ⟨before, first, after, hsplit, ?_, ?_, hnamed, hcount, htags,
          mem_closedRows_iff.mp hrow⟩
        · simpa using hbefore
        · obtain ⟨cells, hcells, heq⟩ := Option.map_eq_some_iff.mp hfirst
          cases heq
          exact hcells
  · rintro ⟨before, header, after, rfl, hbefore, hheader, hnamed, hcount, htags, hrow⟩
    have hclosed : closedRows (before ++ header :: after) =
        (header.number, row.header) :: closedRows after := by
      have hnone : closedRows before = [] :=
        List.filterMap_eq_nil_iff.mpr fun line hline => by simp [hbefore line hline]
      unfold closedRows at hnone ⊢
      rw [List.filterMap_append, hnone, List.filterMap_cons]
      simp [hheader]
    simp only [hclosed, if_neg hnamed]
    exact mem_rowsUnder_iff.mpr ⟨mem_closedRows_iff.mpr hrow, hcount, rfl, htags⟩

theorem mem_usableRows_iff {block : List Line} :
    row ∈ usableRows block ↔
      ∃ before opener after, block = before ++ opener :: after ∧ opener.kind.isExamples = true ∧
        row ∈ tableRows (tagsAbove before) (upToTable after) := by
  simp only [usableRows, mem_collect_iff, rowsOf, List.nil_append]
  constructor
  · rintro ⟨before, opener, after, hsplit, hrow⟩
    split at hrow
    case isTrue hopens => exact ⟨before, opener, after, hsplit, hopens, hrow⟩
    case isFalse => cases hrow
  · rintro ⟨before, opener, after, hsplit, hopens, hrow⟩
    exact ⟨before, opener, after, hsplit, by rwa [if_pos hopens]⟩

theorem tableRows_lines_sublist (tags : List String) (lines : List Line) :
    ((tableRows tags lines).map UsableRow.line).Sublist ((closedRows lines).map Prod.fst) := by
  unfold tableRows
  split
  case h_1 => exact List.nil_sublist _
  case h_2 number header rows heq =>
    split
    · exact List.nil_sublist _
    · have hunder : (rowsUnder tags header rows).map UsableRow.line =
          (rows.filter (·.2.length = header.length)).map Prod.fst := by
        simp [rowsUnder]
      rw [hunder, heq]
      exact (List.filter_sublist.map Prod.fst).cons number

/-- Rows of a table that was opened above come first, and each line gives one row at most. -/
theorem collect_rowsOf_lines_sublist (above lines : List Line) :
    ((closedRows (upToTable lines)).map Prod.fst ++
      (collect rowsOf above lines).map UsableRow.line).Sublist (lines.map Line.number) := by
  induction lines generalizing above with
  | nil => exact .slnil
  | cons line rest ih =>
    cases hkind : line.kind.isExamples with
    | true =>
      have hrows := tableRows_lines_sublist (tagsAbove above) (upToTable rest)
      have hrest := ((hrows.append_right _).trans (ih (above ++ [line]))).cons line.number
      simpa [upToTable, closedRows, collect, rowsOf, hkind] using hrest
    | false =>
      rw [upToTable_cons hkind rest, closedRows_cons, collect_rowsOf_cons hkind above rest]
      cases line.cells? with
      | none => simpa using (ih (above ++ [line])).cons line.number
      | some cells => simpa using (ih (above ++ [line])).cons_cons line.number

theorem usableRows_lines_sublist (block : List Line) :
    ((usableRows block).map UsableRow.line).Sublist (block.map Line.number) :=
  (List.sublist_append_right _ _).trans (collect_rowsOf_lines_sublist [] block)

end Rows

section Scenarios

variable {naming : Naming} {path : String} {featureLine : Nat}
variable {above below : List Line} {header : Line} {scenario : Scenario}

theorem ofOutline_of_rowless {block : List Line} (h : usableRows block = []) (name : String)
    (line : Nat) (tags : List String) :
    ofOutline naming path featureLine name line tags block =
      [ofRowless path featureLine name line tags (outlineSteps block)] := by
  simp [ofOutline, h]

theorem ofOutline_of_rows {block : List Line} (h : usableRows block ≠ []) (name : String)
    (line : Nat) (tags : List String) :
    ofOutline naming path featureLine name line tags block =
      (usableRows block).mapIdx fun k row =>
        ofRow naming path featureLine name line tags (outlineSteps block) (k + 1) row := by
  unfold ofOutline
  cases hrows : usableRows block with
  | nil => exact absurd hrows h
  | cons row rows => rfl

theorem map_line_ofRow (name : String) (line : Nat) (tags steps : List String)
    (rows : List UsableRow) :
    (rows.mapIdx fun k row =>
      ofRow naming path featureLine name line tags steps (k + 1) row).map Scenario.line =
      rows.map UsableRow.line := by
  apply List.ext_getElem
  · simp
  · intro k _ _
    simp [ofRow]

theorem ofHeader_eq_nil (h : header.kind.startsBlock = false) :
    ofHeader naming path featureLine above header below = [] := by
  unfold ofHeader
  cases hkind : header.kind <;> simp_all [LineKind.startsBlock]

theorem ofHeader_ne_nil {name : String} (hkind : header.kind = .outline name) :
    ofHeader naming path featureLine above header below ≠ [] := by
  by_cases hrows : usableRows (body below) = []
  · simp [ofHeader, hkind, ofOutline_of_rowless hrows]
  · simp [ofHeader, hkind, ofOutline_of_rows hrows, hrows]

/-- What holds of the scenario of a header, of every example and of every stand-in holds of all that
a line stands for. -/
theorem ofHeader_induction {motive : Scenario → Prop}
    (hscenario : ∀ name tags block, header.kind = .scenario name →
      motive (ofScenario path featureLine name header.number tags block))
    (hrow : ∀ name tags steps index row, header.kind = .outline name →
      motive (ofRow naming path featureLine name header.number tags steps index row))
    (hrowless : ∀ name tags steps, header.kind = .outline name →
      motive (ofRowless path featureLine name header.number tags steps))
    (h : scenario ∈ ofHeader naming path featureLine above header below) : motive scenario := by
  unfold ofHeader at h
  cases hkind : header.kind with
  | scenario name =>
    rw [hkind] at h
    rw [List.mem_singleton.mp h]
    exact hscenario _ _ _ hkind
  | outline name =>
    rw [hkind] at h
    dsimp only at h
    by_cases hrows : usableRows (body below) = []
    · rw [ofOutline_of_rowless hrows] at h
      rw [List.mem_singleton.mp h]
      exact hrowless _ _ _ hkind
    · rw [ofOutline_of_rows hrows] at h
      obtain ⟨k, _, rfl⟩ := List.mem_mapIdx.mp h
      exact hrow _ _ _ _ _ hkind
  | _ => simp [hkind] at h

theorem mem_scenariosOf_iff :
    scenario ∈ scenariosOf naming path featureLine above below ↔
      ∃ before header after, below = before ++ header :: after ∧
        scenario ∈ ofHeader naming path featureLine (above ++ before) header after :=
  mem_collect_iff

theorem ofHeader_lines_sublist (above : List Line) (header : Line) (below : List Line) :
    ((ofHeader naming path featureLine above header below).map Scenario.line).Sublist
      (header.number :: (body below).map Line.number) := by
  unfold ofHeader
  cases header.kind with
  | scenario name => exact (List.nil_sublist _).cons_cons _
  | outline name =>
    dsimp only
    by_cases hrows : usableRows (body below) = []
    · rw [ofOutline_of_rowless hrows]
      exact (List.nil_sublist _).cons_cons _
    · rw [ofOutline_of_rows hrows, map_line_ofRow]
      exact (usableRows_lines_sublist (body below)).cons _
  | _ => exact List.nil_sublist _

theorem scenariosOf_lines_sublist :
    ((scenariosOf naming path featureLine above below).map Scenario.line).Sublist
      (below.map Line.number) :=
  collect_lines_sublist Scenario.line (fun _ _ _ => ofHeader_eq_nil) ofHeader_lines_sublist above
    (List.nil_sublist _)

end Scenarios

end Layout

end ScenarioAtlas
