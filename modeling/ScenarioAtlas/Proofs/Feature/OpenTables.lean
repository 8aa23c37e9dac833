import ScenarioAtlas.Proofs.Feature.IssueOrder

/-!
# Open tables of examples

Only the counted lines of a file are read, so what is open below them is told from them alone. Below
the header of the feature, an outline is open down to the next block and has the table that was
opened last, and the table is what the first closed row among its lines makes of it.
-/

namespace ScenarioAtlas

set_option autoImplicit false

open Line

/-- The first closed row of a table, with the number of its line. -/
def Line.headRow? (table : List Line) : Option (Nat × List String) :=
  table.findSome? fun line => line.cells?.map (line.number, ·)

/-- A table of examples below the given lines of it: the first closed row is the header, or rejects
the table if one of its cells is empty. -/
def Examples.below (tags : List String) (table : List Line) : Examples :=
  match headRow? table with
  | none => { tags }
  | some (_, header) =>
    if "" ∈ header then { tags, rejected := true } else { tags, header := some header }

/-- Where a table of examples stands: an outline, with no other block below its header, and the last
line among those of the outline that opens a table. -/
structure Line.IsTable (lines above : List Line) (head : Line) (between : List Line) (opener : Line)
    (table : List Line) : Prop where
  split : lines = above ++ head :: (between ++ opener :: table)
  outline : ∃ name, head.kind = .outline name
  opens : opener.kind.isExamples = true
  inside : ∀ line ∈ between ++ table, line.kind.startsBlock = false
  last : ∀ line ∈ table, line.kind.isExamples = false

theorem Line.headRow?_concat (table : List Line) (line : Line) :
    headRow? (table ++ [line]) = (headRow? table).or (line.cells?.map (line.number, ·)) := by
  simp [headRow?]

theorem Examples.headRow?_eq_none_iff {tags : List String} {table : List Line} :
    headRow? table = none ↔ (below tags table).rejected = false ∧ (below tags table).header = none := by
  unfold below
  cases headRow? table with
  | none => simp
  | some first =>
    dsimp only
    split <;> simp

namespace Draft

variable (naming : Naming) (path : String)

section Counted

theorem endBlock_withDocString (draft : Draft) (docString : Option (Fence × Nat)) :
    { draft with docString }.endBlock path = { draft.endBlock path with docString } := by
  rw [endBlock_eq {} path _ [], endBlock_eq {} path draft []]
  rfl

theorem feedOpen_withDocString (draft : Draft) (line : Line) (docString : Option (Fence × Nat)) :
    ∃ later, { draft with docString }.feedOpen naming path line =
      { draft.feedOpen naming path line with docString := later } := by
  unfold feedOpen
  cases line.kind with
  | feature name =>
    simp only [startFeature, endBlock_withDocString]
    split <;> exact ⟨_, rfl⟩
  | rule _ | background =>
    simp only [endBlock_withDocString]
    exact ⟨_, rfl⟩
  | scenario name | outline name =>
    simp only [startBlock, endBlock_withDocString]
    split <;> exact ⟨_, rfl⟩
  | examples name =>
    simp only [startExamples]
    split <;> exact ⟨_, rfl⟩
  | row =>
    simp only [addRow, readRow]
    repeat' split
    all_goals exact ⟨_, rfl⟩
  | step =>
    simp only [dropTags, addStep]
    repeat' split
    all_goals exact ⟨_, rfl⟩
  | fence _ => exact ⟨_, rfl⟩
  | _ => exact ⟨docString, rfl⟩

theorem foldl_feedOpen_withDocString (draft : Draft) (docString : Option (Fence × Nat))
    (lines : List Line) :
    ∃ later, lines.foldl (feedOpen naming path) { draft with docString } =
      { lines.foldl (feedOpen naming path) draft with docString := later } := by
  induction lines generalizing draft docString with
  | nil => exact ⟨docString, rfl⟩
  | cons line rest ih =>
    obtain ⟨later, heq⟩ := feedOpen_withDocString naming path draft line docString
    rw [List.foldl_cons, List.foldl_cons, heq]
    exact ih (draft.feedOpen naming path line) later

/-- Only the counted lines are read. -/
theorem foldl_feed_eq (draft : Draft) (lines : List Line) :
    ∃ docString, lines.foldl (feed naming path) draft =
      { (draft.counting lines).foldl (feedOpen naming path) draft with docString } := by
  induction lines generalizing draft with
  | nil => exact ⟨draft.docString, rfl⟩
  | cons line rest ih =>
    rw [List.foldl_cons]
    obtain ⟨docString, hrest⟩ := ih (draft.feed naming path line)
    rcases feed_cases naming path draft line rest with ⟨passed, hfeed, hcount⟩ | ⟨hfeed, hcount⟩
    · obtain ⟨later, heq⟩ := foldl_feedOpen_withDocString naming path draft passed
        ({ draft with docString := passed }.counting rest)
      rw [hrest, hfeed, hcount, heq]
      exact ⟨_, rfl⟩
    · rw [hrest, hfeed, hcount, List.foldl_cons]
      exact ⟨_, rfl⟩

end Counted

section Places

variable {draft : Draft} {line : Line}

theorem feedOpen_keeps_issues (draft : Draft) (line : Line) :
    draft.issues <+: (draft.feedOpen naming path line).issues := by
  obtain ⟨later, heq⟩ := feedOpen_withDocString naming path draft line none
  have hextends : Extends [line.number] { draft with docString := none }
      (feedOpen naming path { draft with docString := none } line) :=
    feedOpen_extends naming path rfl line
  rw [heq] at hextends
  exact hextends.issues

theorem foldl_feedOpen_keeps_issues (draft : Draft) (lines : List Line) :
    draft.issues <+: (lines.foldl (feedOpen naming path) draft).issues := by
  induction lines generalizing draft with
  | nil => exact List.prefix_rfl
  | cons line rest ih => exact (feedOpen_keeps_issues naming path draft line).trans (ih _)

theorem feedOpen_header_isSome (h : draft.header.isSome ∨ line.kind.isFeature = true) :
    (draft.feedOpen naming path line).header.isSome := by
  rcases hheader : draft.header with _ | header
  · cases hkind : line.kind with
    | feature name => simp [feedOpen, hkind, startFeature, hheader]
    | _ => simp [hheader, hkind, LineKind.isFeature] at h
  · rw [feedOpen_header naming path hheader line]
    rfl

theorem foldl_feedOpen_header_isSome {lines : List Line}
    (h : draft.header.isSome ∨ ∃ line ∈ lines, line.kind.isFeature = true) :
    (lines.foldl (feedOpen naming path) draft).header.isSome := by
  induction lines generalizing draft with
  | nil => simpa using h
  | cons line rest ih =>
    apply ih
    rcases h with h | ⟨found, hmem, hfound⟩
    · exact Or.inl (feedOpen_header_isSome naming path (Or.inl h))
    · rcases List.mem_cons.mp hmem with rfl | hmem
      · exact Or.inl (feedOpen_header_isSome naming path (Or.inr hfound))
      · exact Or.inr ⟨found, hmem, hfound⟩

theorem feedOpen_block_none (hinside : line.kind.startsBlock = false) (h : draft.block = .none) :
    (draft.feedOpen naming path line).block = .none := by
  unfold feedOpen
  cases hkind : line.kind with
  | rule _ | background | scenario _ | outline _ => simp [hkind, LineKind.startsBlock] at hinside
  | feature name =>
    simp only [startFeature]
    split
    · exact h
    · exact endBlock_block path draft
  | examples name => simp [startExamples, h, report, dropTags]
  | row => simp [addRow, h]
  | step => simp [addStep, h, dropTags]
  | _ => exact h

/-- An outline below the header of the feature stays open over the lines of its block. -/
theorem feedOpen_block_outline (hinside : line.kind.startsBlock = false)
    (hheader : draft.header.isSome) {own : Outline} (h : draft.block = .outline own) :
    ∃ later, (draft.feedOpen naming path line).block = .outline later := by
  unfold feedOpen
  cases hkind : line.kind with
  | rule _ | background | scenario _ | outline _ => simp [hkind, LineKind.startsBlock] at hinside
  | feature name => exact ⟨own, by simp [startFeature, hheader, report, dropTags, h]⟩
  | examples name => simp [startExamples, h]
  | row =>
    simp only [addRow, readRow, h]
    repeat' split
    all_goals first | exact ⟨_, rfl⟩ | exact ⟨own, h⟩
  | step =>
    simp only [addStep, dropTags, h]
    split <;> exact ⟨_, rfl⟩
  | _ => exact ⟨own, h⟩

/-- What a draft is below the given lines of a table. A header that was refused is an issue. -/
structure InTable (table : List Line) (draft : Draft) : Prop where
  header : draft.header.isSome
  block : ∃ own tags, draft.block = .outline own ∧ own.examples = some (Examples.below tags table)
  reported : ∀ first cells, headRow? table = some (first, cells) → "" ∈ cells →
    ⟨first, .emptyHeaderCell⟩ ∈ draft.issues

theorem feedOpen_inTable (hopens : line.kind.isExamples = true) (hheader : draft.header.isSome)
    {own : Outline} (h : draft.block = .outline own) :
    InTable [] (draft.feedOpen naming path line) := by
  refine ⟨feedOpen_header_isSome naming path (Or.inl hheader), ?_, ?_⟩
  · cases hkind : line.kind with
    | examples name =>
      refine ⟨{ own with examples := some { tags := draft.pendingTags } }, draft.pendingTags, ?_, rfl⟩
      simp [feedOpen, hkind, startExamples, h]
    | _ => simp [hkind, LineKind.isExamples] at hopens
  · intro first cells hrow
    cases hrow

theorem issue_mem_feedOpen (hopens : line.kind.isExamples = true) (h : draft.block = .none) :
    ⟨line.number, .examplesWithoutOutline⟩ ∈ (draft.feedOpen naming path line).issues := by
  cases hkind : line.kind with
  | examples name => simp [feedOpen, hkind, startExamples, h, report, dropTags]
  | _ => simp [hkind, LineKind.isExamples] at hopens

/-- A line that is no closed row, or not the first of its table, leaves the table as it is. -/
theorem InTable.concat {table : List Line} {own later : Outline} {next : Draft}
    (h : InTable table draft) (hrow : line.cells? = none ∨ (headRow? table).isSome)
    (hblock : draft.block = .outline own) (hlater : next.block = .outline later)
    (hkept : later.examples = own.examples) (hheader : next.header = draft.header)
    (hissues : draft.issues <+: next.issues) : InTable (table ++ [line]) next := by
  have hsame : headRow? (table ++ [line]) = headRow? table := by
    rw [headRow?_concat]
    rcases hrow with hrow | hrow
    · simp [hrow]
    · exact Option.or_of_isSome hrow
  obtain ⟨open', tags, hopen, hexamples⟩ := h.block
  obtain rfl : own = open' := by simpa [hblock] using hopen
  refine ⟨hheader ▸ h.header, ⟨later, tags, hlater, ?_⟩, ?_⟩
  · rw [hkept, hexamples, Examples.below, Examples.below, hsame]
  · intro first cells hfirst hnameless
    rw [hsame] at hfirst
    exact hissues.subset (h.reported first cells hfirst hnameless)

theorem RowStep.inTable {table : List Line} {own : Outline} {tags : List String} {row : Line}
    {next : Draft} (h : InTable table draft) (hblock : draft.block = .outline own)
    (hstep : RowStep naming path draft own (Examples.below tags table) row next) :
    InTable (table ++ [row]) next := by
  have hsome (hread : ¬ ((Examples.below tags table).rejected = false ∧
      (Examples.below tags table).header = none)) : (headRow? table).isSome := by
    rw [← Examples.headRow?_eq_none_iff] at hread
    exact Option.isSome_iff_ne_none.mpr hread
  have hfirst {cells : List String} (hcells : row.cells? = some cells)
      (hnone : headRow? table = none) : headRow? (table ++ [row]) = some (row.number, cells) := by
    rw [headRow?_concat, hnone, hcells]
    rfl
  cases hstep with
  | ignored hrejected =>
    exact h.concat (Or.inr (hsome (by simp [hrejected]))) hblock hblock rfl rfl List.prefix_rfl
  | malformed _ hcells =>
    exact h.concat (Or.inl hcells) hblock hblock rfl rfl (List.prefix_append _ _)
  | mismatch _ _ hheader =>
    exact h.concat (Or.inr (hsome (by simp [hheader]))) hblock hblock rfl rfl
      (List.prefix_append _ _)
  | used _ _ hheader =>
    exact h.concat (Or.inr (hsome (by simp [hheader]))) hblock rfl rfl rfl List.prefix_rfl
  | nameless hopen hcells hheader hnameless =>
    have hnone := Examples.headRow?_eq_none_iff.mpr ⟨hopen, hheader⟩
    have hbelow := hfirst hcells hnone
    refine ⟨h.header, ⟨_, tags, rfl, ?_⟩, ?_⟩
    · simp [Examples.below, hnone, hbelow, hnameless]
    · intro first cells hrow _
      rw [hbelow] at hrow
      cases hrow
      exact List.mem_append_right _ List.mem_cons_self
  | header hopen hcells hheader hnamed =>
    have hnone := Examples.headRow?_eq_none_iff.mpr ⟨hopen, hheader⟩
    have hbelow := hfirst hcells hnone
    refine ⟨h.header, ⟨_, tags, rfl, ?_⟩, ?_⟩
    · simp [Examples.below, hnone, hbelow, hnamed]
    · intro first cells hrow hnameless
      rw [hbelow] at hrow
      cases hrow
      exact absurd hnameless hnamed

theorem InTable.feedOpen {table : List Line} (h : InTable table draft)
    (hinside : line.kind.startsBlock = false) (hlast : line.kind.isExamples = false) :
    InTable (table ++ [line]) (draft.feedOpen naming path line) := by
  obtain ⟨own, tags, hblock, hexamples⟩ := h.block
  by_cases hrow : line.kind = .row
  · have hstep := addRow_step naming path hrow hblock hexamples
    simp only [Draft.feedOpen, hrow]
    exact hstep.inTable naming path h hblock
  · obtain ⟨header, hheader⟩ := Option.isSome_iff_exists.mp h.header
    have hkept : (draft.feedOpen naming path line).block = .outline own := by
      unfold Draft.feedOpen
      cases hkind : line.kind with
      | rule _ | background | scenario _ | outline _ => simp [hkind, LineKind.startsBlock] at hinside
      | examples name => simp [hkind, LineKind.isExamples] at hlast
      | row => exact absurd hkind hrow
      | feature name => simp [startFeature, hheader, report, dropTags, hblock]
      | step => simp [addStep, dropTags, hblock, hexamples]
      | _ => exact hblock
    exact h.concat (Or.inl (cells?_eq_none hrow)) hblock hkept rfl
      (by rw [feedOpen_header naming path hheader, hheader])
      (feedOpen_keeps_issues naming path draft line)

theorem feedOpen_outline {name : String} (hkind : line.kind = .outline name) :
    (draft.header.isSome → ∃ own, (draft.feedOpen naming path line).block = .outline own) ∧
      (draft.header = none → (draft.feedOpen naming path line).block = .none) := by
  simp only [Draft.feedOpen, hkind]
  constructor
  · intro h
    obtain ⟨header, hheader⟩ := Option.isSome_iff_exists.mp h
    exact ⟨_, by rw [startBlock_eq path hheader]; rfl⟩
  · intro h
    simp [startBlock, h, report, dropTags]

end Places

section Runs

variable {draft : Draft} {lines above between table : List Line} {head opener : Line}

theorem InTable.foldl_feedOpen (h : InTable above draft)
    (hinside : ∀ line ∈ lines, line.kind.startsBlock = false)
    (hlast : ∀ line ∈ lines, line.kind.isExamples = false) :
    InTable (above ++ lines) (lines.foldl (Draft.feedOpen naming path) draft) := by
  induction lines generalizing above draft with
  | nil => rwa [List.append_nil]
  | cons line rest ih =>
    obtain ⟨hline, hrest⟩ := List.forall_mem_cons.mp hinside
    obtain ⟨hline', hrest'⟩ := List.forall_mem_cons.mp hlast
    have htail := ih (h.feedOpen naming path hline hline') hrest hrest'
    rwa [List.append_assoc] at htail

theorem foldl_feedOpen_block_outline (hinside : ∀ line ∈ lines, line.kind.startsBlock = false)
    (hheader : draft.header.isSome) (h : ∃ own, draft.block = .outline own) :
    let later := lines.foldl (Draft.feedOpen naming path) draft
    later.header.isSome ∧ ∃ own, later.block = .outline own := by
  induction lines generalizing draft with
  | nil => exact ⟨hheader, h⟩
  | cons line rest ih =>
    obtain ⟨hline, hrest⟩ := List.forall_mem_cons.mp hinside
    obtain ⟨own, hown⟩ := h
    exact ih hrest (feedOpen_header_isSome naming path (Or.inl hheader))
      (feedOpen_block_outline naming path hline hheader hown)

/-- Below the header of the feature every table of an outline is read. -/
theorem foldl_feedOpen_inTable (h : IsTable lines above head between opener table)
    (hfeature : ∃ line ∈ above, line.kind.isFeature = true) :
    InTable table (lines.foldl (Draft.feedOpen naming path) draft) := by
  obtain ⟨hsplit, ⟨name, hkind⟩, hopens, hinside, hlast⟩ := h
  obtain ⟨hbetween, htable⟩ := List.forall_mem_append.mp hinside
  have habove : (above.foldl (Draft.feedOpen naming path) draft).header.isSome :=
    foldl_feedOpen_header_isSome naming path (Or.inr hfeature)
  obtain ⟨hheader, own, hown⟩ := foldl_feedOpen_block_outline naming path hbetween
    (feedOpen_header_isSome naming path (Or.inl habove))
    ((feedOpen_outline naming path hkind).1 habove)
  have hstart := feedOpen_inTable naming path hopens hheader hown
  rw [hsplit]
  simpa using hstart.foldl_feedOpen naming path htable hlast

/-- Above the header of the feature no outline is opened, so the line that opens a table there is an
issue. -/
theorem foldl_feedOpen_unopened (h : IsTable lines above head between opener table)
    (hfeature : ∀ line ∈ above, line.kind.isFeature = false) :
    ⟨opener.number, .examplesWithoutOutline⟩ ∈
      (lines.foldl (Draft.feedOpen naming path) {}).issues := by
  obtain ⟨hsplit, ⟨name, hkind⟩, hopens, hinside, -⟩ := h
  obtain ⟨hbetween, -⟩ := List.forall_mem_append.mp hinside
  have habove : (above.foldl (Draft.feedOpen naming path) {}).Headless :=
    List.foldlRecOn above _ ⟨rfl, rfl, Or.inl rfl⟩ fun _ hdraft line hline =>
      hdraft.feedOpen naming path (hfeature line hline)
  have hunopened := (feedOpen_outline naming path hkind).2 habove.header
  have hnone := List.foldlRecOn (motive := fun draft : Draft => draft.block = .none) between
    (Draft.feedOpen naming path) hunopened fun _ hdraft line hline =>
      feedOpen_block_none naming path (hbetween line hline) hdraft
  rw [hsplit, List.foldl_append, List.foldl_cons, List.foldl_append, List.foldl_cons]
  exact (foldl_feedOpen_keeps_issues naming path _ table).subset
    (issue_mem_feedOpen naming path hopens hnone)

end Runs

end Draft

end ScenarioAtlas
