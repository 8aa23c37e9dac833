import ScenarioAtlas.Proofs.Feature.Reading

/-!
# Tags and the lines between them

The tags of a header are those on the lines straight above it. A comment between them does no harm,
and almost every other line parts the tags above it from those below. A table row and a doc string do
not: tags pass them and go to the next header, together with those of the run of tag lines that
stands straight above it.
-/

namespace ScenarioAtlas

set_option autoImplicit false

open Line

/-- Whether a line of this kind can stand in a run of tag lines. -/
def LineKind.continuesRun : LineKind → Bool
  | comment | tags _ => true
  | _ => false

namespace Line

/-- The tags of the run of tag lines and comments straight above a place, given all counted lines
above it. The line that opens a doc string is counted and ends the run, so a run has no doc string
inside. -/
def runTags (above : List Line) : List String :=
  (above.reverse.takeWhile (·.kind.continuesRun)).reverse.flatMap (·.kind.ownTags)

def aboveRun (above : List Line) : List Line :=
  (above.reverse.dropWhile (·.kind.continuesRun)).reverse

/-- The tags straight above a place are those that got past the run and those of the run. -/
theorem tagsAbove_eq_append_runTags (above : List Line) :
    tagsAbove above = tagsAbove (aboveRun above) ++ runTags above := by
  induction above using List.reverseRecOn with
  | nil => rfl
  | append_singleton above last ih =>
    cases hruns : last.kind.continuesRun with
    | true =>
      have hparts : last.kind.partsTags = false := by
        cases hkind : last.kind <;> simp_all [LineKind.continuesRun, LineKind.partsTags]
      have htags : runTags (above ++ [last]) = runTags above ++ last.kind.ownTags := by
        simp [runTags, hruns]
      have habove : aboveRun (above ++ [last]) = aboveRun above := by simp [aboveRun, hruns]
      rw [tagsAbove_concat, hparts, htags, habove, ih, List.append_assoc]
      rfl
    | false =>
      have htags : runTags (above ++ [last]) = [] := by simp [runTags, hruns]
      have habove : aboveRun (above ++ [last]) = above ++ [last] := by simp [aboveRun, hruns]
      rw [htags, habove, List.append_nil]

/-- Nothing gets past a run unless a table row or a doc string ends it. -/
theorem tagsAbove_aboveRun_eq_nil {above : List Line}
    (h : ∀ last, (aboveRun above).getLast? = some last →
      last.kind ≠ .row ∧ last.kind.opening? = none) :
    tagsAbove (aboveRun above) = [] := by
  cases hlast : (aboveRun above).getLast? with
  | none => rw [List.getLast?_eq_none_iff.mp hlast, tagsAbove_nil]
  | some last =>
    obtain ⟨hrow, hfence⟩ := h last hlast
    obtain ⟨init, hinit⟩ := List.getLast?_eq_some_iff.mp hlast
    have hends := List.head?_dropWhile_not (·.kind.continuesRun) above.reverse
    rw [aboveRun, List.getLast?_reverse] at hlast
    rw [hlast] at hends
    have hparts : last.kind.partsTags = true := by
      cases hkind : last.kind <;>
        simp_all [LineKind.continuesRun, LineKind.partsTags, LineKind.opening?]
    rw [hinit, tagsAbove_concat, if_pos hparts]

end Line

/-- The tags of the header that opened a block, or its current table. -/
def Block.headerTags? : Block → Option (List String)
  | .scenario own => some own.tags
  | .outline own => some ((own.examples.map Examples.tags).getD own.tags)
  | .none | .background => Option.none

namespace Draft

variable (naming : Naming) (path : String)

/-- Whether a line of this kind is a header that takes tags: the first one of the feature, below it
those of scenarios and outlines, and those of an outline's tables. -/
def TakesTags (draft : Draft) : LineKind → Prop
  | .feature _ => draft.header = none
  | .scenario _ | .outline _ => draft.header ≠ none
  | .examples _ => ∃ outline, draft.block = .outline outline
  | _ => False

/-- The tags of the header on a line, once the line is read. -/
def taken? (draft : Draft) (line : Line) : Option (List String) :=
  if line.kind.isFeature then (draft.feed naming path line).header.map FeatureHeader.tags
  else (draft.feed naming path line).block.headerTags?

variable {draft : Draft} {line : Line}

theorem taken?_eq_pendingTags (h : draft.TakesTags line.kind) (hopen : draft.docString = none) :
    draft.taken? naming path line = some draft.pendingTags := by
  have hfeed : draft.feed naming path line = draft.feedOpen naming path line := by rw [feed, hopen]
  rw [taken?, hfeed]
  unfold feedOpen
  cases hkind : line.kind with
  | feature name =>
    rw [hkind] at h
    have hheader : draft.header = none := h
    simp [LineKind.isFeature, startFeature, hheader]
  | scenario name | outline name =>
    rw [hkind] at h
    obtain ⟨header, hheader⟩ := Option.ne_none_iff_exists'.mp h
    dsimp only [LineKind.isFeature]
    rw [startBlock_eq path hheader]
    rfl
  | examples name =>
    rw [hkind] at h
    obtain ⟨own, hblock⟩ := h
    simp [LineKind.isFeature, startExamples, hblock, Block.headerTags?]
  | _ =>
    rw [hkind] at h
    exact h.elim

/-- What is pending are the tags straight above the next line. -/
theorem foldl_feed_pendingTags {above : List Line} (h : draft.pendingTags = tagsAbove above)
    (lines : List Line) :
    (lines.foldl (feed naming path) draft).pendingTags =
      tagsAbove (above ++ draft.counting lines) := by
  induction lines generalizing draft above with
  | nil => simpa [counting, unfenced] using h
  | cons line rest ih =>
    rw [List.foldl_cons]
    rcases feed_cases naming path draft line rest with ⟨docString, hfeed, hcount⟩ | ⟨hfeed, hcount⟩
    · rw [hfeed, hcount]
      exact ih h
    · rw [hfeed, hcount, ih (pendingTags_feedOpen_eq naming path above h)]
      simp

/-- A header takes the tags of the run straight above it, and in front of them those that got past
the line that ends the run. So it takes those of the run alone exactly if nothing got past, and
nothing does unless the run ends at a table row or a doc string. -/
theorem taken?_eq_runTags_iff (lines : List Line) (line : Line)
    (hopen : (lines.foldl (feed naming path) {}).docString = none)
    (htakes : (lines.foldl (feed naming path) {}).TakesTags line.kind) :
    let above := unfenced none lines
    let taken? := (lines.foldl (feed naming path) {}).taken? naming path line
    taken? = some (tagsAbove (aboveRun above) ++ runTags above) ∧
      (taken? = some (runTags above) ↔ tagsAbove (aboveRun above) = []) ∧
      ((∀ last, (aboveRun above).getLast? = some last →
        last.kind ≠ .row ∧ last.kind.opening? = none) → taken? = some (runTags above)) := by
  intro above taken?
  have hempty : ({} : Draft).pendingTags = tagsAbove [] := tagsAbove_nil.symm
  have hpending : (lines.foldl (feed naming path) {}).pendingTags = tagsAbove above := by
    rw [foldl_feed_pendingTags naming path hempty lines]
    rfl
  have htaken : taken? = some (tagsAbove (aboveRun above) ++ runTags above) := by
    rw [← tagsAbove_eq_append_runTags, ← hpending]
    exact taken?_eq_pendingTags naming path htakes hopen
  have hiff : taken? = some (runTags above) ↔ tagsAbove (aboveRun above) = [] := by
    rw [htaken, Option.some.injEq, List.append_left_eq_self]
  exact ⟨htaken, hiff, fun h => hiff.mpr (tagsAbove_aboveRun_eq_nil h)⟩

theorem taken?_of_run_with_comment :
    (((scan "Feature: F\n@a\n# note\n@b,@c").foldl (feed {} "a.feature") {}).taken? {} "a.feature"
      ⟨5, "Scenario: S".toList⟩) = some ["@a", "@b", "@c"] := by
  have hkind : (Line.mk 5 "Scenario: S".toList).kind = .scenario "S" := by decide +kernel
  have hheader : ((scan "Feature: F\n@a\n# note\n@b,@c").foldl (feed {} "a.feature") {}).header =
      some ⟨"F", 1, []⟩ := by decide +kernel
  have htakes : ((scan "Feature: F\n@a\n# note\n@b,@c").foldl (feed {} "a.feature") {}).TakesTags
      (Line.mk 5 "Scenario: S".toList).kind := by
    rw [hkind]
    simp [TakesTags, hheader]
  obtain ⟨-, hiff, -⟩ := taken?_eq_runTags_iff {} "a.feature"
    (scan "Feature: F\n@a\n# note\n@b,@c") ⟨5, "Scenario: S".toList⟩ (by decide +kernel) htakes
  have hrun : runTags (unfenced none (scan "Feature: F\n@a\n# note\n@b,@c")) = ["@a", "@b", "@c"] := by
    decide +kernel
  rw [← hrun]
  exact hiff.mpr (by decide +kernel)

/-- A table row leaves the tag above it to the scenario below it. -/
theorem taken?_past_row :
    scan "Feature: F\n@a\n| x |\nScenario: S" =
        scan "Feature: F\n@a\n| x |" ++ [⟨4, "Scenario: S".toList⟩] ∧
      ((scan "Feature: F\n@a\n| x |").foldl (feed {} "a.feature") {}).docString = none ∧
      ((scan "Feature: F\n@a\n| x |").foldl (feed {} "a.feature") {}).header.isSome = true ∧
      (Line.mk 4 "Scenario: S".toList).kind = .scenario "S" ∧
      ((scan "Feature: F\n@a\n| x |").foldl (feed {} "a.feature") {}).taken? {} "a.feature"
        ⟨4, "Scenario: S".toList⟩ = some ["@a"] ∧
      runTags (unfenced none (scan "Feature: F\n@a\n| x |")) = [] ∧
      (Feature.ofText? {} "a.feature" "Feature: F\n@a\n| x |\nScenario: S").map
        (·.scenarios.map Scenario.tags) = some [["@a"]] := by
  decide +kernel

end Draft

end ScenarioAtlas
