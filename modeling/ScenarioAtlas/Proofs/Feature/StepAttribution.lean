import Mathlib.Data.List.TakeWhile
import ScenarioAtlas.Proofs.Feature.OutlineExpansion

/-!
# Whose steps a line of steps is among

The steps of a header are told by the places of the lines alone: those below it with no line between
that ends its steps. The header of any block ends the steps above it, and the first table of an
outline ends those of the outline.
-/

namespace ScenarioAtlas

set_option autoImplicit false

/-- Whether the steps below a header of the first kind end at a line of the second kind. -/
def LineKind.stepsEndAt : LineKind → LineKind → Bool
  | outline _, kind => kind.startsBlock || kind.isExamples
  | _, kind => kind.startsBlock

namespace Line

/-- The steps of a header: the counted lines with a step below it, where nothing between the two ends
its steps. -/
def stepLines (text : String) (header : Line) : List Line :=
  (counted text).filter fun line => line.kind = .step ∧ header.number < line.number ∧
    ∀ other ∈ counted text, header.number < other.number → other.number < line.number →
      header.kind.stepsEndAt other.kind = false

theorem filter_unended_eq {ends p : Line → Bool} {lines : List Line}
    (hascending : lines.Pairwise (·.number < ·.number))
    (hends : ∀ line, p line = true → ends line = false) :
    (lines.filter fun line => p line ∧
      ∀ other ∈ lines, other.number < line.number → ends other = false) =
      (lines.takeWhile (!ends ·)).filter p := by
  induction lines with
  | nil => rfl
  | cons first rest ih =>
    obtain ⟨hfirst, hrest⟩ := List.pairwise_cons.mp hascending
    cases hended : ends first with
    | true =>
      rw [List.takeWhile_cons_of_neg (by simp [hended]), List.filter_nil]
      apply List.filter_eq_nil_iff.mpr
      intro line hline hkept
      obtain ⟨hp, hunended⟩ := of_decide_eq_true hkept
      rcases List.mem_cons.mp hline with rfl | hline
      · simp [hends line hp] at hended
      · simp [hunended first List.mem_cons_self (hfirst line hline)] at hended
    | false =>
      have hhead : ∀ other ∈ first :: rest, other.number < first.number → ends other = false := by
        intro other hother hlt
        rcases List.mem_cons.mp hother with rfl | hother
        · exact hended
        · exact absurd hlt (Nat.lt_asymm (hfirst other hother))
      have htail : (rest.filter fun line => p line ∧
          ∀ other ∈ first :: rest, other.number < line.number → ends other = false) =
          (rest.takeWhile (!ends ·)).filter p := by
        rw [← ih hrest]
        apply List.filter_congr
        intro line _
        simp [hended]
      rw [List.takeWhile_cons_of_pos (by simp [hended]), List.filter_cons, List.filter_cons, htail]
      simp only [and_iff_left hhead, decide_eq_true_eq]

variable {text : String} {above below : List Line} {header : Line}

theorem stepsEndAt_step (kind : LineKind) : kind.stepsEndAt .step = false := by
  cases kind <;> rfl

theorem stepLines_eq (hsplit : counted text = above ++ header :: below) :
    stepLines text header =
      (below.takeWhile (!header.kind.stepsEndAt ·.kind)).filter (·.kind = .step) := by
  obtain ⟨habove, hbelow⟩ := counted_split hsplit
  obtain ⟨hheader, hbelow⟩ := List.pairwise_cons.mp hbelow
  have hnotBelow : ∀ line ∈ above ++ [header], ¬ header.number < line.number := by
    intro line hline
    rcases List.mem_append.mp hline with hline | hline
    · exact Nat.lt_asymm (habove line hline)
    · rw [List.mem_singleton.mp hline]
      exact Nat.lt_irrefl _
  rw [← filter_unended_eq hbelow, stepLines, hsplit, List.append_cons, List.filter_append,
    List.filter_eq_nil_iff.mpr, List.nil_append]
  · apply List.filter_congr
    intro line hline
    have hbetween : (∀ other ∈ above ++ [header] ++ below, header.number < other.number →
          other.number < line.number → header.kind.stepsEndAt other.kind = false) ↔
        ∀ other ∈ below, other.number < line.number → header.kind.stepsEndAt other.kind = false := by
      constructor
      · intro h other hother
        exact h other (List.mem_append_right _ hother) (hheader other hother)
      · intro h other hother habove
        rcases List.mem_append.mp hother with hother | hother
        · exact absurd habove (hnotBelow other hother)
        · exact h other hother
    simp only [hbetween, hheader line hline, true_and, decide_eq_true_eq]
  · intro line hline hkept
    exact hnotBelow line hline (of_decide_eq_true hkept).2.1
  · intro line hstep
    rw [of_decide_eq_true hstep, stepsEndAt_step]

theorem mem_stepLines_iff {line : Line} :
    line ∈ stepLines text header ↔
      line ∈ counted text ∧ line.kind = .step ∧ header.number < line.number ∧
        ∀ other ∈ counted text, header.number < other.number → other.number < line.number →
          header.kind.stepsEndAt other.kind = false := by
  simp [stepLines]

theorem stepsEndAt_of_startsBlock {kind : LineKind} (h : kind.startsBlock = true)
    (above : LineKind) : above.stepsEndAt kind = true := by
  cases above <;> simp [LineKind.stepsEndAt, h]

theorem eq_of_number_eq {line other : Line} (hline : line ∈ counted text)
    (hother : other ∈ counted text) (h : line.number = other.number) : line = other := by
  have hnumbers := (List.pairwise_map.mpr (counted_ascending text)).imp Nat.ne_of_lt
  exact List.inj_on_of_nodup_map hnumbers hline hother h

theorem disjoint_stepLines {other : Line} (hheader : header ∈ counted text)
    (hother : other ∈ counted text) (hstarts : header.kind.startsBlock = true)
    (hstarts' : other.kind.startsBlock = true) (hne : header ≠ other) :
    (stepLines text header).Disjoint (stepLines text other) := by
  intro line hline hline'
  obtain ⟨-, -, hbelow, hends⟩ := mem_stepLines_iff.mp hline
  obtain ⟨-, -, hbelow', hends'⟩ := mem_stepLines_iff.mp hline'
  -- of two headers above the line, the lower one ends the steps of the other
  rcases Nat.lt_trichotomy header.number other.number with hlt | heq | hlt
  · have hend := hends other hother hlt hbelow'
    rw [stepsEndAt_of_startsBlock hstarts'] at hend
    cases hend
  · exact hne (eq_of_number_eq hheader hother heq)
  · have hend := hends' header hheader hlt hbelow
    rw [stepsEndAt_of_startsBlock hstarts] at hend
    cases hend

theorem stepLines_lt_table {line opener : Line} {name : String} (hkind : header.kind = .outline name)
    (hopener : opener ∈ counted text) (hopens : opener.kind.isExamples = true)
    (hbelow : header.number < opener.number) (hline : line ∈ stepLines text header) :
    line.number < opener.number := by
  obtain ⟨hcounted, hstep, -, hends⟩ := mem_stepLines_iff.mp hline
  rcases Nat.lt_trichotomy line.number opener.number with hlt | heq | hlt
  · exact hlt
  · rw [← eq_of_number_eq hcounted hopener heq, hstep] at hopens
    cases hopens
  · have hend := hends opener hopener hbelow hlt
    simp [hkind, LineKind.stepsEndAt, hopens] at hend

end Line

namespace Layout

open Line

/-- How a scenario takes its steps from the header it stands for: as they are, or with the cells of
its row in them. -/
inductive TakesSteps (scenario : Scenario) (header : Line) (block : List Line)
    (steps : List String) : Prop
  | ofScenario (name : String) : header.kind = .scenario name → scenario.line = header.number →
    scenario.outlineLine = none → scenario.steps = steps → TakesSteps scenario header block steps
  | ofRowless (name : String) : header.kind = .outline name → usableRows block = [] →
    scenario.line = header.number → scenario.outlineLine = some header.number →
    scenario.steps = steps → TakesSteps scenario header block steps
  | ofRow (name : String) (row : UsableRow) : header.kind = .outline name →
    row ∈ usableRows block → scenario.line = row.line → scenario.outlineLine = some header.number →
    scenario.steps = steps.map (fun step => Placeholder.substitute step row.header row.cells) →
    TakesSteps scenario header block steps

variable {naming : Naming} {path text : String} {featureLine : Nat} {above below : List Line}
variable {header : Line} {scenario : Scenario} {feature : Feature}

theorem stepTexts_body (hsplit : counted text = above ++ header :: below) {name : String}
    (hkind : header.kind = .scenario name) :
    (stepLines text header).map (fun line => String.ofList line.trimmed) =
      stepTexts (body below) := by
  rw [stepLines_eq hsplit, hkind]
  rfl

theorem outlineSteps_body (hsplit : counted text = above ++ header :: below) {name : String}
    (hkind : header.kind = .outline name) :
    (stepLines text header).map (fun line => String.ofList line.trimmed) =
      outlineSteps (body below) := by
  rw [stepLines_eq hsplit, hkind, outlineSteps, upToTable, body, List.takeWhile_takeWhile, stepTexts]
  simp [LineKind.stepsEndAt, Bool.and_comm]

theorem takesSteps_of_mem_ofHeader (hsplit : counted text = above ++ header :: below)
    {tagged : List Line}
    (hmem : scenario ∈ ofHeader naming path featureLine tagged header below) :
    TakesSteps scenario header (body below)
      ((stepLines text header).map fun line => String.ofList line.trimmed) := by
  unfold ofHeader at hmem
  cases hkind : header.kind with
  | scenario name =>
    rw [hkind] at hmem
    obtain rfl := List.mem_singleton.mp hmem
    exact .ofScenario name hkind rfl rfl (stepTexts_body hsplit hkind).symm
  | outline name =>
    rw [hkind] at hmem
    dsimp only at hmem
    have hsteps := outlineSteps_body hsplit hkind
    by_cases hrows : usableRows (body below) = []
    · rw [ofOutline_of_rowless hrows] at hmem
      obtain rfl := List.mem_singleton.mp hmem
      exact .ofRowless name hkind hrows rfl rfl hsteps.symm
    · rw [ofOutline_of_rows hrows] at hmem
      obtain ⟨k, hk, rfl⟩ := List.mem_mapIdx.mp hmem
      refine .ofRow name _ hkind (List.getElem_mem hk) rfl rfl ?_
      rw [hsteps]
      rfl
  | _ => simp [hkind] at hmem

/-- Each scenario that is read takes the steps of a header, and each header of a scenario or outline
below that of the feature has a scenario that takes its steps. No line is among the steps of two
headers, that of a background included, and none of an outline's steps is below one of its tables. -/
theorem ofText?_steps (hread : Feature.ofText? naming path text = some feature) :
    (∀ scenario ∈ feature.scenarios, ∃ above header below,
      counted text = above ++ header :: below ∧ TakesSteps scenario header (body below)
        ((stepLines text header).map fun line => String.ofList line.trimmed)) ∧
    (∀ above header below, counted text = above ++ header :: below →
      (∃ line ∈ above, line.kind.isFeature = true) →
      (∃ name, header.kind = .scenario name ∨ header.kind = .outline name) →
        ∃ scenario ∈ feature.scenarios, TakesSteps scenario header (body below)
          ((stepLines text header).map fun line => String.ofList line.trimmed)) ∧
    (∀ header ∈ counted text, ∀ other ∈ counted text, header.kind.startsBlock = true →
      other.kind.startsBlock = true → header ≠ other →
        (stepLines text header).Disjoint (stepLines text other)) ∧
    ∀ header name, header.kind = .outline name → ∀ opener ∈ counted text,
      opener.kind.isExamples = true → header.number < opener.number →
        ∀ line ∈ stepLines text header, line.number < opener.number := by
  refine ⟨?_, ?_, ?_, ?_⟩
  · intro scenario hmem
    obtain ⟨name, above, first, rest, hfirst, rfl⟩ := exists_of_ofText? hread
    obtain ⟨before, header, below, rfl, hheader⟩ := mem_scenariosOf_iff.mp hmem
    have hsplit : counted text = (above ++ first :: before) ++ header :: below := by
      simp [hfirst.split]
    exact ⟨_, header, below, hsplit, takesSteps_of_mem_ofHeader hsplit hheader⟩
  · rintro above header below hsplit hfeature ⟨name, hkind⟩
    obtain ⟨featureLine, tagged, between, -, hscenarios⟩ :=
      exists_outline_below hread hsplit hfeature
    have hsome : ofHeader naming path featureLine (tagged ++ between) header below ≠ [] := by
      rcases hkind with hkind | hkind
      · simp [ofHeader, hkind]
      · exact ofHeader_ne_nil hkind
    obtain ⟨scenario, hmem⟩ := List.exists_mem_of_ne_nil _ hsome
    refine ⟨scenario, ?_, takesSteps_of_mem_ofHeader hsplit hmem⟩
    rw [hscenarios]
    exact mem_scenariosOf_iff.mpr ⟨between, header, below, rfl, hmem⟩
  · intro header hheader other hother hstarts hstarts' hne
    exact disjoint_stepLines hheader hother hstarts hstarts' hne
  · intro header name hkind opener hopener hopens hbelow line hline
    exact stepLines_lt_table hkind hopener hopens hbelow hline

theorem ofText?_steps_of_background :
    let text := "Feature: F\nBackground:\nGiven b\nScenario: S\nGiven x\nExamples:\nThen y"
    ∃ feature scenario, Feature.ofText? {} "a.feature" text = some feature ∧
      feature.scenarios = [scenario] ∧ scenario.steps = ["Given x", "Then y"] ∧
      ∃ above header below, counted text = above ++ header :: below ∧
        TakesSteps scenario header (body below)
          ((stepLines text header).map fun line => String.ofList line.trimmed) := by
  intro text
  let scenario : Scenario :=
    { name := "S", editorLine := 3, line := 4, featureLine := some 1, steps := ["Given x", "Then y"]
      path := "a.feature" }
  have hscenarios : (Feature.ofText? {} "a.feature" text).map Feature.scenarios =
      some [scenario] := by
    decide +kernel
  obtain ⟨feature, hread, hfeature⟩ := Option.map_eq_some_iff.mp hscenarios
  obtain ⟨hsteps, -⟩ := ofText?_steps hread
  have htakes := hsteps scenario (hfeature ▸ List.mem_cons_self)
  exact ⟨feature, scenario, hread, hfeature, rfl, htakes⟩

end Layout

end ScenarioAtlas
