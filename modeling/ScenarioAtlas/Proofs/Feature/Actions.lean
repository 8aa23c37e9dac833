import ScenarioAtlas.Proofs.Distinct
import ScenarioAtlas.Proofs.Feature.RunnableLines
import ScenarioAtlas.Proofs.Text.Number
import ScenarioAtlas.Runner.Invocation

/-!
# What a feature file offers to run

Besides the whole file and its tags, a feature file offers the header of each scenario, the header of
each outline and each of its examples, in the order of their lines. An outline is offered once,
though all of its examples lead to it: no other header has its line.
-/

namespace ScenarioAtlas

set_option autoImplicit false

open Line

namespace Action

structure Target where
  scope : ActionScope
  line : Nat
  name : String
  deriving DecidableEq, Repr

def Target.action (path : String) (target : Target) (kind : ActionKind) : Action :=
  { kind, scope := target.scope, path, line := some target.line, name := some target.name }

def Target.actions (path : String) (target : Target) : List Action :=
  [target.action path .run, target.action path .debug]

/-- The places that a scenario is a reason for: its own, if it has one, and that of its outline. -/
inductive Offers (scenario : Scenario) : Target → Prop where
  | header : scenario.kind = .regular → Offers scenario ⟨.scenario, scenario.line, scenario.name⟩
  | row : scenario.isExample = true → Offers scenario ⟨.example, scenario.line, scenario.name⟩
  | outline {line : Nat} {name : String} : scenario.outlineLine = some line →
      scenario.outlineName = some name → Offers scenario ⟨.outline, line, name⟩

/-- Whether the places of a feature are the given ones, where `below` are the lines below its
header. -/
structure IsSurface (feature : Feature) (below : List Line) (targets : List Target) : Prop where
  /-- The places come in the order of their lines, and a line is at most one of them. -/
  ascending : targets.Pairwise (·.line < ·.line)
  exact : ∀ target, target ∈ targets ↔ ∃ scenario ∈ feature.scenarios, Offers scenario target
  scenarioHeader : ∀ line name, ⟨.scenario, line, name⟩ ∈ targets ↔
    ∃ header ∈ below, header.number = line ∧ header.kind = .scenario name
  outlineHeader : ∀ line name, ⟨.outline, line, name⟩ ∈ targets ↔
    ∃ header ∈ below, header.number = line ∧ header.kind = .outline name
  /-- An outline comes before its examples. -/
  outlineFirst : ∀ scenario ∈ feature.scenarios, scenario.isExample = true →
    ∃ line name, scenario.outlineLine = some line ∧ scenario.outlineName = some name ∧
      ⟨.outline, line, name⟩ ∈ targets ∧ line < scenario.line

/-- Whether a scenario is an example of the outline with the given name and line. -/
def IsExampleOf (name : String) (line : Nat) (scenario : Scenario) : Prop :=
  scenario.standsForOutline = false ∧ scenario.outlineLine = some line ∧
    scenario.outlineName = some name

theorem IsExampleOf.isExample {name : String} {line : Nat} {scenario : Scenario}
    (h : IsExampleOf name line scenario) : scenario.isExample = true := by
  simp [Scenario.isExample, h.1, h.2.1]

variable (path : String) {name : String} {line : Nat} {seen : List Nat} {found : List Scenario}

theorem ofScenarios_examples (hfound : ∀ scenario ∈ found, IsExampleOf name line scenario)
    (hseen : line ∈ seen) (more : List Scenario) :
    ofScenarios path seen (found ++ more) =
      found.flatMap (fun scenario => pair path .example scenario.line scenario.name) ++
        ofScenarios path seen more := by
  induction found with
  | nil => rfl
  | cons scenario rest ih =>
    obtain ⟨hown, hline, -⟩ := hfound scenario List.mem_cons_self
    have hrest := ih fun other hother => hfound other (List.mem_cons_of_mem scenario hother)
    simp [ofScenarios, hown, hline, hseen, hrest]

theorem ofScenarios_outline (hfound : ∀ scenario ∈ found, IsExampleOf name line scenario)
    (hsome : found ≠ []) (hseen : line ∉ seen) (more : List Scenario) :
    ofScenarios path seen (found ++ more) =
      pair path .outline line name ++
        found.flatMap (fun scenario => pair path .example scenario.line scenario.name) ++
        ofScenarios path (line :: seen) more := by
  cases found with
  | nil => exact absurd rfl hsome
  | cons first rest =>
    obtain ⟨hown, hline, hname⟩ := hfound first List.mem_cons_self
    have hrest := ofScenarios_examples path
      (fun other hother => hfound other (List.mem_cons_of_mem first hother))
      (List.mem_cons_self (a := line) (l := seen)) more
    simp [ofScenarios, hown, hline, hseen, hrest, outlineNameOf, hname]

end Action

namespace Layout

open ScenarioAtlas.Action

variable (naming : Naming) (path : String) (featureLine : Nat)

/-- The places at a header and in its block. -/
def targetsOf (above : List Line) (header : Line) (below : List Line) : List Target :=
  match header.kind with
  | .scenario name => [⟨.scenario, header.number, name⟩]
  | .outline name =>
    ⟨.outline, header.number, name⟩ ::
      ((ofHeader naming path featureLine above header below).filter (·.isExample)).map
        fun scenario => ⟨.example, scenario.line, scenario.name⟩
  | _ => []

def targets (above below : List Line) : List Target :=
  collect (targetsOf naming path featureLine) above below

variable {naming path featureLine} {name : String}
variable {above below : List Line} {header : Line} {scenario : Scenario} {target : Target}

theorem outline_of_mem_ofHeader (hkind : header.kind = .outline name)
    (h : scenario ∈ ofHeader naming path featureLine above header below) :
    scenario.outlineLine = some header.number ∧ scenario.outlineName = some name := by
  refine ofHeader_induction (motive := fun scenario =>
    scenario.outlineLine = some header.number ∧ scenario.outlineName = some name) ?_ ?_ ?_ h
  · intro _ _ _ hother
    cases hkind.symm.trans hother
  · intro _ _ _ _ _ hsame
    cases hkind.symm.trans hsame
    exact ⟨rfl, rfl⟩
  · intro _ _ _ hsame
    cases hkind.symm.trans hsame
    exact ⟨rfl, rfl⟩

theorem mem_targetsOf_iff :
    target ∈ targetsOf naming path featureLine above header below ↔
      ∃ scenario ∈ ofHeader naming path featureLine above header below, Offers scenario target := by
  cases hkind : header.kind with
  | scenario name =>
    simp only [targetsOf, ofHeader, hkind, List.mem_singleton]
    constructor
    · rintro rfl
      exact ⟨_, rfl, .header rfl⟩
    · rintro ⟨_, rfl, hoffers⟩
      cases hoffers with
      | header _ => rfl
      | row hexample => cases hexample
      | outline hline _ => cases hline
  | outline name =>
    simp only [targetsOf, hkind, List.mem_cons, List.mem_map, List.mem_filter]
    constructor
    · rintro (rfl | ⟨scenario, ⟨hmem, hexample⟩, rfl⟩)
      · obtain ⟨scenario, hmem⟩ := List.exists_mem_of_ne_nil _ (ofHeader_ne_nil hkind)
        obtain ⟨hline, hname⟩ := outline_of_mem_ofHeader hkind hmem
        exact ⟨scenario, hmem, .outline hline hname⟩
      · exact ⟨scenario, hmem, .row hexample⟩
    · rintro ⟨scenario, hmem, hoffers⟩
      obtain ⟨hline, hname⟩ := outline_of_mem_ofHeader hkind hmem
      cases hoffers with
      | header hregular => simp [Scenario.kind, hline] at hregular
      | row hexample => exact Or.inr ⟨scenario, ⟨hmem, hexample⟩, rfl⟩
      | outline hown hnamed =>
        rw [hline] at hown
        rw [hname] at hnamed
        cases hown
        cases hnamed
        exact Or.inl rfl
  | _ => simp [targetsOf, ofHeader, hkind]

theorem mem_targets_iff :
    target ∈ targets naming path featureLine above below ↔
      ∃ scenario ∈ scenariosOf naming path featureLine above below, Offers scenario target := by
  constructor
  · intro h
    obtain ⟨before, header, after, hsplit, h⟩ := mem_collect_iff.mp h
    obtain ⟨scenario, hmem, hoffers⟩ := mem_targetsOf_iff.mp h
    exact ⟨scenario, mem_scenariosOf_iff.mpr ⟨before, header, after, hsplit, hmem⟩, hoffers⟩
  · rintro ⟨scenario, hmem, hoffers⟩
    obtain ⟨before, header, after, hsplit, hmem⟩ := mem_scenariosOf_iff.mp hmem
    exact mem_collect_iff.mpr
      ⟨before, header, after, hsplit, mem_targetsOf_iff.mpr ⟨scenario, hmem, hoffers⟩⟩

theorem mem_targets_header_iff {line : Nat} {own : Target} {kind : LineKind}
    (hown : ∀ above header below, own ∈ targetsOf naming path featureLine above header below ↔
      header.number = line ∧ header.kind = kind) :
    own ∈ targets naming path featureLine above below ↔
      ∃ header ∈ below, header.number = line ∧ header.kind = kind := by
  rw [targets, mem_collect_iff]
  constructor
  · rintro ⟨before, header, after, rfl, h⟩
    exact ⟨header, by simp, (hown _ _ _).mp h⟩
  · rintro ⟨header, hmem, h⟩
    obtain ⟨before, after, hsplit⟩ := List.mem_iff_append.mp hmem
    exact ⟨before, header, after, hsplit, (hown _ _ _).mpr h⟩

theorem scenario_mem_targetsOf_iff {line : Nat} :
    ⟨.scenario, line, name⟩ ∈ targetsOf naming path featureLine above header below ↔
      header.number = line ∧ header.kind = .scenario name := by
  unfold targetsOf
  cases header.kind with
  | scenario own =>
    simp only [List.mem_singleton, Target.mk.injEq, true_and, LineKind.scenario.injEq]
    exact and_congr eq_comm eq_comm
  | _ => simp

theorem outline_mem_targetsOf_iff {line : Nat} :
    ⟨.outline, line, name⟩ ∈ targetsOf naming path featureLine above header below ↔
      header.number = line ∧ header.kind = .outline name := by
  cases hkind : header.kind with
  | outline own =>
    simp only [targetsOf, hkind, List.mem_cons, Target.mk.injEq, List.mem_map, reduceCtorEq,
      false_and, and_false, exists_false, or_false, true_and, LineKind.outline.injEq]
    exact and_congr eq_comm eq_comm
  | _ => simp [targetsOf, hkind]

theorem targetsOf_lines_sublist (above : List Line) (header : Line) (below : List Line) :
    ((targetsOf naming path featureLine above header below).map Target.line).Sublist
      (header.number :: (body below).map Line.number) := by
  unfold targetsOf
  cases hkind : header.kind with
  | scenario name => exact (List.nil_sublist _).cons_cons _
  | outline name =>
    by_cases hrows : usableRows (body below) = []
    · simp [ofHeader, hkind, ofOutline_of_rowless hrows, ofRowless, Scenario.isExample]
    · have hfound : (((ofHeader naming path featureLine above header below).filter
          (·.isExample)).map Scenario.line).Sublist ((usableRows (body below)).map UsableRow.line) := by
        simp only [ofHeader, hkind, ofOutline_of_rows hrows]
        rw [← map_line_ofRow name header.number]
        exact List.filter_sublist.map _
      rw [List.map_cons, List.map_map]
      exact (hfound.trans (usableRows_lines_sublist (body below))).cons_cons _
  | _ => exact List.nil_sublist _

theorem targets_lines_sublist :
    ((targets naming path featureLine above below).map Target.line).Sublist
      (below.map Line.number) :=
  collect_lines_sublist Target.line
    (fun _ _ _ hnone => by unfold targetsOf; split <;> simp_all [LineKind.startsBlock])
    targetsOf_lines_sublist above (List.nil_sublist _)

theorem ofScenarios_ofHeader (naming : Naming) (path : String) (featureLine : Nat)
    (above : List Line) (header : Line) (below : List Line) {seen : List Nat}
    (hseen : header.number ∉ seen) (more : List Scenario) :
    ∃ next, (∀ n ∈ next, n ∈ seen ∨ n = header.number) ∧
      ofScenarios path seen (ofHeader naming path featureLine above header below ++ more) =
        (targetsOf naming path featureLine above header below).flatMap (Target.actions path) ++
          ofScenarios path next more := by
  cases hkind : header.kind with
  | scenario name =>
    refine ⟨seen, fun n hn => Or.inl hn, ?_⟩
    simp only [ofHeader, targetsOf, hkind]
    rfl
  | outline name =>
    refine ⟨header.number :: seen, ?_, ?_⟩
    · intro n hn
      exact (List.mem_cons.mp hn).symm
    by_cases hrows : usableRows (body below) = []
    · simp only [ofHeader, targetsOf, hkind, ofOutline_of_rowless hrows]
      rfl
    · have hfound : ∀ scenario ∈ ofHeader naming path featureLine above header below,
          IsExampleOf name header.number scenario := by
        intro scenario hmem
        refine ⟨?_, outline_of_mem_ofHeader hkind hmem⟩
        rw [ofHeader, hkind] at hmem
        dsimp only at hmem
        rw [ofOutline_of_rows hrows] at hmem
        obtain ⟨k, _, rfl⟩ := List.mem_mapIdx.mp hmem
        rfl
      have hall : (ofHeader naming path featureLine above header below).filter (·.isExample) =
          ofHeader naming path featureLine above header below :=
        List.filter_eq_self.mpr fun scenario hmem => (hfound scenario hmem).isExample
      rw [ofScenarios_outline path hfound (ofHeader_ne_nil hkind) hseen, targetsOf, hkind]
      dsimp only
      rw [hall, List.flatMap_cons, List.flatMap_map]
      rfl
  | _ => exact ⟨seen, fun n hn => Or.inl hn, by simp [ofHeader, targetsOf, hkind]⟩

/-- The actions at the scenarios of a file are those of its places, each place once. -/
theorem ofScenarios_scenariosOf (hascending : below.Pairwise (·.number < ·.number))
    {seen : List Nat} (hseen : ∀ line ∈ below, line.number ∉ seen) :
    ofScenarios path seen (scenariosOf naming path featureLine above below) =
      (targets naming path featureLine above below).flatMap (Target.actions path) := by
  induction below generalizing above seen with
  | nil => rfl
  | cons line rest ih =>
    obtain ⟨hfirst, hrest⟩ := List.pairwise_cons.mp hascending
    obtain ⟨next, hnext, hactions⟩ := ofScenarios_ofHeader naming path featureLine above line rest
      (hseen line List.mem_cons_self) (scenariosOf naming path featureLine (above ++ [line]) rest)
    have hseenNext : ∀ other ∈ rest, other.number ∉ next := by
      intro other hother hmem
      rcases hnext _ hmem with hmem | hsame
      · exact hseen other (List.mem_cons_of_mem line hother) hmem
      · exact absurd hsame (Nat.ne_of_gt (hfirst other hother))
    rw [scenariosOf, collect, targets, collect, List.flatMap_append]
    rw [← scenariosOf, ← targets, hactions, ih hrest hseenNext]

variable {text : String}

theorem IsHeader.isSurface (h : IsHeader name (counted text) above header below) :
    IsSurface (featureOf naming path name above header below) below
      (targets naming path header.number (above ++ [header]) below) := by
  have hbelow := List.pairwise_map.mpr (List.pairwise_cons.mp h.ascending).2
  have hascending : (targets naming path header.number (above ++ [header]) below).Pairwise
      (·.line < ·.line) := List.pairwise_map.mp (hbelow.sublist targets_lines_sublist)
  refine ⟨hascending, fun target => mem_targets_iff, ?_, ?_, ?_⟩
  · intro line name
    exact mem_targets_header_iff fun _ _ _ => scenario_mem_targetsOf_iff
  · intro line name
    exact mem_targets_header_iff fun _ _ _ => outline_mem_targetsOf_iff
  · intro scenario hmem hexample
    obtain ⟨before, head, after, hsplit, hown⟩ := mem_scenariosOf_iff.mp hmem
    have hoffered : (⟨.example, scenario.line, scenario.name⟩ : Target) ∈
        targetsOf naming path header.number (above ++ [header] ++ before) head after :=
      mem_targetsOf_iff.mpr ⟨scenario, hown, .row hexample⟩
    have hinfix := infix_collect (targetsOf naming path header.number) (above ++ [header]) before
      head after
    rw [← hsplit] at hinfix
    have hordered := hascending.sublist hinfix.sublist
    cases hkind : head.kind with
    | outline outlineName =>
      obtain ⟨hline, hname⟩ := outline_of_mem_ofHeader hkind hown
      refine ⟨head.number, outlineName, hline, hname,
        mem_targets_iff.mpr ⟨scenario, hmem, .outline hline hname⟩, ?_⟩
      simp only [targetsOf, hkind] at hordered hoffered
      rcases List.mem_cons.mp hoffered with hother | hoffered
      · cases hother
      · exact (List.pairwise_cons.mp hordered).1 _ hoffered
    | _ => simp [targetsOf, hkind] at hoffered

end Layout

namespace Action

theorem pathOnLine_injective (path : String) : Function.Injective (Invocation.pathOnLine path) := by
  intro m n h
  have hsame := congrArg String.toList h
  simp only [Invocation.pathOnLine, String.toList_append, String.toList_ofList,
    List.append_cancel_left_eq, List.cons.injEq, true_and] at hsame
  exact Text.writeNumber_injective hsame

/-- Whether two actions that run or debug one scenario each are told apart by their first argument,
as far as both run or both debug. -/
def IsToldApart (settings : RunnerSettings) (root : String) (action other : Action) : Prop :=
  action.kind = other.kind →
    action.scope ∈ [ActionScope.scenario, .example] →
    other.scope ∈ [ActionScope.scenario, .example] →
    (Invocation.ofAction settings root action).arguments.head? ≠
      (Invocation.ofAction settings root other).arguments.head?

theorem head?_arguments_of_target (settings : RunnerSettings) (root path : String)
    {target : Target} (hscope : target.scope ∈ [ActionScope.scenario, .example]) (kind : ActionKind) :
    (Invocation.ofAction settings root (target.action path kind)).arguments.head? =
      some (Invocation.pathOnLine (Invocation.pathFrom root path) target.line) := by
  rcases List.mem_pair.mp hscope with hscope | hscope <;>
    simp [Invocation.ofAction, Invocation.selection, Target.action, hscope]

theorem IsToldApart.of_scope {action other : Action} (settings : RunnerSettings) (root : String)
    (h : action.scope = .feature ∨ other.scope = .tag) : IsToldApart settings root action other := by
  intro _ haction hother
  rcases h with h | h
  · simp [h] at haction
  · simp [h] at hother

theorem pairwise_isToldApart (settings : RunnerSettings) (root path : String)
    {targets : List Target} (hascending : targets.Pairwise (·.line < ·.line)) :
    (targets.flatMap (Target.actions path)).Pairwise (IsToldApart settings root) := by
  apply List.pairwise_flatMap.mpr
  constructor
  · intro target _
    refine List.pairwise_pair.mpr ?_
    intro hkind
    cases hkind
  · refine hascending.imp ?_
    intro target other hlt action haction second hsecond
    obtain ⟨kind, rfl⟩ : ∃ kind, action = target.action path kind := by
      rcases List.mem_pair.mp haction with rfl | rfl <;> exact ⟨_, rfl⟩
    obtain ⟨otherKind, rfl⟩ : ∃ kind, second = other.action path kind := by
      rcases List.mem_pair.mp hsecond with rfl | rfl <;> exact ⟨_, rfl⟩
    intro _ hscope hotherScope hsame
    rw [head?_arguments_of_target settings root path hscope,
      head?_arguments_of_target settings root path hotherScope] at hsame
    exact Nat.ne_of_lt hlt (pathOnLine_injective _ (Option.some.inj hsame))

/-- The tags of a feature and its scenarios as they are written, one after the other. -/
def writtenTags (feature : Feature) : List String :=
  feature.tags ++ feature.scenarios.flatMap Scenario.tags

/-- A feature that was read offers itself, each of its places to run and to debug, and each of its
tags, in this order and nothing else; and no two scenarios or examples are run alike. -/
theorem ofFeature_of_read {naming : Naming} {path text : String} {feature : Feature}
    (hread : Feature.ofText? naming path text = some feature) :
    ∃ above header below targets,
      Layout.IsHeader feature.name (counted text) above header below ∧
      IsSurface feature below targets ∧
      ofFeature feature =
        { kind := .run, scope := .feature, path, line := some header.number,
          name := some feature.name } ::
          targets.flatMap (Target.actions path) ++
          (tagsOf feature).map (fun tag => { kind := .run, scope := .tag, path, tag := some tag }) ∧
      (tagsOf feature).Nodup ∧
      (∀ tag, tag ∈ tagsOf feature ↔ tag ∈ writtenTags feature) ∧
      ((tagsOf feature).Pairwise fun tag other =>
        (writtenTags feature).idxOf tag < (writtenTags feature).idxOf other) ∧
      ∀ settings root, (ofFeature feature).Pairwise (IsToldApart settings root) := by
  obtain ⟨name, above, header, below, hheader, rfl⟩ := Layout.exists_of_ofText? hread
  have hsurface : IsSurface (Layout.featureOf naming path name above header below) below _ :=
    hheader.isSurface
  have hscenarios : ofScenarios path [] (Layout.scenariosOf naming path header.number
      (above ++ [header]) below) = _ :=
    Layout.ofScenarios_scenariosOf (List.pairwise_cons.mp hheader.ascending).2 (by simp)
  have hactions : ofFeature (Layout.featureOf naming path name above header below) =
      { kind := .run, scope := .feature, path, line := some header.number, name := some name } ::
        (Layout.targets naming path header.number (above ++ [header]) below).flatMap
          (Target.actions path) ++
        (tagsOf (Layout.featureOf naming path name above header below)).map
          (fun tag => { kind := .run, scope := .tag, path, tag := some tag }) := by
    rw [← hscenarios]
    rfl
  refine ⟨above, header, below, _, hheader, hsurface, hactions, nodup_eraseDups _, ?_,
    pairwise_idxOf_eraseDups _, ?_⟩
  · intro tag
    exact List.mem_eraseDups
  · intro settings root
    rw [hactions, List.cons_append, List.pairwise_cons, List.pairwise_append]
    refine ⟨?_, pairwise_isToldApart settings root path hsurface.ascending, ?_, ?_⟩
    · intro other _
      exact .of_scope settings root (Or.inl rfl)
    · refine List.pairwise_map.mpr (List.pairwise_of_forall ?_)
      intro tag other
      exact .of_scope settings root (Or.inr rfl)
    · intro action _ other hother
      obtain ⟨tag, -, rfl⟩ := List.mem_map.mp hother
      exact .of_scope settings root (Or.inr rfl)

theorem ofFeature_of_read_outline_with_tag :
    ∃ feature, Feature.ofText? {} "a.feature"
        "Feature: F\n@t\nScenario Outline: O\nExamples:\n|x|\n|1|\n|2|" = some feature ∧
      tagsOf feature = ["@t"] ∧
      ∃ above header below targets,
        Layout.IsHeader feature.name
          (counted "Feature: F\n@t\nScenario Outline: O\nExamples:\n|x|\n|1|\n|2|")
          above header below ∧
        IsSurface feature below targets ∧
        ∀ settings root, (ofFeature feature).Pairwise (IsToldApart settings root) := by
  have htagged : (Feature.ofText? {} "a.feature"
      "Feature: F\n@t\nScenario Outline: O\nExamples:\n|x|\n|1|\n|2|").map tagsOf =
        some ["@t"] := by
    decide +kernel
  obtain ⟨feature, hread, htags⟩ := Option.map_eq_some_iff.mp htagged
  obtain ⟨above, header, below, targets, hheader, hsurface, -, -, -, -, hapart⟩ :=
    ofFeature_of_read hread
  exact ⟨feature, hread, htags, above, header, below, targets, hheader, hsurface, hapart⟩

end Action

end ScenarioAtlas
