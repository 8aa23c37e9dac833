import ScenarioAtlas.Proofs.Feature.RunnableLines
import ScenarioAtlas.Proofs.Group.Tagged
import ScenarioAtlas.Proofs.Text.Cut

/-!
# Scenarios as read have their places

Words are parted by all that a tag must not hold, so whatever is read as a tag can name a group, be
it above a header or above a table of examples. No strategy has to give way to one group of all
scenarios then, as long as the paths are not blank.
-/

namespace ScenarioAtlas

set_option autoImplicit false

open Line

namespace LineKind

theorem isValidTag_of_mem_splitTags {s : List Char} {tag : String} (h : tag ∈ splitTags s) :
    Group.isValidTag tag = true := by
  obtain ⟨word, hword, rfl⟩ := List.mem_map.mp h
  obtain ⟨hword, htag⟩ := List.mem_filter.mp hword
  have hpart := List.mem_of_mem_filter (List.takeWhile_subset _ hword)
  have hparts := Text.eq_false_of_mem_splitOnP hpart
  rw [Bool.and_eq_true, beq_iff_eq, decide_eq_true_iff] at htag
  obtain ⟨hat, hmore⟩ := htag
  obtain ⟨body, rfl⟩ := List.head?_eq_some_iff.mp hat
  have hbody : body ≠ [] := by
    rintro rfl
    exact Nat.lt_irrefl _ hmore
  refine Group.isValidTag_iff.mpr ⟨body, String.toList_ofList, hbody, fun c hc => ?_⟩
  have hc := hparts c (List.mem_cons_of_mem _ hc)
  rw [Bool.or_eq_false_iff] at hc
  exact hc.1

theorem header?_ne_tags (s : List Char) (own : List String) : header? s ≠ some (tags own) := by
  simp [header?]

theorem eq_splitTags_of_classify {s : List Char} {own : List String} (h : classify s = tags own) :
    own = splitTags s := by
  unfold classify at h
  split at h
  case h_3 => exact (tags.inj h).symm
  case h_5 =>
    split at h
    case h_1 => cases h
    case h_2 hheader => exact absurd (h ▸ hheader) (header?_ne_tags s own)
    case h_3 => split at h <;> cases h
  all_goals cases h

end LineKind

theorem Line.isValidTag_of_mem_tagsAbove {above : List Line} {tag : String}
    (h : tag ∈ tagsAbove above) : Group.isValidTag tag = true := by
  obtain ⟨line, -, htag⟩ := List.mem_flatMap.mp h
  cases hkind : line.kind with
  | tags own =>
    rw [hkind] at htag
    have hown := LineKind.eq_splitTags_of_classify hkind
    exact LineKind.isValidTag_of_mem_splitTags (hown ▸ htag)
  | _ =>
    rw [hkind] at htag
    cases htag

/-- What grouping asks of a scenario, under whatever strategy. -/
structure Scenario.Placeable (scenario : Scenario) : Prop where
  path : Text.allBlank scenario.path.toList = false
  tags : ∀ tag ∈ scenario.tags, Group.isValidTag tag = true

namespace Layout

variable {naming : Naming} {path : String} {featureLine : Nat}
variable {above below : List Line} {header : Line} {scenario : Scenario} {tag : String}

theorem isValidTag_of_mem_usableRows {block : List Line} {row : UsableRow}
    (hrow : row ∈ usableRows block) (h : tag ∈ row.tags) : Group.isValidTag tag = true := by
  obtain ⟨before, opener, after, -, -, hrow⟩ := mem_usableRows_iff.mp hrow
  obtain ⟨-, -, -, -, -, -, -, -, htags, -⟩ := mem_tableRows_iff.mp hrow
  exact isValidTag_of_mem_tagsAbove (htags ▸ h)

theorem isValidTag_of_mem_ofHeader
    (hmem : scenario ∈ ofHeader naming path featureLine above header below)
    (h : tag ∈ scenario.tags) : Group.isValidTag tag = true := by
  unfold ofHeader at hmem
  cases hkind : header.kind with
  | scenario name =>
    rw [hkind] at hmem
    rw [List.mem_singleton.mp hmem] at h
    exact isValidTag_of_mem_tagsAbove h
  | outline name =>
    rw [hkind] at hmem
    dsimp only at hmem
    by_cases hrows : usableRows (body below) = []
    · rw [ofOutline_of_rowless hrows] at hmem
      rw [List.mem_singleton.mp hmem] at h
      exact isValidTag_of_mem_tagsAbove h
    · rw [ofOutline_of_rows hrows] at hmem
      obtain ⟨k, hk, rfl⟩ := List.mem_mapIdx.mp hmem
      rcases List.mem_append.mp h with h | h
      · exact isValidTag_of_mem_tagsAbove h
      · exact isValidTag_of_mem_usableRows (List.getElem_mem hk) h
  | _ => simp [hkind] at hmem

theorem placeable_of_mem_scenariosOf (hpath : Text.allBlank path.toList = false)
    (h : scenario ∈ scenariosOf naming path featureLine above below) : scenario.Placeable := by
  constructor
  · rw [(origin_of_mem_scenariosOf h).1]
    exact hpath
  · intro tag htag
    obtain ⟨before, header, after, -, h⟩ := mem_scenariosOf_iff.mp h
    exact isValidTag_of_mem_ofHeader h htag

end Layout

namespace Strategy

theorem place_eq_ok {scenarios : List Scenario} (h : ∀ scenario ∈ scenarios, scenario.Placeable)
    (strategy : Strategy) : strategy.place scenarios = .ok (strategy.organize scenarios) := by
  have hplaced : ∃ groups, strategy.place scenarios = .ok groups := by
    cases strategy with
    | tag =>
      have hvalid := Group.invalidTag?_eq_none_iff.mpr fun scenario hmem tag htag =>
        Group.isValidTag_iff.mp ((h scenario hmem).tags tag htag)
      rw [place, Group.byTag, hvalid]
      exact ⟨_, rfl⟩
    | file =>
      rw [place_file]
      exact Group.isOk_byFileAs fun scenario hmem => (h scenario hmem).path
    | feature =>
      rw [place_feature]
      exact Group.isOk_byFileAs fun scenario hmem => (h scenario hmem).path
    | kind | flat => exact ⟨_, rfl⟩
  obtain ⟨groups, hplaced⟩ := hplaced
  rw [organize, hplaced]

/-- What is read from files with names finds a place under every strategy, so no strategy ever gives
way to one group of all scenarios. A line's tags are all fit to name a group, and those of features
and scenarios come from there. -/
theorem place_of_sources (naming : Naming) {sources : List (String × String)}
    (hpaths : ∀ source ∈ sources, Text.allBlank source.1.toList = false) :
    let features := sources.filterMap fun (path, text) => Feature.ofText? naming path text
    let scenarios := features.flatMap Feature.scenarios
    (∀ strategy : Strategy, strategy.place scenarios = .ok (strategy.organize scenarios)) ∧
      (∀ line, ∀ tag ∈ LineKind.splitTags line, Group.isValidTag tag = true) ∧
      (∀ feature ∈ features, ∀ tag ∈ feature.tags, Group.isValidTag tag = true) ∧
      ∀ scenario ∈ scenarios, scenario.Placeable := by
  intro features scenarios
  have hplaceable : ∀ scenario ∈ scenarios, scenario.Placeable := by
    intro scenario hmem
    obtain ⟨feature, hfeature, hmem⟩ := List.mem_flatMap.mp hmem
    obtain ⟨⟨path, text⟩, hsource, hread⟩ := List.mem_filterMap.mp hfeature
    obtain ⟨name, above, header, below, -, rfl⟩ := Layout.exists_of_ofText? hread
    exact Layout.placeable_of_mem_scenariosOf (hpaths (path, text) hsource) hmem
  refine ⟨place_eq_ok hplaceable, fun _ _ => LineKind.isValidTag_of_mem_splitTags, ?_, hplaceable⟩
  intro feature hfeature tag htag
  obtain ⟨⟨path, text⟩, -, hread⟩ := List.mem_filterMap.mp hfeature
  obtain ⟨name, above, header, below, -, rfl⟩ := Layout.exists_of_ofText? hread
  exact isValidTag_of_mem_tagsAbove htag

theorem place_of_sources_with_tagged_table :
    let text := "@f\nFeature: F\n@a,@b @ #@c\nScenario Outline: O\n@t\u00a0@u\nExamples:\n|x|\n|1|"
    let features := [("a.feature", text), ("b.feature", "no feature")].filterMap fun (path, text) =>
      Feature.ofText? {} path text
    let scenarios := features.flatMap Feature.scenarios
    scenarios.map Scenario.tags = [["@a", "@b", "@t", "@u"]] ∧
      tag.place scenarios = .ok (tag.organize scenarios) := by
  intro text features scenarios
  have hpaths : ∀ source ∈ [("a.feature", text), ("b.feature", "no feature")],
      Text.allBlank source.1.toList = false := by
    decide +kernel
  exact ⟨by decide +kernel, (place_of_sources {} hpaths).1 tag⟩

end Strategy

end ScenarioAtlas
