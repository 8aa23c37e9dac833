import ScenarioAtlas.Proofs.Group.Members

/-!
# Groups that part the scenarios

Every strategy except the one by tag parts the scenarios: each of them stands in one group, and those
of a group come in the order in which they were given. So does every strategy that gives way to one
group of all scenarios. A strategy by files does that exactly if some path is blank. Whatever the
strategy, then, no scenario is lost.
-/

namespace ScenarioAtlas

set_option autoImplicit false

section Parts

variable {α β : Type} {key : α → β} {before : β → β → Prop} {l : List α}

/-- Parts of a list that have all of its items, no item in two of them, and keep their order. -/
structure Parts (l : List α) (parts : List (List α)) : Prop where
  stable : ∀ part ∈ parts, part.Sublist l
  apart : parts.Pairwise List.Disjoint
  whole : parts.flatten.Perm l

/-- Parts of a list by a key: items stand together if they have the same key, and the parts come in
an order of the keys. -/
structure PartsBy (key : α → β) (before : β → β → Prop) (l : List α) (parts : List (List α)) : Prop
    extends Parts l parts where
  nonempty : ∀ part ∈ parts, part ≠ []
  same : ∀ part ∈ parts, ∀ a ∈ part, ∀ b ∈ part, key a = key b
  ordered : parts.Pairwise fun part other => ∀ a ∈ part, ∀ b ∈ other, before (key a) (key b)

theorem PartsBy.nil_not_mem {parts : List (List α)} (h : PartsBy key before l parts) :
    [] ∉ parts :=
  fun hnil => h.nonempty [] hnil rfl

theorem parts_singleton (l : List α) : Parts l [l] := by
  refine ⟨?_, List.pairwise_singleton _ _, ?_⟩
  · intro part hpart
    rw [List.mem_singleton.mp hpart]
  · rw [List.flatten_singleton]

theorem partsBy_filter [DecidableEq β] {keys : List β} (hordered : keys.Pairwise before)
    (hapart : keys.Nodup) (hkeys : ∀ k, k ∈ keys ↔ k ∈ l.map key) :
    PartsBy key before l (keys.map fun k => l.filter (key · = k)) := by
  have hkey {k : β} {a : α} (ha : a ∈ l.filter (key · = k)) : key a = k :=
    of_decide_eq_true (List.mem_filter.mp ha).2
  refine ⟨⟨?_, ?_, ?_⟩, ?_, ?_, ?_⟩
  · intro part hpart
    obtain ⟨k, -, rfl⟩ := List.mem_map.mp hpart
    exact List.filter_sublist
  · apply List.pairwise_map.mpr
    apply hapart.imp
    intro k other hne a ha hother
    exact hne ((hkey ha).symm.trans (hkey hother))
  · rw [← List.flatMap_def]
    apply flatMap_filter_key_perm hapart
    intro a ha
    exact (hkeys _).mpr (List.mem_map_of_mem ha)
  · intro part hpart
    obtain ⟨k, hk, rfl⟩ := List.mem_map.mp hpart
    obtain ⟨a, ha, rfl⟩ := List.mem_map.mp ((hkeys k).mp hk)
    exact List.ne_nil_of_mem (List.mem_filter.mpr ⟨ha, decide_eq_true rfl⟩)
  · intro part hpart a ha b hb
    obtain ⟨k, -, rfl⟩ := List.mem_map.mp hpart
    exact (hkey ha).trans (hkey hb).symm
  · apply List.pairwise_map.mpr
    apply hordered.imp
    intro k other hbefore a ha b hb
    rwa [hkey ha, hkey hb]

end Parts

namespace Group

variable {scenarios : List Scenario} {groups : List Group} {id : String → List Scenario → NodeId}

theorem partsBy_path (h : byFileAs id scenarios = .ok groups) :
    PartsBy Scenario.path (FirstBefore (scenarios.map Scenario.path)) scenarios
      (groups.map Group.scenarios) := by
  have hpaths := firstPlaces_eraseDups (scenarios.map Scenario.path)
  rw [map_members_of_byFileAs h]
  exact partsBy_filter hpaths.ordered hpaths.nodup hpaths.mem_iff

theorem partsBy_kind (scenarios : List Scenario) :
    PartsBy Scenario.kind (fun kind other => kind = .regular ∧ other = .outline) scenarios
      ((byKind scenarios).map Group.scenarios) := by
  rw [map_members_byKind]
  refine partsBy_filter ?_ (nodup_kindsOf scenarios) fun _ => mem_kindsOf_iff
  apply List.Pairwise.filter
  simp

theorem isError_byFileAs_iff :
    (∃ error, byFileAs id scenarios = .error error) ↔
      ∃ scenario ∈ scenarios, Text.allBlank scenario.path.toList = true := by
  unfold byFileAs
  split
  case h_1 scenario hfind =>
    refine iff_of_true ⟨_, rfl⟩ ⟨scenario, List.mem_of_find?_eq_some hfind, ?_⟩
    simpa using List.find?_some hfind
  case h_2 hfind =>
    refine iff_of_false (fun ⟨_, h⟩ => nomatch h) ?_
    simpa using hfind

theorem not_suffix_countText (scenarios : List Scenario) :
    ¬ allLabel.toList <:+ (countText scenarios).toList := by
  rw [countText]
  split
  case isTrue => decide
  case isFalse =>
    intro hlabel
    have hwords : " scenarios".toList <:+
        (String.ofList (Text.writeNumber scenarios.length) ++ " scenarios").toList := by
      rw [String.toList_append]
      exact List.suffix_append _ _
    have hinside := List.suffix_of_suffix_length_le hwords hlabel (by decide)
    exact absurd hinside (by decide)

/-- Groups by files are told from one group of all scenarios. The label of a group by files is the
end of its description. -/
theorem ne_flat_of_byFileAs (h : byFileAs id scenarios = .ok groups) :
    groups ≠ flat scenarios := by
  rintro rfl
  unfold byFileAs at h
  split at h
  case h_1 => cases h
  case h_2 =>
    have hgroup : counted .all allLabel scenarios ∈ flat scenarios := List.mem_singleton_self _
    rw [← Except.ok.inj h] at hgroup
    obtain ⟨path, -, hgroup⟩ := List.mem_map.mp hgroup
    simp only [counted, Group.mk.injEq] at hgroup
    obtain ⟨-, hlabel, hdescription, -⟩ := hgroup
    apply not_suffix_countText scenarios
    rw [← hlabel, ← hdescription, String.toList_ofList]
    exact List.rtakeWhile_suffix _ _

end Group

namespace Strategy

variable {strategy : Strategy} {scenarios : List Scenario}

theorem exists_place_eq_byFileAs (h : strategy = .file ∨ strategy = .feature) :
    ∃ id, ∀ scenarios, strategy.place scenarios = Group.byFileAs id scenarios := by
  rcases h with rfl | rfl
  · exact ⟨_, place_file⟩
  · exact ⟨_, place_feature⟩

theorem organize_of_error {error : PlacementError} (h : strategy.place scenarios = .error error) :
    strategy.organize scenarios = Group.flat scenarios := by
  rw [organize, h]

theorem organize_of_ok {groups : List Group} (h : strategy.place scenarios = .ok groups) :
    strategy.organize scenarios = groups := by
  rw [organize, h]

theorem members_flat (scenarios : List Scenario) :
    (Group.flat scenarios).map Group.scenarios = [scenarios] := rfl

theorem organize_eq_flat_iff (h : strategy = .file ∨ strategy = .feature) :
    strategy.organize scenarios = Group.flat scenarios ↔
      ∃ scenario ∈ scenarios, Text.allBlank scenario.path.toList = true := by
  obtain ⟨id, hplace⟩ := exists_place_eq_byFileAs h
  rw [← Group.isError_byFileAs_iff, ← hplace]
  cases hplaced : strategy.place scenarios with
  | error error => exact iff_of_true (organize_of_error hplaced) ⟨error, rfl⟩
  | ok groups =>
    rw [organize_of_ok hplaced]
    rw [hplace] at hplaced
    exact iff_of_false (Group.ne_flat_of_byFileAs hplaced) nofun

theorem partsBy_path_of_place {groups : List Group} (h : strategy = .file ∨ strategy = .feature)
    (hplaced : strategy.place scenarios = .ok groups) :
    PartsBy Scenario.path (FirstBefore (scenarios.map Scenario.path)) scenarios
      (groups.map Group.scenarios) := by
  obtain ⟨id, hplace⟩ := exists_place_eq_byFileAs h
  rw [hplace] at hplaced
  exact Group.partsBy_path hplaced

/-- Groups by files part the scenarios by their paths, or else give way to one group. -/
theorem partsBy_path (h : strategy = .file ∨ strategy = .feature)
    (hgroups : strategy.organize scenarios ≠ Group.flat scenarios) :
    PartsBy Scenario.path (FirstBefore (scenarios.map Scenario.path)) scenarios
      ((strategy.organize scenarios).map Group.scenarios) := by
  cases hplaced : strategy.place scenarios with
  | error error => exact absurd (organize_of_error hplaced) hgroups
  | ok groups =>
    rw [organize_of_ok hplaced]
    exact partsBy_path_of_place h hplaced

theorem ne_nil_of_place_error {error : PlacementError}
    (h : strategy.place scenarios = .error error) : scenarios ≠ [] := by
  rintro rfl
  cases strategy <;> cases h

theorem parts_organize (h : strategy = .tag → ∃ error, strategy.place scenarios = .error error) :
    Parts scenarios ((strategy.organize scenarios).map Group.scenarios) ∧
      ([] ∈ (strategy.organize scenarios).map Group.scenarios →
        strategy = .flat ∧ scenarios = []) := by
  cases hplaced : strategy.place scenarios with
  | error error =>
    rw [organize_of_error hplaced, members_flat]
    refine ⟨parts_singleton scenarios, fun hnil => ?_⟩
    exact absurd (List.mem_singleton.mp hnil).symm (ne_nil_of_place_error hplaced)
  | ok groups =>
    rw [organize_of_ok hplaced]
    cases strategy with
    | tag =>
      obtain ⟨error, herror⟩ := h rfl
      rw [hplaced] at herror
      cases herror
    | file =>
      have hparts := partsBy_path_of_place (.inl rfl) hplaced
      exact ⟨hparts.toParts, fun hnil => absurd hnil hparts.nil_not_mem⟩
    | feature =>
      have hparts := partsBy_path_of_place (.inr rfl) hplaced
      exact ⟨hparts.toParts, fun hnil => absurd hnil hparts.nil_not_mem⟩
    | kind =>
      have hparts := Group.partsBy_kind scenarios
      cases hplaced
      exact ⟨hparts.toParts, fun hnil => absurd hnil hparts.nil_not_mem⟩
    | flat =>
      cases hplaced
      rw [members_flat]
      exact ⟨parts_singleton scenarios, fun hnil => ⟨rfl, (List.mem_singleton.mp hnil).symm⟩⟩

theorem flatMap_copies (h : strategy = .tag → ∃ error, strategy.place scenarios = .error error) :
    (scenarios.flatMap fun scenario =>
      List.replicate (strategy.copies scenarios scenario) scenario) = scenarios := by
  have hone (scenario : Scenario) : strategy.copies scenarios scenario = 1 := by
    unfold copies
    split
    case h_1 groups hplaced =>
      obtain ⟨error, herror⟩ := h rfl
      rw [herror] at hplaced
      cases hplaced
    case h_2 => rfl
  simp [hone]

theorem members_perm (strategy : Strategy) (scenarios : List Scenario) :
    ((strategy.organize scenarios).flatMap Group.scenarios).Perm
      (scenarios.flatMap fun scenario =>
        List.replicate (strategy.copies scenarios scenario) scenario) := by
  by_cases h : strategy = .tag → ∃ error, strategy.place scenarios = .error error
  · rw [flatMap_copies h, List.flatMap_def]
    exact (parts_organize h).1.whole
  · obtain ⟨rfl, hok⟩ := Classical.not_imp.mp h
    cases hplaced : Strategy.tag.place scenarios with
    | error error => exact absurd ⟨error, hplaced⟩ hok
    | ok groups =>
      have hcopies (scenario : Scenario) :
          tag.copies scenarios scenario = max 1 scenario.tags.eraseDups.length := by
        unfold copies
        rw [hplaced]
      simp only [hcopies, organize_of_ok hplaced]
      exact Group.members_byTag_perm hplaced

/-- Every strategy but the one by tag, and that one where it gives way to one group, parts the
scenarios and keeps their order. No group is empty but the one of all scenarios where there are
none. Groups by files are by paths, in the order in which those come first, and give way to one
group exactly if a path is blank. Groups by kinds are by kinds, regular scenarios first. -/
theorem organize_parts (strategy : Strategy) (scenarios : List Scenario)
    (h : strategy = .tag → ∃ error, strategy.place scenarios = .error error) :
    let groups := strategy.organize scenarios
    let parts := groups.map Group.scenarios
    Parts scenarios parts ∧
      ([] ∈ parts → strategy = .flat ∧ scenarios = []) ∧
      (strategy = .file ∨ strategy = .feature →
        (groups = Group.flat scenarios ↔
          ∃ scenario ∈ scenarios, Text.allBlank scenario.path.toList = true) ∧
        (groups ≠ Group.flat scenarios →
          PartsBy Scenario.path (FirstBefore (scenarios.map Scenario.path)) scenarios parts)) ∧
      (strategy = .kind → PartsBy Scenario.kind
        (fun kind other => kind = .regular ∧ other = .outline) scenarios parts) ∧
      (strategy = .flat ∨ (∃ error, strategy.place scenarios = .error error) →
        groups = Group.flat scenarios ∧ parts = [scenarios]) := by
  obtain ⟨hparts, hempty⟩ := parts_organize h
  refine ⟨hparts, hempty, fun hfiles => ?_, ?_, ?_⟩
  · exact ⟨organize_eq_flat_iff hfiles, partsBy_path hfiles⟩
  · rintro rfl
    exact Group.partsBy_kind scenarios
  · rintro (rfl | ⟨error, herror⟩)
    · exact ⟨rfl, rfl⟩
    · have hflat := organize_of_error herror
      exact ⟨hflat, congrArg (List.map Group.scenarios) hflat⟩

theorem organize_parts_of_unfit_tag :
    let scenarios : List Scenario :=
      [{ Scenario.new "A" "a.feature" 2 with tags := ["@x"] }, Scenario.new "B" " " 2,
        { Scenario.new "C" "a.feature" 5 with tags := ["@x", "y"] }]
    Parts scenarios ((Strategy.tag.organize scenarios).map Group.scenarios) ∧
      (Strategy.tag.organize scenarios).map Group.scenarios = [scenarios] := by
  intro scenarios
  have herror : ∃ error, Strategy.tag.place scenarios = .error error :=
    ⟨.invalidTag "C" "y", by decide +kernel⟩
  obtain ⟨hparts, -, -, -, hflat⟩ := organize_parts .tag scenarios fun _ => herror
  exact ⟨hparts, (hflat (Or.inr herror)).2⟩

end Strategy

end ScenarioAtlas
