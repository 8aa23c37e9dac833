import ScenarioAtlas.Proofs.Group.Members

/-!
# Groups by tag

Scenarios are grouped by tag if every tag can name a group, and otherwise the first tag that cannot
is told with its scenario. The groups are described by what stands in them and where, and there is
one list of groups only that the description fits.
-/

namespace ScenarioAtlas

set_option autoImplicit false

section Selection

variable {α : Type} {p : α → Prop} {l selected : List α} {a : α}

/-- The first item of a list that satisfies a condition. -/
def IsFirst (p : α → Prop) (l : List α) (a : α) : Prop :=
  ∃ before after, l = before ++ a :: after ∧ p a ∧ ∀ b ∈ before, ¬ p b

theorem isFirst_iff [DecidablePred p] : IsFirst p l a ↔ l.find? (p ·) = some a := by
  rw [List.find?_eq_some_iff_append]
  constructor
  · rintro ⟨before, after, rfl, ha, hbefore⟩
    exact ⟨decide_eq_true ha, before, after, rfl, by simpa using hbefore⟩
  · rintro ⟨ha, before, after, rfl, hbefore⟩
    exact ⟨before, after, rfl, of_decide_eq_true ha, by simpa using hbefore⟩

theorem IsFirst.holds (h : IsFirst p l a) : p a := by
  obtain ⟨_, _, -, ha, -⟩ := h
  exact ha

theorem IsFirst.exists_mem (h : IsFirst p l a) : ∃ b ∈ l, p b := by
  obtain ⟨before, after, rfl, ha, -⟩ := h
  exact ⟨a, List.mem_append_right _ List.mem_cons_self, ha⟩

theorem exists_isFirst [DecidablePred p] (h : ∃ b ∈ l, p b) : ∃ a, IsFirst p l a := by
  have hfound : (l.find? (p ·)).isSome := by simpa using h
  obtain ⟨a, ha⟩ := Option.isSome_iff_exists.mp hfound
  exact ⟨a, isFirst_iff.mpr ha⟩

/-- The items of a list that satisfy a condition, in their order and as often as in the list. -/
structure Selects [BEq α] (p : α → Prop) (l selected : List α) : Prop where
  sublist : selected.Sublist l
  sound : ∀ a ∈ selected, p a
  complete : ∀ a, p a → selected.count a = l.count a

theorem selects_filter [BEq α] [LawfulBEq α] [DecidablePred p] (l : List α) :
    Selects p l (l.filter (p ·)) := by
  refine ⟨List.filter_sublist, ?_, ?_⟩
  · intro a ha
    exact of_decide_eq_true (List.mem_filter.mp ha).2
  · intro a ha
    exact List.count_filter (decide_eq_true ha)

theorem Selects.count_eq_zero [BEq α] [LawfulBEq α] (h : Selects p l selected) (ha : ¬ p a) :
    selected.count a = 0 :=
  List.count_eq_zero_of_not_mem fun hmem => ha (h.sound a hmem)

theorem selects_iff [BEq α] [LawfulBEq α] [DecidablePred p] :
    Selects p l selected ↔ selected = l.filter (p ·) := by
  constructor
  · intro h
    have hfilter := selects_filter (p := p) l
    have hperm : selected.Perm (l.filter (p ·)) := by
      apply List.perm_iff_count.mpr
      intro a
      by_cases ha : p a
      · rw [h.complete a ha, hfilter.complete a ha]
      · rw [h.count_eq_zero ha, hfilter.count_eq_zero ha]
    have hsublist := h.sublist.filter (p ·)
    rw [List.filter_eq_self.mpr fun a ha => decide_eq_true (h.sound a ha)] at hsublist
    exact hsublist.eq_of_length hperm.length_eq
  · rintro rfl
    exact selects_filter l

end Selection

namespace Group

variable {scenarios : List Scenario} {scenario : Scenario} {tag : String}

/-- What a tag looks like that can name a group. -/
def NamesGroup (tag : String) : Prop :=
  ∃ body, tag.toList = '@' :: body ∧ body ≠ [] ∧ ∀ c ∈ body, Text.isBlank c = false

theorem isValidTag_iff : isValidTag tag = true ↔ NamesGroup tag := by
  unfold isValidTag NamesGroup
  split
  case h_1 body htag => simp [htag]
  case h_2 hno =>
    simp only [Bool.false_eq_true, false_iff, not_exists, not_and]
    intro body htag
    exact absurd htag (hno body)

instance (tag : String) : Decidable (NamesGroup tag) := decidable_of_iff _ isValidTag_iff

theorem find?_invalid_eq (tags : List String) :
    tags.find? (!isValidTag ·) = tags.find? (¬ NamesGroup ·) := by
  congr
  funext tag
  simp [← isValidTag_iff]

/-- The first scenario with a tag that cannot name a group, and its first such tag. -/
def IsFirstUnfit (scenarios : List Scenario) (scenario : Scenario) (tag : String) : Prop :=
  IsFirst (fun scenario => ∃ tag ∈ scenario.tags, ¬ NamesGroup tag) scenarios scenario ∧
    IsFirst (¬ NamesGroup ·) scenario.tags tag

theorem exists_isFirstUnfit_iff :
    (∃ scenario tag, IsFirstUnfit scenarios scenario tag) ↔
      ∃ scenario ∈ scenarios, ∃ tag ∈ scenario.tags, ¬ NamesGroup tag := by
  constructor
  · rintro ⟨scenario, tag, hscenario, -⟩
    exact hscenario.exists_mem
  · intro hsome
    obtain ⟨scenario, hscenario⟩ := exists_isFirst hsome
    obtain ⟨tag, htag⟩ := exists_isFirst hscenario.holds
    exact ⟨scenario, tag, hscenario, htag⟩

theorem invalidTag?_eq_some_iff :
    invalidTag? scenarios = some (scenario, tag) ↔ IsFirstUnfit scenarios scenario tag := by
  have hnone (other : Scenario) :
      (other.tags.find? (!isValidTag ·)).map (other, ·) = none ↔
        ¬ ∃ tag ∈ other.tags, ¬ NamesGroup tag := by
    simp [← isValidTag_iff]
  rw [invalidTag?, List.findSome?_eq_some_iff, IsFirstUnfit]
  simp only [hnone]
  constructor
  · rintro ⟨before, other, after, hsplit, hfound, hbefore⟩
    obtain ⟨found, hfind, heq⟩ := Option.map_eq_some_iff.mp hfound
    obtain ⟨rfl, rfl⟩ := Prod.mk.inj heq
    rw [find?_invalid_eq] at hfind
    have hfirst := isFirst_iff.mpr hfind
    exact ⟨⟨before, after, hsplit, hfirst.exists_mem, hbefore⟩, hfirst⟩
  · rintro ⟨⟨before, after, hsplit, -, hbefore⟩, hfirst⟩
    refine ⟨before, scenario, after, hsplit, ?_, hbefore⟩
    rw [find?_invalid_eq, isFirst_iff.mp hfirst, Option.map_some]

theorem invalidTag?_eq_none_iff :
    invalidTag? scenarios = none ↔
      ∀ scenario ∈ scenarios, ∀ tag ∈ scenario.tags, NamesGroup tag := by
  simp [invalidTag?, ← isValidTag_iff]

/-- The groups of scenarios by tag: those of the tags, and the one of the scenarios without tags. -/
structure AreByTag (scenarios : List Scenario) (tagged untagged : List Group) : Prop where
  labels : FirstPlaces (scenarios.flatMap Scenario.tags) (tagged.map Group.label)
  tagged : ∀ group ∈ tagged,
    group = counted (.tagGroup group.label) group.label group.scenarios ∧
      Selects (group.label ∈ ·.tags) scenarios group.scenarios
  single : untagged.length = if ∃ scenario ∈ scenarios, scenario.tags = [] then 1 else 0
  untagged : ∀ group ∈ untagged,
    group = counted .untagged untaggedLabel group.scenarios ∧
      Selects (·.tags = []) scenarios group.scenarios

def ofTag (scenarios : List Scenario) (tag : String) : Group :=
  counted (.tagGroup tag) tag (scenarios.filter fun scenario => tag ∈ scenario.tags)

def ofUntagged (scenarios : List Scenario) : List Group :=
  if ∃ scenario ∈ scenarios, scenario.tags = [] then
    [counted .untagged untaggedLabel (scenarios.filter (·.tags = []))]
  else []

theorem ofUntagged_eq (scenarios : List Scenario) :
    ofUntagged scenarios =
      if (scenarios.filter (·.tags.isEmpty)).isEmpty then []
      else [counted .untagged untaggedLabel (scenarios.filter (·.tags.isEmpty))] := by
  have hsame : scenarios.filter (·.tags.isEmpty) = scenarios.filter (·.tags = []) := by
    apply List.filter_congr
    intro scenario _
    rw [Bool.eq_iff_iff, List.isEmpty_iff, decide_eq_true_iff]
  have hnone : (scenarios.filter (·.tags = [])).isEmpty = true ↔
      ¬ ∃ scenario ∈ scenarios, scenario.tags = [] := by
    simp [List.isEmpty_iff, List.filter_eq_nil_iff]
  rw [hsame, ofUntagged]
  by_cases h : ∃ scenario ∈ scenarios, scenario.tags = []
  · rw [if_pos h, if_neg fun hempty => hnone.mp hempty h]
  · rw [if_neg h, if_pos (hnone.mpr h)]

theorem byTag_eq_ok_iff {groups : List Group} :
    byTag scenarios = .ok groups ↔
      (∀ scenario ∈ scenarios, ∀ tag ∈ scenario.tags, NamesGroup tag) ∧
        groups = (distinctTags scenarios).map (ofTag scenarios) ++ ofUntagged scenarios := by
  rw [← invalidTag?_eq_none_iff, ofUntagged_eq]
  unfold byTag
  split
  case h_1 hinvalid => simp [hinvalid]
  case h_2 hvalid =>
    rw [Except.ok.injEq, eq_comm, and_iff_right hvalid]
    rfl

theorem byTag_eq_error_iff {error : PlacementError} :
    byTag scenarios = .error error ↔
      ∃ scenario tag, IsFirstUnfit scenarios scenario tag ∧
        error = .invalidTag scenario.name tag := by
  simp only [← invalidTag?_eq_some_iff]
  unfold byTag
  split
  case h_1 scenario tag hinvalid =>
    rw [Except.error.injEq, hinvalid, eq_comm]
    simp
  case h_2 hvalid => simp [hvalid]

theorem areByTag_iff {tagged untagged : List Group} :
    AreByTag scenarios tagged untagged ↔
      tagged = (distinctTags scenarios).map (ofTag scenarios) ∧
        untagged = ofUntagged scenarios := by
  constructor
  · intro h
    constructor
    · have hgroups : tagged.map (fun group => ofTag scenarios group.label) = tagged := by
        refine (List.map_congr_left fun group hgroup => ?_).trans (List.map_id tagged)
        obtain ⟨hgroup, hmembers⟩ := h.tagged group hgroup
        rw [ofTag, ← selects_iff.mp hmembers, ← hgroup]
        rfl
      rw [distinctTags, ← firstPlaces_iff.mp h.labels, List.map_map]
      exact hgroups.symm
    · have hsingle := h.single
      rw [ofUntagged]
      split at hsingle
      case isTrue hsome =>
        obtain ⟨group, rfl⟩ := List.length_eq_one_iff.mp hsingle
        obtain ⟨hgroup, hmembers⟩ := h.untagged group List.mem_cons_self
        rw [if_pos hsome, ← selects_iff.mp hmembers, ← hgroup]
      case isFalse hnone =>
        rw [if_neg hnone]
        exact List.eq_nil_of_length_eq_zero hsingle
  · rintro ⟨rfl, rfl⟩
    constructor
    · rw [List.map_map]
      exact firstPlaces_iff.mpr (List.map_id _)
    · intro group hgroup
      obtain ⟨tag, -, rfl⟩ := List.mem_map.mp hgroup
      exact ⟨rfl, selects_filter scenarios⟩
    · rw [ofUntagged]
      split <;> rfl
    · intro group hgroup
      rw [ofUntagged, List.mem_ite_nil_right, List.mem_singleton] at hgroup
      obtain ⟨-, rfl⟩ := hgroup
      exact ⟨rfl, selects_filter scenarios⟩

end Group

/-- Grouping by tag fails exactly if some tag cannot name a group, and tells the first such tag with
its scenario. Otherwise its groups are those by tag, in the order in which the tags come, and there
are no other groups by tag. -/
theorem Strategy.place_tag_iff (scenarios : List Scenario) :
    ((∃ error, tag.place scenarios = .error error) ↔
      ∃ scenario ∈ scenarios, ∃ tag ∈ scenario.tags, ¬ Group.NamesGroup tag) ∧
    (∀ error, tag.place scenarios = .error error ↔
      ∃ scenario tag, Group.IsFirstUnfit scenarios scenario tag ∧
        error = .invalidTag scenario.name tag) ∧
    ∀ groups, tag.place scenarios = .ok groups ↔
      (∀ scenario ∈ scenarios, ∀ tag ∈ scenario.tags, Group.NamesGroup tag) ∧
        ∃ tagged untagged, groups = tagged ++ untagged ∧
          Group.AreByTag scenarios tagged untagged := by
  refine ⟨?_, fun _ => Group.byTag_eq_error_iff, fun groups => ?_⟩
  · rw [← Group.exists_isFirstUnfit_iff, place]
    simp only [Group.byTag_eq_error_iff]
    constructor
    · rintro ⟨_, scenario, tag, hfirst, -⟩
      exact ⟨scenario, tag, hfirst⟩
    · rintro ⟨scenario, tag, hfirst⟩
      exact ⟨_, scenario, tag, hfirst, rfl⟩
  · rw [place, Group.byTag_eq_ok_iff]
    refine and_congr_right fun _ => ⟨?_, ?_⟩
    · rintro rfl
      exact ⟨_, _, rfl, Group.areByTag_iff.mpr ⟨rfl, rfl⟩⟩
    · rintro ⟨tagged, untagged, rfl, hgroups⟩
      obtain ⟨rfl, rfl⟩ := Group.areByTag_iff.mp hgroups
      rfl

end ScenarioAtlas
