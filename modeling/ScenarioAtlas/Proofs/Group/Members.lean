import Mathlib.Data.List.Induction
import Mathlib.Data.List.Nodup
import Mathlib.Data.List.Perm.Basic
import ScenarioAtlas.Group.Strategy
import ScenarioAtlas.Proofs.Distinct
import ScenarioAtlas.Proofs.NodeId.RoundTrip

/-!
# What stands in the groups

Files come one after the other, so groups by file hold the scenarios sorted by their paths, and a
list that is sorted so already is left as it is. Groups by kind hold the scenarios of one kind and
then those of the other. Under the strategy by tag a scenario stands in one group for each of its
tags.
-/

namespace ScenarioAtlas

set_option autoImplicit false

section Sorting

variable {α β γ : Type} [DecidableEq β] {key : α → β} {l m : List α}

theorem flatMap_ite_singleton (keys : List γ) (p : γ → Bool) (a : α) :
    (keys.flatMap fun k => if p k then [a] else []) = List.replicate (keys.countP p) a := by
  induction keys with
  | nil => rfl
  | cons k keys ih =>
    rw [List.flatMap_cons, List.countP_cons, ih]
    split <;> simp [List.replicate_succ]

/-- What stands under a key, for one key after the other, is each item as often as there are keys
that it stands under. -/
theorem flatMap_filter_perm (keys : List γ) (p : γ → α → Bool) (l : List α) :
    (keys.flatMap fun k => l.filter (p k)).Perm
      (l.flatMap fun a => List.replicate (keys.countP (p · a)) a) := by
  induction l with
  | nil => simp
  | cons a l ih =>
    have hcons : (keys.flatMap fun k => (a :: l).filter (p k)) =
        keys.flatMap fun k => (if p k a then [a] else []) ++ l.filter (p k) := by
      refine List.flatMap_congr fun k _ => ?_
      rw [List.filter_cons]
      split <;> rfl
    rw [hcons, List.flatMap_cons, ← flatMap_ite_singleton]
    exact (List.flatMap_append_perm keys _ _).symm.trans (ih.append_left _)

/-- With each key once, what stands under the keys is each item once. -/
theorem flatMap_filter_key_perm {keys : List β} (hkeys : keys.Nodup)
    (hmem : ∀ a ∈ l, key a ∈ keys) : (keys.flatMap fun k => l.filter (key · = k)).Perm l := by
  have hperm := flatMap_filter_perm keys (fun k a => decide (key a = k)) l
  refine hperm.trans ?_
  have honce : ∀ a ∈ l, List.replicate (keys.countP (key a = ·)) a = [a] := by
    intro a ha
    have hcount := List.count_eq_one_of_mem hkeys (hmem a ha)
    have hsame : keys.countP (key a = ·) = keys.count (key a) := by
      apply List.countP_congr
      intro k _
      rw [decide_eq_true_iff, beq_iff_eq, eq_comm]
    rw [hsame, hcount, List.replicate_one]
  rw [List.flatMap_congr honce]
  simp

/-- The items sorted by a key: keys in the order of their first items, and items in their own order
under a key. -/
def groupedBy (key : α → β) (l : List α) : List α :=
  (l.map key).eraseDups.flatMap fun k => l.filter (key · = k)

theorem groupedBy_perm (key : α → β) (l : List α) : (groupedBy key l).Perm l :=
  flatMap_filter_key_perm (nodup_eraseDups _) fun _ ha =>
    List.mem_eraseDups.mpr (List.mem_map_of_mem ha)

theorem groupedBy_eq_self (h : ∀ a ∈ l, ∀ b ∈ l, key a = key b) : groupedBy key l = l := by
  cases l with
  | nil => rfl
  | cons a l =>
    have hkeys : ((a :: l).map key).eraseDups = [key a] := by
      rw [List.map_cons, List.eraseDups_cons, List.filter_eq_nil_iff.mpr, List.eraseDups_nil]
      intro k hk
      obtain ⟨b, hb, rfl⟩ := List.mem_map.mp hk
      simp [h b (List.mem_cons_of_mem a hb) a List.mem_cons_self]
    rw [groupedBy, hkeys, List.flatMap_cons, List.flatMap_nil, List.append_nil]
    exact List.filter_eq_self.mpr fun b hb => decide_eq_true (h b hb a List.mem_cons_self)

theorem groupedBy_append (h : ∀ a ∈ l, ∀ b ∈ m, key a ≠ key b) :
    groupedBy key (l ++ m) = groupedBy key l ++ groupedBy key m := by
  have hleft : ∀ k ∈ (l.map key).eraseDups,
      (l ++ m).filter (key · = k) = l.filter (key · = k) := by
    intro k hk
    obtain ⟨a, ha, rfl⟩ := List.mem_map.mp (List.mem_eraseDups.mp hk)
    have hnone : m.filter (key · = key a) = [] :=
      List.filter_eq_nil_iff.mpr fun b hb => by simpa using (h a ha b hb).symm
    rw [List.filter_append, hnone, List.append_nil]
  have hright : ∀ k ∈ (m.map key).eraseDups,
      (l ++ m).filter (key · = k) = m.filter (key · = k) := by
    intro k hk
    obtain ⟨b, hb, rfl⟩ := List.mem_map.mp (List.mem_eraseDups.mp hk)
    have hnone : l.filter (key · = key b) = [] :=
      List.filter_eq_nil_iff.mpr fun a ha => by simpa using h a ha b hb
    rw [List.filter_append, hnone, List.nil_append]
  have hrest : (m.map key).removeAll (l.map key) = m.map key := by
    apply List.filter_eq_self.mpr
    intro k hk
    obtain ⟨b, hb, rfl⟩ := List.mem_map.mp hk
    simpa using fun a ha => h a ha b hb
  rw [groupedBy, List.map_append, List.eraseDups_append, hrest, List.flatMap_append,
    List.flatMap_congr hleft, List.flatMap_congr hright]
  rfl

/-- Pieces of one key each, no two of them of the same key, are sorted already. -/
theorem groupedBy_flatMap {pieces : List γ} {f : γ → List α} {label : γ → β}
    (hsame : ∀ piece ∈ pieces, ∀ a ∈ f piece, key a = label piece)
    (hapart : (pieces.map label).Nodup) :
    groupedBy key (pieces.flatMap f) = pieces.flatMap f := by
  induction pieces with
  | nil => rfl
  | cons piece pieces ih =>
    obtain ⟨hne, hapart⟩ := List.nodup_cons.mp hapart
    have hrest := fun other hmem => hsame other (List.mem_cons_of_mem piece hmem)
    have hown := hsame piece List.mem_cons_self
    rw [List.flatMap_cons, groupedBy_append, ih hrest hapart, groupedBy_eq_self]
    · intro a ha b hb
      rw [hown a ha, hown b hb]
    · intro a ha b hb heq
      obtain ⟨other, hmem, hb⟩ := List.mem_flatMap.mp hb
      rw [hown a ha, hrest other hmem b hb] at heq
      exact hne (heq ▸ List.mem_map_of_mem hmem)

end Sorting

namespace Group

variable {scenarios : List Scenario} {groups : List Group} {group : Group}

section Files

variable {id : String → List Scenario → NodeId}

theorem map_members_of_byFileAs (h : byFileAs id scenarios = .ok groups) :
    groups.map Group.scenarios = (distinctPaths scenarios).map (ofFile scenarios) := by
  unfold byFileAs at h
  split at h
  · cases h
  · cases h
    rw [List.map_map]
    rfl

theorem members_of_byFileAs (h : byFileAs id scenarios = .ok groups) :
    groups.flatMap Group.scenarios = groupedBy Scenario.path scenarios := by
  rw [List.flatMap_def, map_members_of_byFileAs h]
  rfl

theorem exists_path_of_mem_byFileAs (h : byFileAs id scenarios = .ok groups)
    (hmem : group ∈ groups) :
    ∃ path ∈ distinctPaths scenarios, group.id = (id path (ofFile scenarios path)).text ∧
      group.scenarios = ofFile scenarios path := by
  unfold byFileAs at h
  split at h
  · cases h
  · cases h
    obtain ⟨path, hpath, rfl⟩ := List.mem_map.mp hmem
    exact ⟨path, hpath, rfl, rfl⟩

theorem exists_cons_of_mem_distinctPaths {path : String} (h : path ∈ distinctPaths scenarios) :
    ∃ first rest, ofFile scenarios path = first :: rest ∧ first ∈ scenarios ∧ first.path = path := by
  obtain ⟨scenario, hmem, hown⟩ := List.mem_map.mp (List.mem_eraseDups.mp h)
  have hsome : scenario ∈ ofFile scenarios path :=
    List.mem_filter.mpr ⟨hmem, decide_eq_true hown⟩
  obtain ⟨first, rest, hfile⟩ := List.exists_cons_of_ne_nil (List.ne_nil_of_mem hsome)
  have hfirst : first ∈ ofFile scenarios path := hfile ▸ List.mem_cons_self
  obtain ⟨hmem, hpath⟩ := List.mem_filter.mp hfirst
  exact ⟨first, rest, hfile, hmem, of_decide_eq_true hpath⟩

theorem isOk_byFileAs (h : ∀ scenario ∈ scenarios, Text.allBlank scenario.path.toList = false) :
    ∃ groups, byFileAs id scenarios = .ok groups := by
  unfold byFileAs
  rw [List.find?_eq_none.mpr fun scenario hmem => by simp [h scenario hmem]]
  exact ⟨_, rfl⟩

end Files

theorem exists_tag_of_mem_byTag (h : byTag scenarios = .ok groups) (hmem : group ∈ groups) :
    (∃ tag ∈ distinctTags scenarios,
      group = counted (.tagGroup tag) tag (scenarios.filter fun scenario => tag ∈ scenario.tags)) ∨
    (scenarios.filter (·.tags.isEmpty) ≠ [] ∧
      group = counted .untagged untaggedLabel (scenarios.filter (·.tags.isEmpty))) := by
  unfold byTag at h
  split at h
  · cases h
  cases h
  rcases List.mem_append.mp hmem with hmem | hmem
  · obtain ⟨tag, htag, rfl⟩ := List.mem_map.mp hmem
    exact Or.inl ⟨tag, htag, rfl⟩
  · split at hmem
    case isTrue => cases hmem
    case isFalse hsome => exact Or.inr ⟨mt List.isEmpty_iff.mpr hsome, List.mem_singleton.mp hmem⟩

theorem exists_kind_of_mem_byKind (h : group ∈ byKind scenarios) :
    ∃ kind label, scenarios.filter (·.kind = kind) ≠ [] ∧
      group = counted (.kindGroup kind) label (scenarios.filter (·.kind = kind)) := by
  obtain ⟨⟨kind, label⟩, -, h⟩ := List.mem_filterMap.mp h
  dsimp only at h
  split at h
  case isTrue => cases h
  case isFalse hsome =>
    exact ⟨kind, label, mt List.isEmpty_iff.mpr hsome, (Option.some.inj h).symm⟩

theorem members_unless_isEmpty (id : NodeId) (label : String) (members : List Scenario) :
    (if members.isEmpty then [] else [counted id label members]).flatMap Group.scenarios =
      members := by
  split
  case isTrue h => exact (List.isEmpty_iff.mp h).symm
  case isFalse => exact List.append_nil members

def kindsOf (scenarios : List Scenario) : List ScenarioKind :=
  [.regular, .outline].filter (· ∈ scenarios.map Scenario.kind)

theorem nodup_kindsOf (scenarios : List Scenario) : (kindsOf scenarios).Nodup := by
  apply List.Nodup.filter
  decide

theorem mem_kindsOf_iff {kind : ScenarioKind} :
    kind ∈ kindsOf scenarios ↔ kind ∈ scenarios.map Scenario.kind := by
  rw [kindsOf, List.mem_filter, decide_eq_true_iff]
  apply and_iff_right
  cases kind <;> simp

theorem map_members_byKind (scenarios : List Scenario) :
    (byKind scenarios).map Group.scenarios =
      (kindsOf scenarios).map fun kind => scenarios.filter (·.kind = kind) := by
  have hempty (kind : ScenarioKind) :
      (scenarios.filter (·.kind = kind)).isEmpty = !decide (kind ∈ scenarios.map Scenario.kind) := by
    rw [Bool.eq_iff_iff]
    simp [List.isEmpty_iff, List.filter_eq_nil_iff]
  simp only [byKind, kindsOf, hempty, List.filterMap_cons, List.filterMap_nil, List.filter_cons,
    List.filter_nil]
  cases decide (ScenarioKind.regular ∈ scenarios.map Scenario.kind) <;>
    cases decide (ScenarioKind.outline ∈ scenarios.map Scenario.kind) <;> rfl

theorem countP_distinctTags {scenario : Scenario} (hmem : scenario ∈ scenarios) :
    (distinctTags scenarios).countP (· ∈ scenario.tags) = scenario.tags.eraseDups.length := by
  rw [List.countP_eq_length_filter]
  apply List.Perm.length_eq
  apply (List.perm_ext_iff_of_nodup ((nodup_eraseDups _).filter _) (nodup_eraseDups _)).mpr
  intro tag
  rw [List.mem_filter, List.mem_eraseDups, List.mem_eraseDups, decide_eq_true_iff]
  exact and_iff_right_of_imp fun htag => List.mem_flatMap.mpr ⟨scenario, hmem, htag⟩

/-- Under the strategy by tag a scenario stands in as many groups as it has distinct tags, or in the
group of those that have none. -/
theorem members_byTag_perm (h : byTag scenarios = .ok groups) :
    (groups.flatMap Group.scenarios).Perm
      (scenarios.flatMap fun scenario =>
        List.replicate (max 1 scenario.tags.eraseDups.length) scenario) := by
  unfold byTag at h
  split at h
  · cases h
  cases h
  have huntagged : scenarios.filter (·.tags.isEmpty) =
      scenarios.flatMap fun scenario => if scenario.tags.isEmpty then [scenario] else [] := by
    rw [← List.filterMap_eq_filter, List.filterMap_eq_flatMap_toList]
    refine List.flatMap_congr fun scenario _ => ?_
    rw [Option.guard]
    split <;> rfl
  rw [List.flatMap_append, members_unless_isEmpty, huntagged, List.flatMap_map]
  have htagged := flatMap_filter_perm (distinctTags scenarios)
    (fun tag (scenario : Scenario) => tag ∈ scenario.tags) scenarios
  refine (htagged.append_right _).trans ((List.flatMap_append_perm _ _ _).trans ?_)
  apply List.Perm.flatMap_left
  intro scenario hmem
  rw [countP_distinctTags hmem]
  cases scenario.tags with
  | nil => exact List.Perm.refl _
  | cons tag tags =>
    have hsome : 1 ≤ (tag :: tags).eraseDups.length := by
      rw [List.eraseDups_cons]
      exact Nat.le_add_left 1 _
    rw [Nat.max_eq_right hsome, List.isEmpty_cons, if_neg Bool.false_ne_true, List.append_nil]

end Group

namespace Strategy

variable {strategy : Strategy} {scenarios : List Scenario} {group : Group}

theorem place_file (scenarios : List Scenario) :
    file.place scenarios = Group.byFileAs (fun path _ => .fileGroup path) scenarios := rfl

theorem place_feature (scenarios : List Scenario) :
    feature.place scenarios =
      Group.byFileAs (fun path members => .feature path (members.head?.bind Scenario.featureLine))
        scenarios := rfl

/-- How often a scenario stands in the groups under a strategy: once, or once for each of its tags
where scenarios have been placed by tag. -/
def copies (strategy : Strategy) (scenarios : List Scenario) (scenario : Scenario) : Nat :=
  match strategy, strategy.place scenarios with
  | tag, .ok _ => max 1 scenario.tags.eraseDups.length
  | _, _ => 1

/-- The identifier of a group can be read back, unless the group stands for a file. -/
theorem exists_readable_id (h : group ∈ strategy.organize scenarios)
    (hroot : ¬(strategy.isHierarchical ∧ group.id ≠ NodeId.all.text)) :
    ∃ id : NodeId, group.id = id.text ∧ id.Readable ∧ id.isGroup = true := by
  have hflat (h : group ∈ Group.flat scenarios) : group.id = NodeId.all.text := by
    rw [List.mem_singleton.mp h]
    rfl
  unfold organize at h
  split at h
  case h_2 => exact ⟨.all, hflat h, trivial, rfl⟩
  case h_1 groups hplace =>
    cases strategy with
    | tag =>
      rcases Group.exists_tag_of_mem_byTag hplace h with ⟨tag, -, rfl⟩ | ⟨-, rfl⟩
      · exact ⟨.tagGroup tag, rfl, trivial, rfl⟩
      · exact ⟨.untagged, rfl, trivial, rfl⟩
    | file =>
      rw [place_file] at hplace
      obtain ⟨path, -, hid, -⟩ := Group.exists_path_of_mem_byFileAs hplace h
      exact ⟨.fileGroup path, hid, trivial, rfl⟩
    | kind =>
      cases hplace
      obtain ⟨kind, label, -, rfl⟩ := Group.exists_kind_of_mem_byKind h
      exact ⟨.kindGroup kind, rfl, trivial, rfl⟩
    | flat =>
      cases hplace
      exact ⟨.all, hflat h, trivial, rfl⟩
    | feature =>
      have hall : group.id = NodeId.all.text := by
        by_contra hother
        exact hroot ⟨rfl, hother⟩
      exact ⟨.all, hall, trivial, rfl⟩

/-- A group that stands for a file goes by its path and by the header's line that its first scenario
tells. -/
theorem exists_first_of_mem_organize (h : group ∈ strategy.organize scenarios)
    (hroot : strategy.isHierarchical ∧ group.id ≠ NodeId.all.text) :
    ∃ path first, group.scenarios = Group.ofFile scenarios path ∧
      group.scenarios.head? = some first ∧
        group.id = (NodeId.feature first.path first.featureLine).text := by
  obtain ⟨hfeature, hroot⟩ := hroot
  obtain rfl : strategy = .feature := by
    cases strategy <;> first | rfl | cases hfeature
  unfold organize at h
  split at h
  case h_2 =>
    rw [List.mem_singleton.mp h] at hroot
    exact absurd rfl hroot
  case h_1 groups hplace =>
    rw [place_feature] at hplace
    obtain ⟨path, hpath, hid, hmembers⟩ := Group.exists_path_of_mem_byFileAs hplace h
    obtain ⟨first, rest, hfile, -, hname⟩ := Group.exists_cons_of_mem_distinctPaths hpath
    refine ⟨path, first, hmembers, by rw [hmembers, hfile]; rfl, ?_⟩
    rw [hid, hfile, hname]
    rfl

end Strategy

end ScenarioAtlas
