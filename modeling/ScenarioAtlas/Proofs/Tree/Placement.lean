import ScenarioAtlas.Proofs.Group.Members
import ScenarioAtlas.Proofs.Tree.Leaves

/-!
# Where scenarios stand in the test tree

The leaf of a scenario goes by the scenario's key, whatever stands above it, or by its line alone
below a node that names the file. Apart from an empty group of all scenarios there are no other
leaves.
-/

namespace ScenarioAtlas

set_option autoImplicit false

section Groups

variable {scenarios : List Scenario} {group : Group} {strategy : Strategy}

/-- A group of some of the scenarios: there is one in it, and if files stand for groups then it is
about one file. -/
structure Group.Within (hierarchical : Bool) (scenarios : List Scenario) (group : Group) : Prop where
  sublist : group.scenarios.Sublist scenarios
  nonempty : group.scenarios ≠ []
  path : hierarchical = true → ∃ path, ∀ scenario ∈ group.scenarios, scenario.path = path

theorem Group.Within.subset {hierarchical : Bool} (h : group.Within hierarchical scenarios) :
    group.scenarios ⊆ scenarios :=
  h.sublist.subset

theorem Group.within_of_mem_byTag {groups : List Group}
    (hgroups : Group.byTag scenarios = .ok groups) (h : group ∈ groups) :
    group.Within false scenarios := by
  rcases Group.exists_tag_of_mem_byTag hgroups h with ⟨tag, htag, rfl⟩ | ⟨hsome, rfl⟩
  · rw [Group.distinctTags, List.mem_eraseDups] at htag
    obtain ⟨scenario, hmem, htag⟩ := List.mem_flatMap.mp htag
    exact ⟨List.filter_sublist,
      List.ne_nil_of_mem (List.mem_filter.mpr ⟨hmem, decide_eq_true htag⟩), nofun⟩
  · exact ⟨List.filter_sublist, hsome, nofun⟩

theorem Group.within_of_mem_byFileAs {id : String → List Scenario → NodeId} {groups : List Group}
    (hgroups : Group.byFileAs id scenarios = .ok groups) (h : group ∈ groups) :
    group.Within true scenarios := by
  obtain ⟨path, hpath, -, hmembers⟩ := Group.exists_path_of_mem_byFileAs hgroups h
  rw [Group.distinctPaths, List.mem_eraseDups] at hpath
  obtain ⟨scenario, hmem, rfl⟩ := List.mem_map.mp hpath
  constructor
  · exact hmembers ▸ List.filter_sublist
  · exact hmembers ▸ List.ne_nil_of_mem (List.mem_filter.mpr ⟨hmem, decide_eq_true rfl⟩)
  · intro _
    refine ⟨scenario.path, fun other hother => ?_⟩
    rw [hmembers] at hother
    exact of_decide_eq_true (List.mem_filter.mp hother).2

theorem Group.within_of_mem_byKind (h : group ∈ Group.byKind scenarios) :
    group.Within false scenarios := by
  obtain ⟨kind, label, hsome, rfl⟩ := Group.exists_kind_of_mem_byKind h
  exact ⟨List.filter_sublist, hsome, nofun⟩

/-- Every group holds some of the scenarios, unless it is the group of all of them. -/
theorem Strategy.within_of_mem_organize (h : group ∈ strategy.organize scenarios) :
    group.Within strategy.isHierarchical scenarios ∨
      (group.id = NodeId.all.text ∧ group.scenarios = scenarios) := by
  have hflat : group ∈ Group.flat scenarios →
      group.id = NodeId.all.text ∧ group.scenarios = scenarios := by
    intro hmem
    rw [List.mem_singleton.mp hmem]
    exact ⟨rfl, rfl⟩
  unfold Strategy.organize at h
  cases hplace : strategy.place scenarios with
  | error _ =>
    rw [hplace] at h
    exact Or.inr (hflat h)
  | ok groups =>
    rw [hplace] at h
    cases strategy with
    | tag => exact Or.inl (Group.within_of_mem_byTag hplace h)
    | file =>
      rw [place_file] at hplace
      have hwithin := Group.within_of_mem_byFileAs hplace h
      exact Or.inl ⟨hwithin.sublist, hwithin.nonempty, nofun⟩
    | kind =>
      cases hplace
      exact Or.inl (Group.within_of_mem_byKind h)
    | flat =>
      cases hplace
      exact Or.inr (hflat h)
    | feature =>
      rw [place_feature] at hplace
      exact Or.inl (Group.within_of_mem_byFileAs hplace h)

theorem Strategy.sublist_of_mem_organize (h : group ∈ strategy.organize scenarios) :
    group.scenarios.Sublist scenarios := by
  rcases Strategy.within_of_mem_organize h with hwithin | ⟨-, hmembers⟩
  · exact hwithin.sublist
  · rw [hmembers]

end Groups

namespace Tree

/-- Where the leaf of one of the scenarios stands, given the identifier of the node above it. -/
inductive Placed (scenarios : List Scenario) : String → Tree → Prop where
  | byKey {scenario : Scenario} (parent : String) :
    scenario ∈ scenarios → Placed scenarios parent (leaf (scenarioId scenario) scenario)
  | inFile {scenario first : Scenario} :
    scenario ∈ scenarios → first ∈ scenarios → first.path = scenario.path →
      Placed scenarios (NodeId.feature first.path first.featureLine).text
        (leaf (.scenarioOn scenario.line) scenario)
  | inOutline {scenario first : Scenario} (line : Nat) :
    scenario ∈ scenarios → first ∈ scenarios → first.path = scenario.path →
      Placed scenarios (NodeId.outline first.path (first.featureLine.getD 0) line).text
        (leaf (.scenarioOn scenario.line) scenario)

/-- What fills a slot below the root of a file: a scenario, or an outline over its examples. -/
def Fills (members : List Scenario) : Slot → Tree → Prop
  | .scenario line, tree =>
    ∃ scenario ∈ members, scenario.line = line ∧ tree = leaf (.scenarioOn line) scenario
  | .outline line, tree =>
    (∃ first ∈ members, tree.id = .outline first.path (first.featureLine.getD 0) line) ∧
      tree.children ≠ [] ∧
      ∀ child ∈ tree.children, ∃ scenario ∈ members,
        child = leaf (.scenarioOn scenario.line) scenario

section Slots

variable {members : List Scenario} {slots : List (Slot × Tree)}

theorem forall_mem_fillSlot {P : Slot → Tree → Prop} {slot : Slot} {fill : Option Tree → Tree}
    (hnew : P slot (fill none)) (hold : ∀ tree, P slot tree → P slot (fill (some tree)))
    (h : ∀ entry ∈ slots, P entry.1 entry.2) :
    ∀ entry ∈ fillSlot slot fill slots, P entry.1 entry.2 := by
  induction slots with
  | nil => simpa [fillSlot] using hnew
  | cons entry rest ih =>
    obtain ⟨other, tree⟩ := entry
    have hfirst := h (other, tree) List.mem_cons_self
    have hrest := fun entry hmem => h entry (List.mem_cons_of_mem _ hmem)
    rw [fillSlot]
    split
    case isTrue heq =>
      subst heq
      exact List.forall_mem_cons.mpr ⟨hold tree hfirst, hrest⟩
    case isFalse => exact List.forall_mem_cons.mpr ⟨hfirst, ih hrest⟩

theorem fillSlot_ne_nil (slot : Slot) (fill : Option Tree → Tree) :
    fillSlot slot fill slots ≠ [] := by
  cases slots with
  | nil => exact List.cons_ne_nil _ _
  | cons entry rest =>
    rw [fillSlot]
    split <;> exact List.cons_ne_nil _ _

theorem foldl_addScenario_ne_nil {added : List Scenario} (h : added ≠ []) :
    added.foldl addScenario slots ≠ [] := by
  induction added generalizing slots with
  | nil => exact absurd rfl h
  | cons scenario rest ih =>
    rw [List.foldl_cons]
    by_cases hrest : rest = []
    · subst hrest
      unfold addScenario
      split <;> exact fillSlot_ne_nil _ _
    · exact ih hrest

theorem fills_addScenario {scenario : Scenario} (hmem : scenario ∈ members)
    (h : ∀ entry ∈ slots, Fills members entry.1 entry.2) :
    ∀ entry ∈ addScenario slots scenario, Fills members entry.1 entry.2 := by
  have hown (line : Nat) (heq : scenario.line = line) :
      Fills members (.scenario line) (leaf (.scenarioOn line) scenario) :=
    ⟨scenario, hmem, heq, rfl⟩
  unfold addScenario
  split
  case h_1 outlineLine _ =>
    refine forall_mem_fillSlot ⟨⟨scenario, hmem, rfl⟩, ?_, ?_⟩ ?_ h
    · simp
    · intro child hchild
      exact ⟨scenario, hmem, by simpa [outlineNode] using hchild⟩
    · rintro tree ⟨hid, -, hchildren⟩
      refine ⟨hid, by simp, fun child hchild => ?_⟩
      rcases List.mem_append.mp hchild with hchild | hchild
      · exact hchildren child hchild
      · exact ⟨scenario, hmem, List.mem_singleton.mp hchild⟩
  case h_2 => exact forall_mem_fillSlot (hown _ rfl) (fun _ _ => hown _ rfl) h

theorem fills_foldl_addScenario (added : List Scenario) (hadded : added ⊆ members)
    (h : ∀ entry ∈ slots, Fills members entry.1 entry.2) :
    ∀ entry ∈ added.foldl addScenario slots, Fills members entry.1 entry.2 := by
  induction added generalizing slots with
  | nil => exact h
  | cons scenario rest ih =>
    rw [List.foldl_cons]
    exact ih (List.subset_of_cons_subset hadded)
      (fills_addScenario (hadded List.mem_cons_self) h)

theorem fills_members (members : List Scenario) :
    ∀ entry ∈ members.foldl addScenario [], Fills members entry.1 entry.2 :=
  fills_foldl_addScenario members (List.Subset.refl _) nofun

end Slots

section Roots

variable {scenarios : List Scenario} {group : Group} {tree : Tree} {place : String × Tree}

theorem placed_of_ofFeatureGroup? (hgroup : group.Within true scenarios)
    (htree : ofFeatureGroup? group = some tree) (parent : String)
    (hplace : place ∈ tree.leaves parent) : Placed scenarios place.1 place.2 := by
  obtain ⟨first, hfirst, rfl⟩ := Option.map_eq_some_iff.mp htree
  obtain ⟨path, hpath⟩ := hgroup.path rfl
  have hhead := List.mem_of_mem_head? hfirst
  have hsame {a b : Scenario} (ha : a ∈ group.scenarios) (hb : b ∈ group.scenarios) :
      a.path = b.path := (hpath a ha).trans (hpath b hb).symm
  have hfills := fills_members group.scenarios
  have hslots : group.scenarios.foldl addScenario [] ≠ [] :=
    foldl_addScenario_ne_nil hgroup.nonempty
  have hsome : (group.scenarios.foldl addScenario []).map Prod.snd ≠ [] := by
    simpa using hslots
  rw [leaves_of_ne_nil hsome] at hplace
  obtain ⟨child, hchild, hplace⟩ := mem_leavesOf_iff.mp hplace
  obtain ⟨⟨slot, child⟩, hentry, rfl⟩ := List.mem_map.mp hchild
  have hfill := hfills _ hentry
  cases slot with
  | scenario line =>
    obtain ⟨scenario, hmem, rfl, rfl⟩ := hfill
    rw [leaves_of_isEmpty rfl] at hplace
    rw [List.mem_singleton.mp hplace]
    exact .inFile (hgroup.subset hmem) (hgroup.subset hhead) (hsame hhead hmem)
  | outline line =>
    obtain ⟨⟨found, hfound, hid⟩, hexamples, hchildren⟩ := hfill
    rw [leaves_of_ne_nil hexamples, hid] at hplace
    obtain ⟨below, hbelow, hplace⟩ := mem_leavesOf_iff.mp hplace
    obtain ⟨scenario, hmem, rfl⟩ := hchildren _ hbelow
    rw [leaves_of_isEmpty rfl] at hplace
    rw [List.mem_singleton.mp hplace]
    exact .inOutline line (hgroup.subset hmem) (hgroup.subset hfound) (hsame hfound hmem)

theorem placed_of_ofGroup? (hsubset : group.scenarios ⊆ scenarios)
    (hsome : group.scenarios ≠ [] ∨ group.id = NodeId.all.text)
    (htree : ofGroup? group = some tree) (parent : String)
    (hplace : place ∈ tree.leaves parent) :
    place.2.id.isGroup = true ∨ Placed scenarios place.1 place.2 := by
  unfold ofGroup? at htree
  split at htree
  case h_2 => cases htree
  case h_1 id hid =>
    cases htree
    by_cases hempty : group.scenarios = []
    · -- only the group of all scenarios can be empty, and it is a leaf then
      rw [leaves_of_isEmpty (by simp [hempty])] at hplace
      rw [List.mem_singleton.mp hplace]
      have hall : NodeId.read NodeId.all.text = .ok .all := rfl
      rw [hsome.resolve_left (absurd hempty), hall] at hid
      cases hid
      exact Or.inl rfl
    · rw [leaves_of_ne_nil (by simpa using hempty)] at hplace
      obtain ⟨child, hchild, hplace⟩ := mem_leavesOf_iff.mp hplace
      obtain ⟨scenario, hmem, rfl⟩ := List.mem_map.mp hchild
      rw [leaves_of_isEmpty rfl] at hplace
      rw [List.mem_singleton.mp hplace]
      exact Or.inr (.byKey _ (hsubset hmem))

end Roots

/-- Every leaf of a test tree is that of a scenario in its place, or a group without scenarios. -/
theorem placed_of_mem_leaves {strategy : Strategy} {scenarios : List Scenario}
    {place : String × Tree} (h : place ∈ leavesOf "" (ofScenarios strategy scenarios)) :
    place.2.id.isGroup = true ∨ Placed scenarios place.1 place.2 := by
  obtain ⟨tree, htree, hplace⟩ := mem_leavesOf_iff.mp h
  obtain ⟨group, hgroup, htree⟩ := List.mem_filterMap.mp htree
  have hwithin := Strategy.within_of_mem_organize hgroup
  split at htree
  case isTrue hfeature =>
    obtain ⟨hhierarchical, hall⟩ := hfeature
    rcases hwithin with hwithin | ⟨hid, -⟩
    · exact Or.inr (placed_of_ofFeatureGroup? (hhierarchical ▸ hwithin) htree "" hplace)
    · exact absurd hid hall
  case isFalse =>
    have hsubset := (Strategy.sublist_of_mem_organize hgroup).subset
    have hsome := hwithin.imp Group.Within.nonempty And.left
    exact placed_of_ofGroup? hsubset hsome htree "" hplace

end Tree

end ScenarioAtlas
