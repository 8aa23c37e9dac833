import ScenarioAtlas.Proofs.Group.Members
import ScenarioAtlas.Proofs.Tree.Leaves

/-!
# What a test tree shows

The leaves that stand for scenarios, each with what it tells of its scenario. Below the root of a
file they come sorted by the places below that root: a place of its own for each scenario on a line,
and one for all examples of an outline. No two scenarios of a file may share a line, since the later
one would take the place of the earlier.
-/

namespace ScenarioAtlas

set_option autoImplicit false

structure Summary where
  name : String
  path : Option String
  line : Option Nat
  tags : List String
  deriving DecidableEq

def Scenario.summary (scenario : Scenario) : Summary :=
  ⟨scenario.name, some scenario.path, some scenario.line, scenario.tags⟩

namespace Tree

def summary (tree : Tree) : Summary := ⟨tree.label, tree.path, tree.line, tree.tags⟩

/-- The summaries of the leaves that stand for scenarios, from the first leaf to the last. -/
def summaries (trees : List Tree) : List Summary :=
  (((leavesOf "" trees).map Prod.snd).filter (!·.id.isGroup)).map summary

section Summaries

variable {tree : Tree}

theorem map_snd_leaves (parent other : String) (tree : Tree) :
    (tree.leaves parent).map Prod.snd = (tree.leaves other).map Prod.snd := by
  by_cases h : tree.children = []
  · rw [leaves_of_isEmpty h, leaves_of_isEmpty h]
    rfl
  · rw [leaves_of_ne_nil h, leaves_of_ne_nil h]

theorem map_snd_leavesOf (parent other : String) (trees : List Tree) :
    (leavesOf parent trees).map Prod.snd = (leavesOf other trees).map Prod.snd := by
  induction trees with
  | nil => rfl
  | cons tree rest ih =>
    rw [leavesOf, leavesOf, List.map_append, List.map_append, ih, map_snd_leaves parent other]

theorem summaries_cons (tree : Tree) (rest : List Tree) :
    summaries (tree :: rest) = summaries [tree] ++ summaries rest := by
  simp [summaries, leavesOf]

theorem summaries_eq_flatMap (trees : List Tree) :
    summaries trees = trees.flatMap fun tree => summaries [tree] := by
  induction trees with
  | nil => rfl
  | cons tree rest ih => rw [summaries_cons, ih, List.flatMap_cons]

theorem summaries_append (trees rest : List Tree) :
    summaries (trees ++ rest) = summaries trees ++ summaries rest := by
  rw [summaries_eq_flatMap, List.flatMap_append, ← summaries_eq_flatMap, ← summaries_eq_flatMap]

theorem summaries_of_isGroup (h : tree.id.isGroup = true) :
    summaries [tree] = summaries tree.children := by
  have hsingle : summaries [tree] =
      (((tree.leaves "").map Prod.snd).filter (!·.id.isGroup)).map summary := by
    simp [summaries, leavesOf]
  rw [hsingle]
  by_cases hchildren : tree.children = []
  · rw [leaves_of_isEmpty hchildren, hchildren]
    simp [h, summaries, leavesOf]
  · rw [leaves_of_ne_nil hchildren, map_snd_leavesOf tree.id.text ""]
    rfl

theorem summaries_leaf {id : NodeId} (h : id.isGroup = false) (scenario : Scenario) :
    summaries [leaf id scenario] = [scenario.summary] := by
  have hleaves : leavesOf "" [leaf id scenario] = [("", leaf id scenario)] := rfl
  have hid : (leaf id scenario).id = id := rfl
  rw [summaries, hleaves, List.map_singleton, List.filter_singleton, hid, h]
  rfl

theorem summaries_leaves {id : Scenario → NodeId} (h : ∀ scenario, (id scenario).isGroup = false)
    (scenarios : List Scenario) :
    summaries (scenarios.map fun scenario => leaf (id scenario) scenario) =
      scenarios.map Scenario.summary := by
  rw [summaries_eq_flatMap, List.flatMap_map, List.map_eq_flatMap]
  exact List.flatMap_congr fun scenario _ => summaries_leaf (h scenario) scenario

end Summaries

def Slot.line : Slot → Nat
  | scenario line | outline line => line

/-- The place below the root of its file where a scenario stands. -/
def slotOf (scenario : Scenario) : Slot :=
  match scenario.outlineLine, scenario.isExample with
  | some outlineLine, true => .outline outlineLine
  | _, _ => .scenario scenario.line

theorem line_of_slotOf {scenario : Scenario} {line : Nat} (h : slotOf scenario = .scenario line) :
    scenario.line = line := by
  unfold slotOf at h
  split at h
  · cases h
  · exact Slot.scenario.inj h

theorem addScenario_of_scenario {scenario : Scenario} {line : Nat}
    (h : slotOf scenario = .scenario line) (slots : List (Slot × Tree)) :
    addScenario slots scenario =
      fillSlot (.scenario line) (fun _ => leaf (.scenarioOn scenario.line) scenario) slots := by
  obtain rfl := line_of_slotOf h
  cases hline : scenario.outlineLine with
  | none => simp only [addScenario, hline]
  | some outlineLine =>
    cases hexample : scenario.isExample with
    | false => simp only [addScenario, hline, hexample]
    | true =>
      simp only [slotOf, hline, hexample] at h
      cases h

theorem addScenario_of_outline {scenario : Scenario} {line : Nat}
    (h : slotOf scenario = .outline line) (slots : List (Slot × Tree)) :
    addScenario slots scenario =
      fillSlot (.outline line) (fun tree =>
        let outline := tree.getD (outlineNode scenario line)
        { outline with
          children := outline.children ++ [leaf (.scenarioOn scenario.line) scenario] }) slots := by
  cases hline : scenario.outlineLine with
  | none =>
    simp only [slotOf, hline] at h
    cases h
  | some outlineLine =>
    cases hexample : scenario.isExample with
    | false =>
      simp only [slotOf, hline, hexample] at h
      cases h
    | true =>
      simp only [slotOf, hline, hexample] at h
      cases h
      simp only [addScenario, hline, hexample]

section Slots

variable {members part : List Scenario} {slots : List (Slot × Tree)} {scenario : Scenario}
variable {slot : Slot} {fill : Option Tree → Tree}

theorem map_fst_fillSlot (slot : Slot) (fill : Option Tree → Tree) (slots : List (Slot × Tree)) :
    (fillSlot slot fill slots).map Prod.fst =
      if slot ∈ slots.map Prod.fst then slots.map Prod.fst else slots.map Prod.fst ++ [slot] := by
  induction slots with
  | nil => rfl
  | cons entry rest ih =>
    obtain ⟨other, tree⟩ := entry
    rw [fillSlot]
    by_cases h : other = slot
    · simp [h]
    · have hmem : slot ∈ other :: rest.map Prod.fst ↔ slot ∈ rest.map Prod.fst :=
        List.mem_cons.trans (or_iff_right fun heq => h heq.symm)
      simp only [if_neg h, List.map_cons, ih, hmem]
      split <;> rfl

theorem mem_fillSlot (hkeys : (slots.map Prod.fst).Nodup) {entry : Slot × Tree}
    (h : entry ∈ fillSlot slot fill slots) :
    (entry ∈ slots ∧ entry.1 ≠ slot) ∨
      (∃ tree, (slot, tree) ∈ slots ∧ entry = (slot, fill (some tree))) ∨
      (slot ∉ slots.map Prod.fst ∧ entry = (slot, fill none)) := by
  induction slots with
  | nil => exact Or.inr (Or.inr ⟨List.not_mem_nil, List.mem_singleton.mp h⟩)
  | cons first rest ih =>
    obtain ⟨other, tree⟩ := first
    obtain ⟨hother, hrest⟩ := List.nodup_cons.mp hkeys
    rw [fillSlot] at h
    split at h
    case isTrue heq =>
      subst heq
      rcases List.mem_cons.mp h with rfl | hmem
      · exact Or.inr (Or.inl ⟨tree, List.mem_cons_self, rfl⟩)
      · refine Or.inl ⟨List.mem_cons_of_mem _ hmem, fun heq => hother ?_⟩
        exact List.mem_map.mpr ⟨entry, hmem, heq⟩
    case isFalse hne =>
      rcases List.mem_cons.mp h with rfl | hmem
      · exact Or.inl ⟨List.mem_cons_self, hne⟩
      · rcases ih hrest hmem with ⟨hmem, hslot⟩ | ⟨tree, hmem, heq⟩ | ⟨hnone, heq⟩
        · exact Or.inl ⟨List.mem_cons_of_mem _ hmem, hslot⟩
        · exact Or.inr (Or.inl ⟨tree, List.mem_cons_of_mem _ hmem, heq⟩)
        · refine Or.inr (Or.inr ⟨?_, heq⟩)
          rw [List.map_cons, List.mem_cons, not_or]
          exact ⟨fun h => hne h.symm, hnone⟩

/-- A tree in a slot shows the given scenarios; if it stands for an outline then it is a group. -/
structure Shows (part : List Scenario) (slot : Slot) (tree : Tree) : Prop where
  isGroup : ∀ line, slot = .outline line → tree.id.isGroup = true
  summaries : summaries [tree] = part.map Scenario.summary

/-- The slots below the root of a file hold its scenarios sorted. -/
structure Arranged (members : List Scenario) (slots : List (Slot × Tree)) : Prop where
  keys : slots.map Prod.fst = (members.map slotOf).eraseDups
  shows : ∀ entry ∈ slots, Shows (members.filter (slotOf · = entry.1)) entry.1 entry.2

theorem Arranged.nil : Arranged [] [] := ⟨rfl, nofun⟩

theorem Arranged.put (h : Arranged members slots) (hslot : slotOf scenario = slot)
    (hnew : slot ∉ members.map slotOf → Shows [scenario] slot (fill none))
    (hold : slot ∈ members.map slotOf → ∀ part tree, Shows part slot tree →
      Shows (part ++ [scenario]) slot (fill (some tree))) :
    Arranged (members ++ [scenario]) (fillSlot slot fill slots) := by
  have hmem : slot ∈ slots.map Prod.fst ↔ slot ∈ members.map slotOf := by
    rw [h.keys, List.mem_eraseDups]
  constructor
  · rw [map_fst_fillSlot, List.map_append, List.map_singleton, hslot, eraseDups_concat, h.keys]
    simp only [List.mem_eraseDups]
  · intro entry hentry
    have hkeys : (slots.map Prod.fst).Nodup := h.keys ▸ nodup_eraseDups _
    rw [List.filter_append, List.filter_singleton, hslot]
    rcases mem_fillSlot hkeys hentry with ⟨hentry, hne⟩ | ⟨tree, htree, rfl⟩ | ⟨hnone, rfl⟩
    · rw [decide_eq_false hne.symm, cond_false, List.append_nil]
      exact h.shows entry hentry
    · rw [decide_eq_true rfl, cond_true]
      exact hold (hmem.mp (List.mem_map_of_mem htree)) _ tree (h.shows _ htree)
    · have hnone := mt hmem.mpr hnone
      have hempty : members.filter (slotOf · = slot) = [] := by
        apply List.filter_eq_nil_iff.mpr
        intro other hother
        rw [decide_eq_true_iff]
        exact fun heq => hnone (heq ▸ List.mem_map_of_mem hother)
      rw [decide_eq_true rfl, cond_true, hempty, List.nil_append]
      exact hnew hnone

/-- A scenario on a line that no scenario before it has takes no place from them. -/
theorem Arranged.add (h : Arranged members slots)
    (hline : ∀ other ∈ members, other.line ≠ scenario.line) :
    Arranged (members ++ [scenario]) (addScenario slots scenario) := by
  have hown : summaries [leaf (.scenarioOn scenario.line) scenario] = [scenario.summary] :=
    summaries_leaf rfl scenario
  cases hslot : slotOf scenario with
  | scenario line =>
    rw [addScenario_of_scenario hslot]
    apply h.put hslot
    · intro _
      exact ⟨nofun, hown⟩
    · intro hmem
      obtain ⟨other, hother, hsame⟩ := List.mem_map.mp hmem
      have hlines : other.line = scenario.line :=
        (line_of_slotOf hsame).trans (line_of_slotOf hslot).symm
      exact absurd hlines (hline other hother)
  | outline line =>
    rw [addScenario_of_outline hslot]
    apply h.put hslot
    · intro _
      refine ⟨fun _ _ => rfl, ?_⟩
      rw [summaries_of_isGroup rfl]
      exact hown
    · rintro - part tree ⟨hgroup, hsummaries⟩
      have hgroup := hgroup line rfl
      rw [summaries_of_isGroup hgroup] at hsummaries
      let grown : Tree :=
        { tree with children := tree.children ++ [leaf (.scenarioOn scenario.line) scenario] }
      have hgrown : summaries [grown] = (part ++ [scenario]).map Scenario.summary :=
        calc summaries [grown]
          _ = summaries grown.children := summaries_of_isGroup hgroup
          _ = summaries tree.children ++ [scenario.summary] := by rw [summaries_append, hown]
          _ = (part ++ [scenario]).map Scenario.summary := by
            rw [hsummaries, List.map_append, List.map_singleton]
      exact ⟨fun _ _ => hgroup, hgrown⟩

theorem arranged_foldl_addScenario (members : List Scenario)
    (hlines : (members.map Scenario.line).Nodup) :
    Arranged members (members.foldl addScenario []) := by
  induction members using List.reverseRecOn with
  | nil => exact .nil
  | append_singleton members scenario ih =>
    rw [List.map_append, List.map_singleton] at hlines
    obtain ⟨hlines, -, hapart⟩ := List.nodup_append.mp hlines
    rw [List.foldl_append, List.foldl_cons, List.foldl_nil]
    apply (ih hlines).add
    intro other hother
    exact hapart other.line (List.mem_map_of_mem hother) scenario.line List.mem_cons_self

theorem Arranged.summaries_eq (h : Arranged members slots) :
    summaries (slots.map Prod.snd) = (groupedBy slotOf members).map Scenario.summary := by
  have hflat : summaries (slots.map Prod.snd) =
      slots.flatMap fun entry => (members.filter (slotOf · = entry.1)).map Scenario.summary := by
    rw [summaries_eq_flatMap, List.flatMap_map]
    exact List.flatMap_congr fun entry hentry => (h.shows entry hentry).summaries
  have hkeys : groupedBy slotOf members =
      slots.flatMap fun entry => members.filter (slotOf · = entry.1) := by
    rw [groupedBy, ← h.keys, List.flatMap_map]
  rw [hflat, hkeys, List.map_flatMap]

end Slots

section Roots

variable {strategy : Strategy} {scenarios : List Scenario} {group : Group} {tree : Tree}

structure IsRootOf (group : Group) (tree : Tree) : Prop where
  id : tree.id.text = group.id
  label : tree.label = group.label
  description : tree.description = group.description
  summaries : (summaries [tree]).Perm (group.scenarios.map Scenario.summary)

theorem isGroup_scenarioId (scenario : Scenario) : (scenarioId scenario).isGroup = false := by
  unfold scenarioId
  split <;> rfl

theorem exists_ofGroup? {id : NodeId} (hid : group.id = id.text) (hreadable : id.Readable)
    (hgroup : id.isGroup = true) :
    ∃ tree, ofGroup? group = some tree ∧ IsRootOf group tree ∧
      summaries [tree] = group.scenarios.map Scenario.summary := by
  let root : Tree :=
    { id
      label := group.label
      description := group.description
      children := group.scenarios.map fun scenario => leaf (scenarioId scenario) scenario }
  have htree : ofGroup? group = some root := by
    rw [ofGroup?, hid, hreadable.read_text]
  have hsummaries : summaries [root] = group.scenarios.map Scenario.summary :=
    (summaries_of_isGroup hgroup).trans (summaries_leaves isGroup_scenarioId group.scenarios)
  exact ⟨root, htree, ⟨hid.symm, rfl, rfl, .of_eq hsummaries⟩, hsummaries⟩

theorem exists_ofFeatureGroup? {first : Scenario} (hfirst : group.scenarios.head? = some first)
    (hid : group.id = (NodeId.feature first.path first.featureLine).text)
    (hlines : (group.scenarios.map Scenario.line).Nodup) :
    ∃ tree, ofFeatureGroup? group = some tree ∧ IsRootOf group tree ∧
      summaries [tree] = (groupedBy slotOf group.scenarios).map Scenario.summary := by
  let root : Tree :=
    { id := .feature first.path first.featureLine
      label := group.label
      description := group.description
      path := some first.path
      line := first.featureLine
      children := (group.scenarios.foldl addScenario []).map Prod.snd }
  have htree : ofFeatureGroup? group = some root := by
    rw [ofFeatureGroup?, hfirst]
    rfl
  have harranged := arranged_foldl_addScenario group.scenarios hlines
  have hsummaries : summaries [root] = (groupedBy slotOf group.scenarios).map Scenario.summary :=
    (summaries_of_isGroup rfl).trans harranged.summaries_eq
  refine ⟨root, htree, ⟨hid.symm, rfl, rfl, ?_⟩, hsummaries⟩
  rw [hsummaries]
  exact (groupedBy_perm slotOf group.scenarios).map Scenario.summary

theorem nodup_lines_ofFile
    (hplaces : (scenarios.map fun scenario => (scenario.path, scenario.line)).Nodup)
    (path : String) : ((Group.ofFile scenarios path).map Scenario.line).Nodup := by
  apply List.pairwise_map.mpr
  have hapart := (List.pairwise_map.mp hplaces).sublist
    (List.filter_sublist (p := fun scenario => scenario.path = path))
  refine hapart.imp_of_mem ?_
  intro a b ha hb hne hline
  have hpath : a.path = b.path :=
    (of_decide_eq_true (List.mem_filter.mp ha).2).trans
      (of_decide_eq_true (List.mem_filter.mp hb).2).symm
  exact hne (Prod.ext hpath hline)

end Roots

end Tree

end ScenarioAtlas
